import ViewTree.View.Reading
import ViewTree.Rendering.Render

namespace ViewTree

def Template.load (text : String) : Logged LoadError Template := do
  let template ← Logged.ofExcept (Template.parse text)
  Logged.record (.decodedTemplate template.version template.code.kind template.code.holes)
  pure template

theorem Template.outcome_load (text : String) : (Template.load text).outcome = Template.parse text := by
  cases loaded : Template.parse text <;> simp only [Template.load, loaded] <;> rfl

def View.load (text : String) : Logged LoadError View := do
  let view ← Logged.ofExcept ((View.parse text).mapError .malformed)
  Logged.record (.decodedView view.kind)
  pure view

theorem View.outcome_load (text : String) :
    (View.load text).outcome = (View.parse text).mapError .malformed := by
  cases loaded : View.parse text <;> simp only [View.load, loaded] <;> rfl

inductive PageError where
  | render (error : RenderError)
  | load (error : LoadError)
deriving DecidableEq

def PageError.message : PageError → String
  | .render error => "render failed: " ++ error.message
  | .load error => "parse template failed: " ++ error.message

def renderTemplate (text : String) (context : Data) : Logged PageError Node := do
  let template ← (Template.load text).mapError .load
  (template.code.trace context).mapError .render

end ViewTree
