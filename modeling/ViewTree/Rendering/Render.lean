import ViewTree.Rendering.Scope
import ViewTree.Rendering.Log

namespace ViewTree.View

def itemTag : String := "li"

def listTag (numbered : Bool) : String := if numbered then "ol" else "ul"

/-- The one item that nodes are, if they are a single element that is an item. -/
def soleItem? : List Node → Option (Head × List Node)
  | [.element head children] => if head.tag = itemTag then some (head, children) else none
  | _ => none

/-- The item of a list that a rendered node makes: the node itself if it is one item already, or else a
new one around it. Either is given its position. -/
def listItem (node : Node) (position : Nat) : Node :=
  let index := some (UInt64.ofNat position)
  match soleItem? node.nodes with
  | some (head, children) => .element { head with index } children
  | none => .element { Head.ofTag itemTag with index } node.nodes

def attributeValues (attributes : List (String × Value)) (context : Data) :
    Except RenderError (List (String × Scalar)) :=
  attributes.mapM fun (name, value) => do .ok (name, ← value.evaluate context)

def listItems (render : Data → Logged RenderError Node) :
    (position : Nat) → List Data → Logged RenderError (List Node)
  | _, [] => pure []
  | position, item :: items => do
    let node ← render item
    let rest ← listItems render (position + 1) items
    pure (listItem node position :: rest)

mutual

def trace : View → Data → Logged RenderError Node
  | .element tag attributes text, context => do
    Logged.record (.entering .element context.kind)
    let values ← Logged.ofExcept (attributeValues attributes context)
    let shown ← Logged.ofExcept (text.evaluate context)
    pure (.element ⟨tag, values, shown, none⟩ [])
  | .list numbered source item, context => do
    Logged.record (.entering .list context.kind)
    let items ← Logged.ofExcept (source.items context)
    Logged.record (.expanding items.length)
    let children ← listItems (trace item) 0 items
    pure (.element (Head.ofTag (listTag numbered)) children)
  | .sequence items, context => do
    Logged.record (.entering .sequence context.kind)
    let nodes ← traceItems items context
    pure (.fragment nodes)
  | .hole, context => do
    Logged.record (.entering .hole context.kind)
    pure .empty

def traceItems : List View → Data → Logged RenderError (List Node)
  | [], _ => pure []
  | item :: items, context => do
    let node ← trace item context
    let rest ← traceItems items context
    pure (node.nodes ++ rest)

end

def render (view : View) (context : Data) : Except RenderError Node := (view.trace context).outcome

def renderItems (items : List View) (context : Data) : Except RenderError (List Node) :=
  (traceItems items context).outcome

theorem render_element (tag : String) (attributes : List (String × Value)) (text : Value)
    (context : Data) :
    render (.element tag attributes text) context = (do
      let values ← attributeValues attributes context
      let shown ← text.evaluate context
      .ok (.element ⟨tag, values, shown, none⟩ [])) := by
  simp only [render, trace, Logged.outcome_do, Logged.outcome_ofExcept]
  rfl

theorem render_list (numbered : Bool) (source : Reference) (item : View) (context : Data) :
    render (.list numbered source item) context = (do
      let items ← source.items context
      let children ← (listItems (trace item) 0 items).outcome
      .ok (.element (Head.ofTag (listTag numbered)) children)) := by
  simp only [render, trace, Logged.outcome_do, Logged.outcome_ofExcept]
  rfl

theorem render_sequence (items : List View) (context : Data) :
    render (.sequence items) context = (renderItems items context).map .fragment := by
  simp only [render, trace, renderItems, Logged.outcome_do]
  cases (traceItems items context).outcome <;> rfl

theorem render_hole (context : Data) : render .hole context = .ok .empty := rfl

theorem renderItems_nil (context : Data) : renderItems [] context = .ok [] := rfl

theorem renderItems_cons (item : View) (items : List View) (context : Data) :
    renderItems (item :: items) context = (do
      let node ← render item context
      let rest ← renderItems items context
      .ok (node.nodes ++ rest)) := by
  simp only [renderItems, render, traceItems, Logged.outcome_do]
  rfl

end ViewTree.View
