import ViewTree.Data.Basic
import ViewTree.Node.Basic
import ViewTree.Text.Message
import ViewTree.View.Basic

namespace ViewTree

open Text (inBackquotes)

inductive RenderError where
  | unboundField (name : String) (context : Data.Kind)
  | notShowable (kind : Data.Kind)
  | notIterable (kind : Data.Kind)
  | illegalName (name : String)
deriving DecidableEq

def RenderError.message : RenderError → String
  | .unboundField name context =>
    "field " ++ inBackquotes name ++ " is not bound in " ++ inBackquotes context.name ++ " context."
  | .notShowable kind =>
    "cannot display " ++ inBackquotes kind.name ++ " data as text or attribute."
  | .notIterable kind => "cannot iterate over " ++ inBackquotes kind.name ++ " data in a list."
  | .illegalName name => inBackquotes name ++ " is not a legal tag or attribute name."

/-- The data a reference leads to. Only an entry of a dict can be named; one that is there but none is
found like any other. -/
def Reference.resolve (place : Reference) (context : Data) : Except RenderError Data :=
  match place with
  | .data => .ok context
  | .field name =>
    match context.dict?.bind (Entries.find? name) with
    | some found => .ok found
    | none => .error (.unboundField name context.kind)

/-- Scalars show as they are and none shows as nothing. -/
def Data.scalar : Data → Except RenderError Scalar
  | .none => .ok .empty
  | .boolean value => .ok (.boolean value)
  | .number value => .ok (.number value)
  | .string text => .ok (.text text)
  | .list _ => .error (.notShowable .list)
  | .dict _ => .error (.notShowable .dict)

def Value.evaluate (value : Value) (context : Data) : Except RenderError Scalar :=
  match value with
  | .empty => .ok .empty
  | .constant text => .ok (.text text)
  | .reference place => do (← place.resolve context).scalar

def Reference.items (place : Reference) (context : Data) : Except RenderError (List Data) := do
  match ← place.resolve context with
  | .list items => .ok items
  | found => .error (.notIterable found.kind)

end ViewTree
