namespace ViewTree

/-- A place in the data that is in scope: an entry of a dict, or all of the data. -/
inductive Reference where
  | field (name : String)
  | data
deriving DecidableEq

inductive Value where
  | reference (place : Reference)
  | empty
  | constant (text : String)
deriving DecidableEq

namespace Value

instance : Inhabited Value := ⟨empty⟩

def field (name : String) : Value := .reference (.field name)

def data : Value := .reference .data

def isEmpty : Value → Bool
  | .empty => true
  | _ => false

end Value

inductive View where
  | element (tag : String) (attributes : List (String × Value)) (text : Value)
  | list (numbered : Bool) (source : Reference) (item : View)
  | sequence (items : List View)
  | hole

namespace View

instance : Inhabited View := ⟨hole⟩

inductive Kind where
  | element
  | list
  | sequence
  | hole
deriving DecidableEq

def Kind.name : Kind → String
  | .element => "html_element"
  | .list => "html_list"
  | .sequence => "sequence"
  | .hole => "hole"

def Kind.all : List Kind := [.element, .list, .sequence, .hole]

def kind : View → Kind
  | .element .. => .element
  | .list .. => .list
  | .sequence _ => .sequence
  | .hole => .hole

def textElement (tag : String) (text : Value) : View := .element tag [] text

mutual

def holes : View → Nat
  | .element .. => 0
  | .list _ _ item => holes item
  | .sequence items => holesOf items
  | .hole => 1

def holesOf : List View → Nat
  | [] => 0
  | item :: items => holes item + holesOf items

end

def isComplete (view : View) : Bool := view.holes = 0

mutual

def decEq : (a b : View) → Decidable (a = b)
  | .element tag attributes text, .element tag' attributes' text' =>
    decidable_of_iff (tag = tag' ∧ attributes = attributes' ∧ text = text') (by simp)
  | .list numbered source item, .list numbered' source' item' =>
    match decEq item item' with
    | isTrue h => decidable_of_iff (numbered = numbered' ∧ source = source') (by simp [h])
    | isFalse h => isFalse (by simp [h])
  | .sequence items, .sequence items' =>
    match decEqItems items items' with
    | isTrue h => isTrue (by rw [h])
    | isFalse h => isFalse (by simp [h])
  | .hole, .hole => isTrue rfl
  | .element .., .list .. | .element .., .sequence _ | .element .., .hole
  | .list .., .element .. | .list .., .sequence _ | .list .., .hole
  | .sequence _, .element .. | .sequence _, .list .. | .sequence _, .hole
  | .hole, .element .. | .hole, .list .. | .hole, .sequence _ => isFalse nofun

def decEqItems : (a b : List View) → Decidable (a = b)
  | [], [] => isTrue rfl
  | a :: as, b :: bs =>
    match decEq a b, decEqItems as bs with
    | isTrue h, isTrue h' => isTrue (by rw [h, h'])
    | isFalse h, _ => isFalse (by simp [h])
    | _, isFalse h => isFalse (by simp [h])
  | [], _ :: _ | _ :: _, [] => isFalse nofun

end

instance : DecidableEq View := decEq

end View

/-- A view as it is stored, with the version of its encoding. -/
structure Template where
  version : UInt32
  code : View
deriving DecidableEq

namespace Template

/-- The version of the encoding that is written and understood here. -/
def currentVersion : UInt32 := 1

def ofView (view : View) : Template := ⟨currentVersion, view⟩

end Template

namespace View.Sample

/-- A heading, and a list of tasks whose item is still to be written. -/
def skeleton : View :=
  .sequence [
    textElement "h1" (.constant "TODO list"),
    .list false (.field "tasks") .hole]

def tasks : View :=
  .sequence [
    textElement "h1" (.constant "TODO list"),
    .list false (.field "tasks") (.sequence [
      .element "input"
        [("type", .constant "checkbox"), ("checked", .field "completed")] .empty,
      textElement "label" (.field "task")])]

end View.Sample

end ViewTree
