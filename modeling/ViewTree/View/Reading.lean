import ViewTree.Json.Reader.Tree
import ViewTree.Json.Reader.Typed
import ViewTree.View.Decoding
import ViewTree.View.Encoding

namespace ViewTree

namespace Reading

open Json (Reader)
open Json.Reader

def inside (depth : Nat) (reader : Nat → α) : Option α :=
  match depth with
  | 0 => none
  | depth + 1 => some (reader depth)

def referenceContent : Reference.Kind → Reader Reference
  | .field => fun text => do
    let (name, text) ← string text
    .ok (.field name, text)
  | .data => fun text => do
    let ((), text) ← null text
    .ok (.data, text)

def reference (depth : Nat) : Reader Reference :=
  tagged Reference.Kind.all Reference.Kind.name Reference.bare
    (inside depth fun _ => referenceContent)

def valueContent (depth : Nat) : Value.Kind → Reader Value
  | .reference => fun text => do
    let (place, text) ← reference depth text
    .ok (.reference place, text)
  | .empty => fun text => do
    let ((), text) ← null text
    .ok (.empty, text)
  | .constant => fun text => do
    let (shown, text) ← string text
    .ok (.constant shown, text)

def value (depth : Nat) : Reader Value :=
  tagged Value.Kind.all Value.Kind.name Value.bare (inside depth valueContent)

def pairItems (depth : Nat) : Reader (String × Value) := fun text => do
  let (name, text) ← requiredItem 0 "a tuple of size 2" string text
  let (shown, text) ← requiredItem 1 "a tuple of size 2" (value depth) text
  .ok ((name, shown), text)

def pair (depth : Nat) : Reader (String × Value) :=
  list "a tuple of size 2" (inside depth pairItems)

def attributes (depth : Nat) : Reader (List (String × Value)) :=
  list "a sequence" (inside depth fun depth => items (pair depth))

def complete (view : Except Json.Cause View) (text : List Char) :
    Except Json.Fault (View × List Char) :=
  match view with
  | .ok view => .ok (view, text)
  | .error cause => .error (.pending cause text)

def elementMember (depth : Nat) (parts : View.ElementParts) (name : String) :
    Reader View.ElementParts :=
  fun text => do
    if name = "tag" then
      let (tag, text) ← field name parts.tag string text
      .ok ({ parts with tag := some tag }, text)
    else if name = "attrs" then
      let (declared, text) ← field name parts.attributes (attributes depth) text
      .ok ({ parts with attributes := some declared }, text)
    else if name = "inner_text" then
      let (shown, text) ← field name parts.text (value depth) text
      .ok ({ parts with text := some shown }, text)
    else .ok (parts, ← unknownField text)

def elementMembers (depth : Nat) : Reader View := fun text => do
  let (parts, text) ← members (elementMember depth) .none text
  complete parts.view text

def elementWanted : String := "struct variant RenderingCode::HtmlElement"

def elementItems (depth : Nat) : Reader View := fun text => do
  let (tag, text) ← requiredItem 0 (elementWanted ++ " with 3 elements") string text
  let (declared, text) ← nextItem? false (attributes depth) text
  let (shown, text) ← nextItem? false (value depth) text
  complete (View.ElementParts.view ⟨some tag, declared, shown⟩) text

def listMember (item : Reader View) (depth : Nat) (parts : View.ListParts) (name : String) :
    Reader View.ListParts :=
  fun text => do
    if name = "numbered" then
      let (numbered, text) ← field name parts.numbered boolean text
      .ok ({ parts with numbered := some numbered }, text)
    else if name = "inner_data" then
      let (source, text) ← field name parts.source (reference depth) text
      .ok ({ parts with source := some source }, text)
    else if name = "item_code" then
      let (view, text) ← field name parts.item item text
      .ok ({ parts with item := some view }, text)
    else .ok (parts, ← unknownField text)

def listMembers (item : Reader View) (depth : Nat) : Reader View := fun text => do
  let (parts, text) ← members (listMember item depth) .none text
  complete parts.view text

def listWanted : String := "struct variant RenderingCode::HtmlList"

def listItems (item : Reader View) (depth : Nat) : Reader View := fun text => do
  let (numbered, text) ← nextItem? true boolean text
  let (source, text) ← requiredItem 1 (listWanted ++ " with 3 elements") (reference depth) text
  let (view, text) ← requiredItem 2 (listWanted ++ " with 3 elements") item text
  complete (View.ListParts.view ⟨numbered, some source, some view⟩) text

/-- Reads what stands beside the name of a view. `nested` is there if one more bracket may be opened, and
holds the depth inside that and a reader for views there. -/
def viewContent (nested : Option (Nat × Reader View)) : View.Kind → Reader View
  | .element =>
    fields elementWanted (nested.map fun (depth, _) => elementItems depth)
      (nested.map fun (depth, _) => elementMembers depth)
  | .list =>
    fields listWanted (nested.map fun (depth, item) => listItems item depth)
      (nested.map fun (depth, item) => listMembers item depth)
  | .sequence => fun text => do
    let (views, text) ← list "a sequence" (nested.map fun (_, item) => items item) text
    .ok (.sequence views, text)
  | .hole => fun text => do
    let ((), text) ← null text
    .ok (.hole, text)

def view : (depth : Nat) → Reader View
  | 0 => tagged View.Kind.all View.Kind.name View.bare none
  | 1 => tagged View.Kind.all View.Kind.name View.bare (some (viewContent none))
  | depth + 2 =>
    tagged View.Kind.all View.Kind.name View.bare (some (viewContent (some (depth, view depth))))

end Reading

def Reference.parse (text : String) : Except Json.Error Reference :=
  Json.Reader.whole (Reading.reference Json.depthLimit) text.toList

def Value.parse (text : String) : Except Json.Error Value :=
  Json.Reader.whole (Reading.value Json.depthLimit) text.toList

def View.parse (text : String) : Except Json.Error View :=
  Json.Reader.whole (Reading.view Json.depthLimit) text.toList

namespace Template

/-- Refuses an object that gives another version, or none that is a version at all. -/
def checkVersion : Json → Except LoadError Unit
  | .object members =>
    match Entries.find? "version" members with
    | none => .ok ()
    | some value =>
      match value.asWord with
      | .error cause => .error (.malformed cause.error)
      | .ok found =>
        if found = currentVersion then .ok ()
        else .error (.unsupportedVersion found currentVersion)
  | _ => .ok ()

def ofValue (value : Json) : Except LoadError Template := do
  checkVersion value
  (ofJson value).mapError fun cause => .malformed cause.error

def parse (text : String) : Except LoadError Template := do
  let value ← (Json.parse text).mapError .malformed
  ofValue value.canonical

end Template

end ViewTree
