import ViewTree.Data.Basic
import ViewTree.Json.Fault
import ViewTree.Json.Reader.Tree

namespace ViewTree.Data

mutual

def toJson : Data → Json
  | .none => .null
  | .boolean value => .boolean value
  | .number value => .number value
  | .string text => .string text
  | .list items => .list (toJsonItems items)
  | .dict entries => .object (toJsonEntries entries)

def toJsonItems : List Data → List Json
  | [] => []
  | item :: items => toJson item :: toJsonItems items

def toJsonEntries : List (String × Data) → List (String × Json)
  | [] => []
  | (key, value) :: entries => (key, toJson value) :: toJsonEntries entries

end

mutual

def ofJson : Json → Data
  | .null => .none
  | .boolean value => .boolean value
  | .number value => .number value
  | .string text => .string text
  | .list items => .list (ofJsonItems items)
  | .object members => .dict (Entries.sorted (ofJsonMembers members))

def ofJsonItems : List Json → List Data
  | [] => []
  | item :: items => ofJson item :: ofJsonItems items

def ofJsonMembers : List (String × Json) → List (String × Data)
  | [] => []
  | (key, value) :: members => (key, ofJson value) :: ofJsonMembers members

end

mutual

theorem wellFormed_ofJson (value : Json) : WellFormed (ofJson value) := by
  cases value with
  | list items => exact wellFormed_ofJsonItems items
  | object members =>
    exact ⟨Entries.sorted_sorted _, wellFormedEntries_sorted (wellFormed_ofJsonMembers members)⟩
  | _ => trivial

theorem wellFormed_ofJsonItems (items : List Json) : WellFormedItems (ofJsonItems items) := by
  cases items with
  | nil => trivial
  | cons item items => exact ⟨wellFormed_ofJson item, wellFormed_ofJsonItems items⟩

theorem wellFormed_ofJsonMembers (members : List (String × Json)) :
    WellFormedEntries (ofJsonMembers members) := by
  cases members with
  | nil => trivial
  | cons member members => exact ⟨wellFormed_ofJson member.2, wellFormed_ofJsonMembers members⟩

end

def parse (text : String) : Except Json.Error Data := ofJson <$> Json.parse text

def load (text : String) : Except LoadError Data := (parse text).mapError .malformed

def text (data : Data) : String := data.toJson.compactText

def ofNull? : Json → Option Data
  | .null => some .none
  | _ => Option.none

def ofBoolean? : Json → Option Data
  | .boolean value => some (.boolean value)
  | _ => Option.none

def ofNumber? : Json → Option Data
  | .number value => some (.number value)
  | _ => Option.none

def ofString? : Json → Option Data
  | .string text => some (.string text)
  | _ => Option.none

mutual

/-- The first kind of data that a value can be taken as, tried in the order none, boolean, number, string,
list, dict at every level. -/
def classify (value : Json) : Option Data :=
  ofNull? value <|> ofBoolean? value <|> ofNumber? value <|> ofString? value <|>
    (match value with
      | .list items => (classifyItems items).map .list
      | _ => Option.none) <|>
    (match value with
      | .object members => (classifyMembers members []).map .dict
      | _ => Option.none)

def classifyItems : List Json → Option (List Data)
  | [] => some []
  | item :: items => do
    let value ← classify item
    let values ← classifyItems items
    some (value :: values)

def classifyMembers : List (String × Json) → List (String × Data) → Option (List (String × Data))
  | [], entries => some entries
  | (key, value) :: members, entries => do
    classifyMembers members (Entries.insert key (← classify value) entries)

end

inductive DecodeError where
  | text (error : Json.Error)
  | noKind
deriving DecidableEq

def DecodeError.message : DecodeError → String
  | .text error => error.message
  | .noKind => "no kind of data"

def decode (text : String) : Except DecodeError Data := do
  let value ← (Json.parse text).mapError .text
  match classify value with
  | some data => .ok data
  | Option.none => .error .noKind

end ViewTree.Data
