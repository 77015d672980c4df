import ViewTree.Json.Basic

namespace ViewTree

inductive Data where
  | none
  | boolean (value : Bool)
  | number (value : Number)
  | string (text : String)
  | list (items : List Data)
  | dict (entries : List (String × Data))

namespace Data

instance : Inhabited Data := ⟨none⟩

inductive Kind where
  | none
  | boolean
  | number
  | string
  | list
  | dict
deriving DecidableEq

def Kind.name : Kind → String
  | .none => "none"
  | .boolean => "boolean"
  | .number => "number"
  | .string => "string"
  | .list => "list"
  | .dict => "dict"

def kind : Data → Kind
  | .none => .none
  | .boolean _ => .boolean
  | .number _ => .number
  | .string _ => .string
  | .list _ => .list
  | .dict _ => .dict

def isNone : Data → Bool
  | .none => true
  | _ => false

def string? : Data → Option String
  | .string text => some text
  | _ => Option.none

def number? : Data → Option Number
  | .number value => some value
  | _ => Option.none

def boolean? : Data → Option Bool
  | .boolean value => some value
  | _ => Option.none

def list? : Data → Option (List Data)
  | .list items => some items
  | _ => Option.none

def dict? : Data → Option (List (String × Data))
  | .dict entries => some entries
  | _ => Option.none

def ofInt64 (value : Int64) : Data := .number (.ofInt64 value)

def ofUInt64 (value : UInt64) : Data := .number (.ofUInt64 value)

/-- The double with the given bits; what is no number is no data. -/
def ofBits (bits : Nat) : Data :=
  match Number.ofBits bits with
  | some value => .number value
  | Option.none => .none

mutual

def equal : Data → Data → Bool
  | .none, .none => true
  | .boolean a, .boolean b => a = b
  | .number a, .number b => a.equal b
  | .string a, .string b => a = b
  | .list a, .list b => equalItems a b
  | .dict a, .dict b => equalEntries a b
  | _, _ => false

def equalItems : List Data → List Data → Bool
  | [], [] => true
  | a :: as, b :: bs => equal a b && equalItems as bs
  | _, _ => false

def equalEntries : List (String × Data) → List (String × Data) → Bool
  | [], [] => true
  | (k, a) :: as, (l, b) :: bs => k = l && equal a b && equalEntries as bs
  | _, _ => false

end

mutual

/-- The entries of every dict are in the order of their keys, and no key is repeated. -/
def WellFormed : Data → Prop
  | .list items => WellFormedItems items
  | .dict entries => Entries.Sorted entries ∧ WellFormedEntries entries
  | _ => True

def WellFormedItems : List Data → Prop
  | [] => True
  | item :: items => WellFormed item ∧ WellFormedItems items

def WellFormedEntries : List (String × Data) → Prop
  | [] => True
  | (_, value) :: entries => WellFormed value ∧ WellFormedEntries entries

end

theorem wellFormedEntries_insert {key : String} {value : Data} {entries : List (String × Data)}
    (hv : WellFormed value) (he : WellFormedEntries entries) :
    WellFormedEntries (Entries.insert key value entries) := by
  induction entries with
  | nil => exact ⟨hv, trivial⟩
  | cons entry entries ih =>
    simp only [WellFormedEntries] at he
    simp only [Entries.insert]
    split
    · exact ⟨hv, he.2⟩
    · split
      · exact ⟨hv, he⟩
      · exact ⟨he.1, ih he.2⟩

theorem wellFormedEntries_sorted {entries : List (String × Data)} (he : WellFormedEntries entries) :
    WellFormedEntries (Entries.sorted entries) := by
  have start : WellFormedEntries [] := trivial
  unfold Entries.sorted
  generalize ([] : List (String × Data)) = kept at start
  induction entries generalizing kept with
  | nil => exact start
  | cons entry entries ih =>
    simp only [WellFormedEntries] at he
    exact ih he.2 _ (wellFormedEntries_insert he.1 start)

end Data

end ViewTree
