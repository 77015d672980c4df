import ViewTree.Proofs.Data.Kinds
import ViewTree.Proofs.Json.Alone
import ViewTree.Proofs.Json.Parsing
import ViewTree.Proofs.Number.Literal

namespace ViewTree

namespace Data

mutual

def numbers : Data → List Number
  | .number value => [value]
  | .list items => numbersOf items
  | .dict entries => numbersIn entries
  | _ => []

def numbersOf : List Data → List Number
  | [] => []
  | item :: items => numbers item ++ numbersOf items

def numbersIn : List (String × Data) → List Number
  | [] => []
  | (_, value) :: entries => numbers value ++ numbersIn entries

end

mutual

/-- The same data, but for the order in which the entries of dicts stand. -/
inductive Reordered : Data → Data → Prop
  | none : Reordered .none .none
  | boolean (value : Bool) : Reordered (.boolean value) (.boolean value)
  | number (value : Number) : Reordered (.number value) (.number value)
  | string (text : String) : Reordered (.string text) (.string text)
  | list {items items' : List Data} (each : ReorderedItems items items') : Reordered (.list items) (.list items')
  | dict {entries entries' moved : List (String × Data)} (each : ReorderedEntries entries entries')
    (permuted : moved.Perm entries') : Reordered (.dict entries) (.dict moved)

inductive ReorderedItems : List Data → List Data → Prop
  | nil : ReorderedItems [] []
  | cons {item item' : Data} {items items' : List Data} (first : Reordered item item')
    (others : ReorderedItems items items') : ReorderedItems (item :: items) (item' :: items')

inductive ReorderedEntries : List (String × Data) → List (String × Data) → Prop
  | nil : ReorderedEntries [] []
  | cons {key : String} {value value' : Data} {entries entries' : List (String × Data)}
    (first : Reordered value value') (others : ReorderedEntries entries entries') :
    ReorderedEntries ((key, value) :: entries) ((key, value') :: entries')

end

theorem numbersIn_eq (entries : List (String × Data)) :
    numbersIn entries = entries.flatMap fun entry => entry.2.numbers := by
  induction entries with
  | nil => rfl
  | cons entry entries ih => rw [numbersIn, ih, List.flatMap_cons]

mutual

theorem Reordered.numbers_subset {data written : Data} (reordered : Reordered data written) :
    written.numbers ⊆ data.numbers := by
  match reordered with
  | .none | .boolean _ | .number _ | .string _ => exact List.Subset.refl _
  | .list each => exact each.numbers_subset
  | .dict each permuted =>
    have inside := each.numbers_subset
    rw [numbersIn_eq] at inside
    rw [numbers, numbersIn_eq]
    exact List.Subset.trans (permuted.flatMap_right _).subset inside

theorem ReorderedItems.numbers_subset {items items' : List Data} (reordered : ReorderedItems items items') :
    numbersOf items' ⊆ numbersOf items := by
  match reordered with
  | .nil => exact List.Subset.refl _
  | .cons first others =>
    refine List.append_subset.2 ⟨?_, ?_⟩
    · exact List.subset_append_of_subset_left _ first.numbers_subset
    · exact List.subset_append_of_subset_right _ others.numbers_subset

theorem ReorderedEntries.numbers_subset {entries entries' : List (String × Data)}
    (reordered : ReorderedEntries entries entries') : numbersIn entries' ⊆ numbersIn entries := by
  match reordered with
  | .nil => exact List.Subset.refl _
  | .cons first others =>
    refine List.append_subset.2 ⟨?_, ?_⟩
    · exact List.subset_append_of_subset_left _ first.numbers_subset
    · exact List.subset_append_of_subset_right _ others.numbers_subset

end

theorem ofJsonMembers_toJsonEntries (entries : List (String × Data)) :
    ofJsonMembers (toJsonEntries entries) = entries.map fun entry => (entry.1, ofJson entry.2.toJson) := by
  induction entries with
  | nil => rfl
  | cons entry entries ih => rw [toJsonEntries, ofJsonMembers, ih, List.map_cons]

mutual

theorem Reordered.ofJson_toJson {data written : Data} (reordered : Reordered data written)
    (valid : data.WellFormed) : ofJson written.toJson = data := by
  match reordered with
  | .none | .boolean _ | .number _ | .string _ => rfl
  | .list each => exact congrArg Data.list (each.ofJson_toJson valid)
  | .dict each permuted =>
    have restored := each.ofJson_toJson valid.2
    have members := permuted.map fun entry => (entry.1, ofJson entry.2.toJson)
    rw [restored, ← ofJsonMembers_toJsonEntries] at members
    exact congrArg Data.dict (Entries.sorted_perm valid.1 members)

theorem ReorderedItems.ofJson_toJson {items items' : List Data} (reordered : ReorderedItems items items')
    (valid : WellFormedItems items) : ofJsonItems (toJsonItems items') = items := by
  match reordered with
  | .nil => rfl
  | .cons first others =>
    rw [toJsonItems, ofJsonItems, first.ofJson_toJson valid.1, others.ofJson_toJson valid.2]

theorem ReorderedEntries.ofJson_toJson {entries entries' : List (String × Data)}
    (reordered : ReorderedEntries entries entries') (valid : WellFormedEntries entries) :
    entries'.map (fun entry => (entry.1, ofJson entry.2.toJson)) = entries := by
  match reordered with
  | .nil => rfl
  | .cons first others =>
    rw [List.map_cons, first.ofJson_toJson valid.1, others.ofJson_toJson valid.2]

end

mutual

theorem legible_toJson (data : Data) (each : ∀ number ∈ data.numbers, number.ReadsBack) : data.toJson.Legible := by
  cases data with
  | number value => exact each value List.mem_cons_self
  | list items => exact legible_toJsonItems items each
  | dict entries => exact legible_toJsonEntries entries each
  | _ => trivial

theorem legible_toJsonItems (items : List Data) (each : ∀ number ∈ numbersOf items, number.ReadsBack) :
    Json.LegibleItems (toJsonItems items) := by
  cases items with
  | nil => trivial
  | cons item items =>
    rw [numbersOf, List.forall_mem_append] at each
    exact ⟨legible_toJson item each.1, legible_toJsonItems items each.2⟩

theorem legible_toJsonEntries (entries : List (String × Data))
    (each : ∀ number ∈ numbersIn entries, number.ReadsBack) : Json.LegibleMembers (toJsonEntries entries) := by
  cases entries with
  | nil => trivial
  | cons entry entries =>
    rw [numbersIn, List.forall_mem_append] at each
    exact ⟨legible_toJson entry.2 each.1, legible_toJsonEntries entries each.2⟩

end

theorem load_number {stored : String} {number : Number}
    (loaded : (load stored).toOption.bind number? = some number) : load stored = .ok (.number number) := by
  cases outcome : load stored with
  | error error =>
    rw [outcome] at loaded
    cases loaded
  | ok data =>
    rw [outcome] at loaded
    cases data with
    | number value =>
      cases loaded
      rfl
    | _ => cases loaded

theorem readsBack_of_load {number : Number} (alone : load (text (.number number)) = .ok (.number number)) :
    number.ReadsBack := by
  obtain ⟨value, parsed, same⟩ := load_eq_ok.1 alone
  cases value with
  | number other =>
    cases same
    exact Number.readsBack_of_parse parsed
  | _ => cases same

theorem load_layout {data : Data} {value : Json} (legible : value.Legible) (restored : ofJson value = data)
    (layout : Json.Layout) :
    if value.depth ≤ Json.depthLimit then load (String.ofList (layout.text 0 value)) = .ok data
    else ∃ position, load (String.ofList (layout.text 0 value)) =
      .error (.malformed ⟨.malformed .tooDeep, position⟩) := by
  have parsed := Json.parse_text layout value legible
  by_cases fits : value.depth ≤ Json.depthLimit
  · rw [if_pos fits] at parsed ⊢
    exact load_eq_ok.2 ⟨value, parsed, restored⟩
  · rw [if_neg fits] at parsed ⊢
    obtain ⟨position, failed⟩ := parsed
    refine ⟨position, ?_⟩
    rw [load, parse, failed]
    rfl

/-- Data whose doubles are read back each by itself is loaded as it was from its text, whatever the order of
the entries there, if the text nests no deeper than may be read, and is refused otherwise. -/
theorem load_reordered {data written : Data} (valid : data.WellFormed) (reordered : Reordered data written)
    (doubles : ∀ negative magnitude, .float negative magnitude ∈ data.numbers →
      load (text (.number (.float negative magnitude))) = .ok (.number (.float negative magnitude))) :
    ∀ stored ∈ [written.text, written.toJson.indentedText],
      if written.toJson.depth ≤ Json.depthLimit then load stored = .ok data
      else ∃ position, load stored = .error (.malformed ⟨.malformed .tooDeep, position⟩) := by
  have each : ∀ number ∈ written.numbers, number.ReadsBack := by
    intro number member
    cases number with
    | integer value within => exact Number.integer_readsBack value within
    | float negative magnitude =>
      exact readsBack_of_load (doubles negative magnitude (reordered.numbers_subset member))
  have read := load_layout (written.legible_toJson each) (reordered.ofJson_toJson valid)
  intro stored member
  simp only [List.mem_cons, List.not_mem_nil, or_false] at member
  rcases member with rfl | rfl
  · rw [text, Json.compactText, Json.Layout.compact_eq 0]
    exact read .dense
  · rw [Json.indentedText, Json.Layout.indented_eq]
    exact read .wide

theorem load_reordered_rows :
    let quarter : Number := .float false ⟨Nat.pow 2 52, 1020, by decide, by decide, by decide⟩
    let greatest : Number := .integer 0xFFFFFFFFFFFFFFFF (by decide)
    let data : Data := .dict [("ratio", .number quarter),
      ("rows", .list [.dict [("id", .number greatest), ("note", .string "a\"b\n")], .none])]
    let written : Data := .dict [
      ("rows", .list [.dict [("note", .string "a\"b\n"), ("id", .number greatest)], .none]),
      ("ratio", .number quarter)]
    data.WellFormed ∧ Reordered data written ∧
      (∀ negative magnitude, .float negative magnitude ∈ data.numbers →
        load (text (.number (.float negative magnitude))) = .ok (.number (.float negative magnitude))) ∧
      load written.text = .ok data := by
  intro quarter greatest data written
  have valid : data.WellFormed := wellFormed_ofJson written.toJson
  have row : Reordered (.dict [("id", .number greatest), ("note", .string "a\"b\n")])
      (.dict [("note", .string "a\"b\n"), ("id", .number greatest)]) :=
    .dict (.cons (.number _) (.cons (.string _) .nil)) (.swap ..)
  have reordered : Reordered data written :=
    .dict (.cons (.number _) (.cons (.list (.cons row (.cons .none .nil))) .nil)) (.swap ..)
  have doubles : ∀ negative magnitude, .float negative magnitude ∈ data.numbers →
      load (text (.number (.float negative magnitude))) = .ok (.number (.float negative magnitude)) := by
    intro negative magnitude member
    rcases List.mem_cons.1 member with same | member
    · rw [same]
      exact load_number (by decide +kernel)
    · nomatch (List.mem_singleton.1 member : Number.float negative magnitude = .integer _ _)
  have read := load_reordered valid reordered doubles written.text List.mem_cons_self
  exact ⟨valid, reordered, doubles, (if_pos (by decide)).mp read⟩

end Data

end ViewTree
