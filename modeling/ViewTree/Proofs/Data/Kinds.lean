import ViewTree.Data.Stored
import ViewTree.Proofs.Json.Spelling
import ViewTree.Proofs.Sorting

namespace ViewTree.Data

theorem ofJsonMembers_eq_map (members : List (String × Json)) :
    ofJsonMembers members = members.map fun member => (member.1, ofJson member.2) := by
  induction members with
  | nil => rfl
  | cons member members ih => rw [ofJsonMembers, ih, List.map_cons]

mutual

theorem classify_eq (value : Json) : classify value = some (ofJson value) := by
  cases value with
  | list items =>
    rw [classify, classifyItems_eq items]
    rfl
  | object members =>
    rw [classify, classifyMembers_eq members []]
    rfl
  | _ => rfl

theorem classifyItems_eq (items : List Json) : classifyItems items = some (ofJsonItems items) := by
  cases items with
  | nil => rfl
  | cons item items =>
    rw [classifyItems, classify_eq item, classifyItems_eq items]
    rfl

theorem classifyMembers_eq (members : List (String × Json)) (entries : List (String × Data)) :
    classifyMembers members entries = some ((ofJsonMembers members).foldl
      (fun kept (key, value) => Entries.insert key value kept) entries) := by
  cases members with
  | nil => rfl
  | cons member members =>
    obtain ⟨key, value⟩ := member
    rw [classifyMembers, classify_eq value]
    exact classifyMembers_eq members (Entries.insert key (ofJson value) entries)

end

mutual

theorem ofJson_canonical (value : Json) : ofJson value.canonical = ofJson value := by
  cases value with
  | list items => exact congrArg Data.list (ofJsonItems_canonical items)
  | object members =>
    refine congrArg Data.dict (Entries.eq_of_find? (Entries.sorted_sorted _) (Entries.sorted_sorted _) ?_)
    intro key
    have distinct := (Entries.sorted_sorted (Json.canonicalMembers members)).nodup
    calc Entries.find? key (Entries.sorted (ofJsonMembers (Entries.sorted (Json.canonicalMembers members))))
      _ = (Entries.last? key (Entries.sorted (Json.canonicalMembers members))).map ofJson := by
        rw [Entries.find?_sorted, ofJsonMembers_eq_map, Entries.last?_map]
      _ = (Entries.last? key (Json.canonicalMembers members)).map ofJson := by
        rw [← Entries.find?_eq_last? distinct, Entries.find?_sorted]
      _ = Entries.find? key (Entries.sorted (ofJsonMembers (Json.canonicalMembers members))) := by
        rw [Entries.find?_sorted, ofJsonMembers_eq_map, Entries.last?_map]
      _ = Entries.find? key (Entries.sorted (ofJsonMembers members)) := by
        rw [ofJsonMembers_canonical members]
  | _ => rfl

theorem ofJsonItems_canonical (items : List Json) : ofJsonItems (Json.canonicalItems items) = ofJsonItems items := by
  cases items with
  | nil => rfl
  | cons item items =>
    rw [Json.canonicalItems, ofJsonItems, ofJsonItems, ofJson_canonical item, ofJsonItems_canonical items]

theorem ofJsonMembers_canonical (members : List (String × Json)) :
    ofJsonMembers (Json.canonicalMembers members) = ofJsonMembers members := by
  cases members with
  | nil => rfl
  | cons member members =>
    rw [Json.canonicalMembers, ofJsonMembers, ofJsonMembers, ofJson_canonical member.2,
      ofJsonMembers_canonical members]

end

theorem load_eq_ok {stored : String} {data : Data} :
    load stored = .ok data ↔ ∃ value, Json.parse stored = .ok value ∧ ofJson value = data := by
  rw [load, mapError_eq_ok]
  exact map_eq_ok

theorem decode_eq (stored : String) : decode stored = (parse stored).mapError .text := by
  rw [decode, parse]
  cases Json.parse stored with
  | error error => rfl
  | ok value =>
    simp only [Except.mapError, bind, Except.bind, classify_eq]
    rfl

/-- Whatever the text, trying the kinds of data ends as loading it does. Data is found in the texts that spell
a value which does not nest too deep, the last of repeated keys being the one that counts. -/
theorem decode_agrees (stored : String) :
    (∀ data, decode stored = .ok data ↔ load stored = .ok data) ∧
    (∀ error, decode stored = .error (.text error) ↔ load stored = .error (.malformed error)) ∧
    ∀ data, load stored = .ok data ↔ ∃ (written : Json.Written) (value : Json), written.Spells stored ∧
      written.depth ≤ Json.depthLimit ∧ written.value? = some value ∧ ofJson value.canonical = data := by
  refine ⟨?_, ?_, ?_⟩
  · intro data
    rw [decode_eq, load, mapError_eq_ok, mapError_eq_ok]
  · intro error
    rw [decode_eq, load]
    cases parse stored with
    | ok data => exact ⟨nofun, nofun⟩
    | error other => simp [Except.mapError]
  · intro data
    rw [load_eq_ok]
    simp only [Json.parse_iff_spells, ofJson_canonical]
    constructor
    · rintro ⟨value, ⟨written, spells, fits, means⟩, same⟩
      exact ⟨written, value, spells, fits, means, same⟩
    · rintro ⟨written, value, spells, fits, means, same⟩
      exact ⟨value, ⟨written, spells, fits, means⟩, same⟩

end ViewTree.Data
