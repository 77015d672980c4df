import ViewTree.Proofs.Outcome
import ViewTree.View.Reading

namespace ViewTree

theorem Entries.find?_of_before {α : Type} {key : String} {entries : List (String × α)}
    (before : ∀ name ∈ entries.map Prod.fst, key < name) : find? key entries = none := by
  induction entries with
  | nil => rfl
  | cons entry entries ih =>
    rw [List.map_cons, List.forall_mem_cons] at before
    have differ : key ≠ entry.1 := by
      rintro rfl
      exact String.lt_irrefl _ before.1
    rw [find?, if_neg differ]
    exact ih before.2

namespace Template

theorem parts_version {members : List (String × Json)} {found result : Parts}
    (sorted : Entries.Sorted members) (read : parts members found = .ok result) :
    match Entries.find? "version" members with
    | none => result.version = found.version
    | some value => ∃ word, value.asWord = .ok word ∧ result.version = some word := by
  induction members generalizing found with
  | nil => cases read; rfl
  | cons member members ih =>
    obtain ⟨name, value⟩ := member
    obtain ⟨first, rest⟩ := List.pairwise_cons.1 sorted
    simp only [parts] at read
    by_cases version : name = "version"
    · subst version
      have absent := Entries.find?_of_before first
      rw [if_pos rfl] at read
      obtain ⟨word, decoded, read⟩ := bind_eq_ok.1 read
      have kept := ih rest read
      rw [absent] at kept
      rw [Entries.find?, if_pos rfl]
      exact ⟨word, decoded, kept⟩
    · rw [if_neg version] at read
      rw [Entries.find?, if_neg (Ne.symm version)]
      split at read
      · obtain ⟨view, _, read⟩ := bind_eq_ok.1 read
        have kept := ih rest read
        exact kept
      · exact ih rest read

theorem version_of_object {members : List (String × Json)} {template : Template}
    (sorted : Entries.Sorted members) (read : ofValue (.object members) = .ok template) :
    template.version = currentVersion := by
  obtain ⟨⟨⟩, checked, decoded⟩ := bind_eq_ok.1 read
  rw [mapError_eq_ok, ofJson] at decoded
  obtain ⟨found, fields, complete⟩ := bind_eq_ok.1 decoded
  obtain ⟨version, given, complete⟩ := bind_eq_ok.1 complete
  obtain ⟨code, _, complete⟩ := bind_eq_ok.1 complete
  cases complete
  have kept := parts_version sorted fields
  simp only [checkVersion] at checked
  cases written : Entries.find? "version" members with
  | none =>
    rw [written] at kept
    simp only [kept, Json.required] at given
    cases given
  | some value =>
    rw [written] at kept checked
    obtain ⟨word, decoded, kept⟩ := kept
    simp only [decoded] at checked
    simp only [kept, Json.required] at given
    cases given
    by_contra foreign
    rw [if_neg foreign] at checked
    cases checked

theorem asWord_canonical (value : Json) : value.canonical.asWord = value.asWord := by
  cases value <;> rfl

theorem asWord_eq_ok {value : Json} {word : UInt32} :
    value.asWord = .ok word ↔ ∃ within, value = .number (.integer word.toNat within) := by
  constructor
  · intro given
    match value with
    | .number (.integer value within) =>
      simp only [Json.asWord] at given
      split at given
      · rename_i bounds
        have read := congrArg UInt32.toNat (Except.ok.inj given)
        rw [UInt32.toNat_ofNat_of_lt' (by rw [UInt32.size]; omega)] at read
        have same : value = word.toNat := by omega
        subst same
        exact ⟨within, rfl⟩
      · cases given
    | .number (.float _ _) => cases given
    | .null | .boolean _ | .string _ | .list _ | .object _ => cases given
  · rintro ⟨within, rfl⟩
    have bounds : (0 : Int) ≤ word.toNat ∧ (word.toNat : Int) < 0x100000000 := by
      have := word.toNat_lt
      omega
    simp only [Json.asWord, if_pos bounds, Int.toNat_natCast, UInt32.ofNat_toNat]

/-- The templates of another version that are accepted are those written as a list of two, the version
before the view. -/
theorem foreign_version_iff (text : String) (template : Template) :
    parse text = .ok template ∧ template.version ≠ currentVersion ↔
      ∃ version code : Json, Json.parse text = .ok (.list [version, code]) ∧
        version.asWord = .ok template.version ∧ View.ofJson code.canonical = .ok template.code ∧
        template.version ≠ currentVersion := by
  constructor
  · rintro ⟨read, foreign⟩
    obtain ⟨value, parsed, taken⟩ := bind_eq_ok.1 read
    rw [mapError_eq_ok] at parsed
    cases value with
    | object members => exact absurd (version_of_object (Entries.sorted_sorted _) taken) foreign
    | list items =>
      obtain ⟨_, _, decoded⟩ := bind_eq_ok.1 taken
      rw [mapError_eq_ok] at decoded
      match items with
      | [] => cases decoded
      | [version] =>
        obtain ⟨_, _, short⟩ := bind_eq_ok.1 decoded
        cases short
      | [version, code] =>
        obtain ⟨word, given, decoded⟩ := bind_eq_ok.1 decoded
        obtain ⟨view, seen, made⟩ := bind_eq_ok.1 decoded
        cases made
        rw [asWord_canonical] at given
        exact ⟨version, code, parsed, given, seen, foreign⟩
      | _ :: _ :: _ :: _ =>
        obtain ⟨_, _, decoded⟩ := bind_eq_ok.1 decoded
        obtain ⟨_, _, long⟩ := bind_eq_ok.1 decoded
        cases long
    | _ => cases taken
  · rintro ⟨version, code, parsed, given, seen, foreign⟩
    refine ⟨bind_eq_ok.2 ⟨_, mapError_eq_ok.2 parsed, bind_eq_ok.2 ⟨(), rfl, ?_⟩⟩, foreign⟩
    rw [mapError_eq_ok]
    refine bind_eq_ok.2 ⟨template.version, ?_, bind_eq_ok.2 ⟨template.code, seen, rfl⟩⟩
    rw [asWord_canonical, given]

/-- A list is accepted whatever its version. -/
theorem parse_listed_seven :
    parse "[7,\"hole\"]" = .ok ⟨7, .hole⟩ ∧ (7 : UInt32) ≠ currentVersion := by
  constructor
  · decide +kernel
  · decide

end Template

end ViewTree
