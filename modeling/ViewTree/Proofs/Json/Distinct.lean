import ViewTree.Proofs.Json.Depth
import ViewTree.Proofs.Record

namespace ViewTree.Json

mutual

/-- No object repeats a key. -/
def Distinct : Json → Prop
  | .list items => DistinctItems items
  | .object members => (members.map Prod.fst).Nodup ∧ DistinctMembers members
  | _ => True

def DistinctItems : List Json → Prop
  | [] => True
  | item :: items => Distinct item ∧ DistinctItems items

def DistinctMembers : List (String × Json) → Prop
  | [] => True
  | (_, value) :: members => Distinct value ∧ DistinctMembers members

end

theorem distinctMembers_iff {members : List (String × Json)} :
    DistinctMembers members ↔ ∀ member ∈ members, member.2.Distinct := by
  induction members with
  | nil => exact ⟨fun _ => nofun, fun _ => trivial⟩
  | cons member members ih => rw [DistinctMembers, ih, List.forall_mem_cons]

mutual

theorem distinct_canonical (value : Json) : value.canonical.Distinct := by
  cases value with
  | list items => exact distinct_canonicalItems items
  | object members =>
    refine ⟨(Entries.sorted_sorted _).nodup, distinctMembers_iff.2 ?_⟩
    intro member found
    exact distinctMembers_iff.1 (distinct_canonicalMembers members) member (Entries.mem_sorted found)
  | _ => trivial

theorem distinct_canonicalItems (items : List Json) : DistinctItems (canonicalItems items) := by
  cases items with
  | nil => trivial
  | cons item items => exact ⟨distinct_canonical item, distinct_canonicalItems items⟩

theorem distinct_canonicalMembers (members : List (String × Json)) :
    DistinctMembers (canonicalMembers members) := by
  cases members with
  | nil => trivial
  | cons member members => exact ⟨distinct_canonical member.2, distinct_canonicalMembers members⟩

end

theorem last?_canonicalMembers (key : String) (members : List (String × Json)) :
    Entries.last? key (canonicalMembers members) = (Entries.last? key members).map canonical := by
  induction members with
  | nil => rfl
  | cons member members ih =>
    obtain ⟨name, value⟩ := member
    rw [canonicalMembers, Entries.last?, Entries.last?, ih]
    cases Entries.last? key members with
    | some later => rfl
    | none => split <;> rfl

theorem find?_canonicalMembers (key : String) (members : List (String × Json)) :
    Entries.find? key (Entries.sorted (canonicalMembers members)) = (Entries.last? key members).map canonical := by
  rw [Entries.find?_sorted, last?_canonicalMembers]

theorem canonical_eq_null {value : Json} (same : value.canonical = .null) : value = .null := by
  cases value <;> cases same
  rfl

theorem canonical_eq_boolean {value : Json} {flag : Bool} (same : value.canonical = .boolean flag) :
    value = .boolean flag := by
  cases value <;> cases same
  rfl

theorem canonical_eq_string {value : Json} {text : String} (same : value.canonical = .string text) :
    value = .string text := by
  cases value <;> cases same
  rfl

theorem canonical_eq_list {value : Json} {values : List Json} (same : value.canonical = .list values) :
    ∃ items, value = .list items ∧ canonicalItems items = values := by
  cases value with
  | list items => exact ⟨items, rfl, Json.list.inj same⟩
  | _ => cases same

theorem canonical_eq_object {value : Json} {members : List (String × Json)} (same : value.canonical = .object members) :
    ∃ entries, value = .object entries ∧ Entries.sorted (canonicalMembers entries) = members := by
  cases value with
  | object entries => exact ⟨entries, rfl, Json.object.inj same⟩
  | _ => cases same

theorem canonical_eq_single {value : Json} {key : String} {content : Json} (distinct : value.Distinct)
    (single : value.canonical = .object [(key, content)]) :
    ∃ inner, value = .object [(key, inner)] ∧ inner.canonical = content := by
  cases value with
  | object members =>
    rw [canonical, Json.object.injEq] at single
    have looked (name : String) :
        Entries.find? name [(key, content)] = (Entries.last? name members).map canonical := by
      rw [← single, find?_canonicalMembers]
    have keys : ∀ member ∈ members, member.1 = key := by
      rintro ⟨name, value⟩ member
      have found := looked name
      rw [Entries.last?_of_mem distinct.1 member] at found
      by_contra differ
      simp [Entries.find?, differ] at found
    cases members with
    | nil =>
      have found := looked key
      simp [Entries.find?, Entries.last?] at found
    | cons first others =>
      rw [List.forall_mem_cons] at keys
      obtain ⟨name, inner⟩ := first
      obtain ⟨rfl, keys⟩ := keys
      cases others with
      | nil =>
        have found := looked name
        simp only [Entries.find?, Entries.last?, if_true, Option.none_or, Option.map_some,
          Option.some.injEq] at found
        exact ⟨inner, rfl, found.symm⟩
      | cons second others =>
        have repeated : second.1 = name := keys second List.mem_cons_self
        have unique := (List.nodup_cons.1 distinct.1).1
        exact absurd (List.mem_cons.2 (.inl repeated.symm)) unique
  | _ => cases single

end ViewTree.Json
