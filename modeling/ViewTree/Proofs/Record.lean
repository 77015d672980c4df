import ViewTree.Entries
import ViewTree.Proofs.Outcome

namespace ViewTree.Entries

variable {α β σ : Type} {key : String}

/-- The value of the last entry with the key. -/
def last? (key : String) : List (String × β) → Option β
  | [] => none
  | (other, value) :: entries => (last? key entries).or (if key = other then some value else none)

theorem find?_sorted (key : String) (entries : List (String × β)) :
    find? key (sorted entries) = last? key entries := by
  -- Entries are set one by one, so what is found is found among those that are left or was there before.
  have found (rest before : List (String × β)) :
      find? key (rest.foldl (fun kept (key, value) => insert key value kept) before) =
        (last? key rest).or (find? key before) := by
    induction rest generalizing before with
    | nil => rfl
    | cons first rest ih =>
      obtain ⟨name, value⟩ := first
      rw [List.foldl_cons, ih, find?_insert, last?, Option.or_assoc]
      split <;> rfl
  exact (found entries []).trans (Option.or_none ..)

theorem last?_of_forall_ne {entries : List (String × β)} (absent : ∀ entry ∈ entries, entry.1 ≠ key) :
    last? key entries = none := by
  induction entries with
  | nil => rfl
  | cons first entries ih =>
    rw [List.forall_mem_cons] at absent
    rw [last?, ih absent.2, if_neg absent.1.symm]
    rfl

theorem mem_of_last? {value : β} {entries : List (String × β)} (found : last? key entries = some value) :
    (key, value) ∈ entries := by
  induction entries with
  | nil => cases found
  | cons first entries ih =>
    obtain ⟨name, held⟩ := first
    rw [last?, Option.or_eq_some_iff] at found
    rcases found with found | ⟨-, found⟩
    · exact List.mem_cons_of_mem _ (ih found)
    · split at found
      · rename_i same
        cases found
        rw [same]
        exact List.mem_cons_self
      · cases found

theorem mem_of_find? {value : β} {entries : List (String × β)} (found : find? key entries = some value) :
    (key, value) ∈ entries := by
  induction entries with
  | nil => cases found
  | cons first entries ih =>
    obtain ⟨name, held⟩ := first
    rw [find?] at found
    split at found
    · rename_i same
      cases found
      rw [same]
      exact List.mem_cons_self
    · exact List.mem_cons_of_mem _ (ih found)

theorem last?_of_mem {value : β} {entries : List (String × β)}
    (distinct : (entries.map Prod.fst).Nodup) (member : (key, value) ∈ entries) :
    last? key entries = some value := by
  induction entries with
  | nil => cases member
  | cons first entries ih =>
    rw [List.map_cons, List.nodup_cons] at distinct
    rw [last?]
    rcases List.mem_cons.1 member with rfl | member
    · have absent : last? key entries = none := by
        apply last?_of_forall_ne
        intro entry found same
        exact distinct.1 (List.mem_map.2 ⟨entry, found, same⟩)
      rw [absent, if_pos rfl]
      rfl
    · rw [ih distinct.2 member]
      rfl

theorem find?_eq_last? {entries : List (String × β)} (distinct : (entries.map Prod.fst).Nodup) :
    find? key entries = last? key entries := by
  induction entries with
  | nil => rfl
  | cons first entries ih =>
    obtain ⟨name, value⟩ := first
    rw [List.map_cons, List.nodup_cons] at distinct
    rw [find?, last?, ih distinct.2]
    by_cases same : key = name
    · have absent : last? key entries = none := by
        apply last?_of_forall_ne
        intro entry found equal
        exact distinct.1 (List.mem_map.2 ⟨entry, found, equal.trans same⟩)
      rw [if_pos same, absent, if_pos same]
      rfl
    · rw [if_neg same, if_neg same, Option.or_none]

theorem Sorted.nodup {entries : List (String × β)} (sorted : Sorted entries) :
    (entries.map Prod.fst).Nodup := by
  apply List.Pairwise.imp _ sorted
  intro before after earlier same
  exact String.lt_irrefl _ (same ▸ earlier)

/-- States that entries lead to, one step for each. -/
inductive Run (step : σ → String × β → σ → Prop) : σ → List (String × β) → σ → Prop
  | nil (state : σ) : Run step state [] state
  | cons {before state after : σ} {entry : String × β} {entries : List (String × β)}
    (first : step before entry state) (others : Run step state entries after) :
    Run step before (entry :: entries) after

variable {step : σ → String × β → σ → Prop}

/-- Where no key is repeated there is a run, if each entry can be taken that was not met before. -/
theorem Run.exists (ready : σ → String → Prop) {entries : List (String × β)}
    (total : ∀ entry ∈ entries, ∀ before, ready before entry.1 →
      ∃ after, step before entry after ∧ ∀ name, name ≠ entry.1 → ready before name → ready after name)
    (distinct : (entries.map Prod.fst).Nodup) {before : σ} (start : ∀ entry ∈ entries, ready before entry.1) :
    ∃ after, Run step before entries after := by
  induction entries generalizing before with
  | nil => exact ⟨before, .nil before⟩
  | cons entry entries ih =>
    rw [List.forall_mem_cons] at total start
    rw [List.map_cons, List.nodup_cons] at distinct
    obtain ⟨state, first, kept⟩ := total.1 before start.1
    have others : ∀ entry ∈ entries, ready state entry.1 := by
      intro other member
      refine kept other.1 ?_ (start.2 other member)
      intro same
      exact distinct.1 (List.mem_map.2 ⟨other, member, same⟩)
    obtain ⟨after, run⟩ := ih total.2 distinct.2 others
    exact ⟨after, .cons first run⟩

theorem Run.step_of_mem {before after : σ} {entries : List (String × β)} (run : Run step before entries after)
    {entry : String × β} (member : entry ∈ entries) : ∃ state next, step state entry next := by
  induction run with
  | nil => cases member
  | cons first _ ih =>
    rcases List.mem_cons.1 member with same | member
    · subst same
      exact ⟨_, _, first⟩
    · exact ih member

theorem Run.imp {step' : σ → String × β → σ → Prop} {before after : σ} {entries : List (String × β)}
    (run : Run step before entries after)
    (more : ∀ {before entry after}, step before entry after → step' before entry after) :
    Run step' before entries after := by
  induction run with
  | nil state => exact .nil state
  | cons first _ ih => exact .cons (more first) ih

/-- A part of the state that only entries with one key fill. -/
structure Slot (step : σ → String × β → σ → Prop) (key : String) (get : σ → Option α)
    (takes : β → α → Prop) : Prop where
  own : ∀ {before value after}, step before (key, value) after → ∃ taken, takes value taken ∧ get after = some taken
  other : ∀ {before name value after}, name ≠ key → step before (name, value) after → get after = get before

theorem Slot.last {get : σ → Option α} {takes : β → α → Prop} (slot : Slot step key get takes)
    {before after : σ} {entries : List (String × β)} (run : Run step before entries after) :
    match last? key entries with
    | none => get after = get before
    | some value => ∃ taken, takes value taken ∧ get after = some taken := by
  induction run with
  | nil state => rfl
  | @cons before state after entry entries first _ ih =>
    obtain ⟨name, value⟩ := entry
    rw [last?]
    cases later : last? key entries with
    | some value' =>
      rw [later] at ih
      exact ih
    | none =>
      rw [later] at ih
      by_cases same : key = name
      · subst same
        obtain ⟨taken, takes, filled⟩ := slot.own first
        rw [if_pos rfl]
        exact ⟨taken, takes, ih.trans filled⟩
      · rw [if_neg same]
        exact ih.trans (slot.other (Ne.symm same) first)

/-- What an entry that may be left out says. -/
def Optional (entries : List (String × β)) (key : String) (absent : Prop) (present : β → Prop) : Prop :=
  match find? key entries with
  | none => absent
  | some value => present value

theorem Optional.imp {entries : List (String × β)} {absent absent' : Prop} {present present' : β → Prop}
    (optional : Optional entries key absent present) (none : absent → absent')
    (some : ∀ value, present value → present' value) : Optional entries key absent' present' := by
  unfold Optional at optional ⊢
  cases found : find? key entries with
  | none =>
    rw [found] at optional
    exact none optional
  | some value =>
    rw [found] at optional
    exact some value optional

theorem Optional.of_mem {entries : List (String × β)} {absent : Prop} {present : β → Prop}
    (optional : Optional entries key absent present) (distinct : (entries.map Prod.fst).Nodup) {value : β}
    (member : (key, value) ∈ entries) : present value := by
  rw [Optional, find?_eq_last? distinct, last?_of_mem distinct member] at optional
  exact optional

/-- Where no key is repeated, an empty slot is filled by the entry with its key, if there is one. -/
theorem Slot.optional {get : σ → Option α} {takes : β → α → Prop} (slot : Slot step key get takes)
    {before after : σ} {entries : List (String × β)} (run : Run step before entries after)
    (distinct : (entries.map Prod.fst).Nodup) (empty : get before = none) :
    Optional entries key (get after = none)
      fun value => ∃ taken, takes value taken ∧ get after = some taken := by
  have filled := slot.last run
  rw [empty] at filled
  rw [Optional, find?_eq_last? distinct]
  exact filled

namespace Optional

variable {entries : List (String × β)} {takes : β → α → Prop} {slot : Option α}

theorem required {taken : α} (filled : Optional entries key (slot = none)
      fun value => ∃ taken, takes value taken ∧ slot = some taken) (given : slot = some taken) :
    ∃ value, find? key entries = some value ∧ takes value taken := by
  unfold Optional at filled
  cases found : find? key entries with
  | none =>
    rw [found, given] at filled
    cases filled
  | some value =>
    rw [found, given] at filled
    obtain ⟨other, takes, same⟩ := filled
    cases same
    exact ⟨value, rfl, takes⟩

theorem default (filled : Optional entries key (slot = none)
      fun value => ∃ taken, takes value taken ∧ slot = some taken) (default : α) :
    Optional entries key (slot.getD default = default) (takes · (slot.getD default)) := by
  apply filled.imp
  · intro empty
    rw [empty]
    rfl
  · rintro value ⟨taken, takes, given⟩
    rw [given]
    exact takes

theorem eq_some {value : β} {taken : α} (filled : Optional entries key (slot = none)
      fun value => ∃ other, (takes value other ∧ other = taken) ∧ slot = some other)
    (found : find? key entries = some value) : slot = some taken := by
  rw [Optional, found] at filled
  obtain ⟨other, ⟨-, same⟩, given⟩ := filled
  rw [given, same]

theorem getD_eq {taken default : α} {present : β → Prop} (filled : Optional entries key (slot = none)
      fun value => ∃ other, (takes value other ∧ other = taken) ∧ slot = some other)
    (optional : Optional entries key (taken = default) present) : slot.getD default = taken := by
  unfold Optional at filled optional
  cases found : find? key entries with
  | none =>
    rw [found] at filled optional
    rw [filled, optional]
    rfl
  | some value =>
    rw [found] at filled
    obtain ⟨other, ⟨-, same⟩, given⟩ := filled
    rw [given, same]
    rfl

end Optional

end ViewTree.Entries
