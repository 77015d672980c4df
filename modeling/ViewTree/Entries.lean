namespace ViewTree.Entries

def insert (key : String) (value : α) : List (String × α) → List (String × α)
  | [] => [(key, value)]
  | (other, held) :: entries =>
    if key = other then (key, value) :: entries
    else if key < other then (key, value) :: (other, held) :: entries
    else (other, held) :: insert key value entries

/-- The entries sorted, the last of those with one key alone kept. -/
def sorted (entries : List (String × α)) : List (String × α) :=
  entries.foldl (fun kept (key, value) => insert key value kept) []

def find? (key : String) : List (String × α) → Option α
  | [] => none
  | (other, value) :: entries => if key = other then some value else find? key entries

def Sorted (entries : List (String × α)) : Prop := (entries.map Prod.fst).Pairwise (· < ·)

theorem find?_insert_self (key : String) (value : α) (entries : List (String × α)) :
    find? key (insert key value entries) = some value := by
  induction entries with
  | nil => simp [insert, find?]
  | cons entry entries ih =>
    obtain ⟨other, held⟩ := entry
    by_cases same : key = other
    · simp [insert, find?, same]
    · by_cases before : key < other <;> simp [insert, find?, same, before, ih]

theorem find?_insert_other {key name : String} (differ : name ≠ key) (value : α)
    (entries : List (String × α)) :
    find? name (insert key value entries) = find? name entries := by
  induction entries with
  | nil => simp [insert, find?, differ]
  | cons entry entries ih =>
    obtain ⟨other, held⟩ := entry
    by_cases same : key = other
    · subst same
      simp [insert, find?, differ]
    · by_cases before : key < other <;> simp [insert, find?, differ, same, before, ih]

theorem find?_insert (key name : String) (value : α) (entries : List (String × α)) :
    find? name (insert key value entries) =
      if name = key then some value else find? name entries := by
  by_cases same : name = key
  · subst same
    simp [find?_insert_self]
  · simp [same, find?_insert_other same]

theorem mem_keys_insert {key name : String} {value : α} {entries : List (String × α)}
    (member : name ∈ (insert key value entries).map Prod.fst) :
    name = key ∨ name ∈ entries.map Prod.fst := by
  induction entries with
  | nil => simpa [insert] using member
  | cons entry entries ih =>
    obtain ⟨other, held⟩ := entry
    simp only [insert] at member
    split at member
    · rename_i same
      simp only [List.map_cons, List.mem_cons] at member ⊢
      rcases member with member | member
      · exact .inl member
      · exact .inr (.inr member)
    · split at member
      · simpa using member
      · simp only [List.map_cons, List.mem_cons] at member ⊢
        rcases member with member | member
        · exact .inr (.inl member)
        · rcases ih member with found | found
          · exact .inl found
          · exact .inr (.inr found)

theorem insert_sorted (key : String) (value : α) {entries : List (String × α)}
    (sorted : Sorted entries) : Sorted (insert key value entries) := by
  induction entries with
  | nil => simp [insert, Sorted]
  | cons entry entries ih =>
    obtain ⟨other, held⟩ := entry
    have rest : Sorted entries := (List.pairwise_cons.1 sorted).2
    have first : ∀ name ∈ entries.map Prod.fst, other < name := (List.pairwise_cons.1 sorted).1
    simp only [insert]
    split
    · rename_i same
      subst same
      exact sorted
    · split
      · rename_i before
        refine List.pairwise_cons.2 ⟨?_, sorted⟩
        intro name member
        rcases List.mem_cons.1 member with rfl | member
        · exact before
        · exact String.lt_trans before (first name member)
      · rename_i differ notBefore
        refine List.pairwise_cons.2 ⟨?_, ih rest⟩
        intro name member
        rcases mem_keys_insert member with rfl | member
        · exact String.not_le.1 fun le => differ (String.le_antisymm le (String.not_lt.1 notBefore))
        · exact first name member

theorem sorted_sorted (entries : List (String × α)) : Sorted (sorted entries) := by
  have start : Sorted ([] : List (String × α)) := by simp [Sorted]
  unfold sorted
  generalize ([] : List (String × α)) = kept at start
  induction entries generalizing kept with
  | nil => exact start
  | cons entry entries ih => exact ih _ (insert_sorted entry.1 entry.2 start)

end ViewTree.Entries
