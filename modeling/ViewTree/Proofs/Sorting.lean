import Mathlib.Data.List.Nodup
import ViewTree.Proofs.Record

namespace ViewTree.Entries

variable {α β : Type} {entries moved : List (String × α)}

theorem mem_iff_find? (distinct : (entries.map Prod.fst).Nodup) {entry : String × α} :
    entry ∈ entries ↔ find? entry.1 entries = some entry.2 := by
  constructor
  · intro member
    rw [find?_eq_last? distinct]
    exact last?_of_mem distinct member
  · exact mem_of_find?

theorem eq_of_find? {left right : List (String × α)} (first : Sorted left) (second : Sorted right)
    (same : ∀ key, find? key left = find? key right) : left = right := by
  have moved : left.Perm right := by
    rw [List.perm_ext_iff_of_nodup (List.Nodup.of_map _ first.nodup) (List.Nodup.of_map _ second.nodup)]
    intro entry
    rw [mem_iff_find? first.nodup, mem_iff_find? second.nodup, same]
  have once : ∀ a b, a ∈ left → b ∈ right → a.1 < b.1 → b.1 < a.1 → a = b :=
    fun a _ _ _ less greater => absurd (String.lt_trans less greater) (String.lt_irrefl a.1)
  exact moved.eq_of_pairwise once (List.pairwise_map.1 first) (List.pairwise_map.1 second)

theorem last?_perm (distinct : (entries.map Prod.fst).Nodup) (permuted : moved.Perm entries) (key : String) :
    last? key moved = last? key entries := by
  have distinct' : (moved.map Prod.fst).Nodup := (permuted.map Prod.fst).nodup_iff.2 distinct
  apply Option.ext
  intro value
  constructor
  · intro found
    exact last?_of_mem distinct (permuted.mem_iff.1 (mem_of_last? found))
  · intro found
    exact last?_of_mem distinct' (permuted.mem_iff.2 (mem_of_last? found))

theorem sorted_perm (inOrder : Sorted entries) (permuted : moved.Perm entries) : sorted moved = entries := by
  apply eq_of_find? (sorted_sorted moved) inOrder
  intro key
  rw [find?_sorted, last?_perm inOrder.nodup permuted, find?_eq_last? inOrder.nodup]

theorem last?_map (f : α → β) (key : String) (entries : List (String × α)) :
    last? key (entries.map fun entry => (entry.1, f entry.2)) = (last? key entries).map f := by
  induction entries with
  | nil => rfl
  | cons entry entries ih =>
    rw [List.map_cons, last?, last?, ih]
    cases last? key entries with
    | some value => rfl
    | none =>
      simp only [Option.map_none, Option.none_or]
      split <;> rfl

end ViewTree.Entries
