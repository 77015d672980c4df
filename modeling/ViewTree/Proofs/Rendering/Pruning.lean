import ViewTree.Proofs.Rendering.Relations

namespace ViewTree

namespace Data

mutual

/-- Drops the entries with other keys from every dict, at every depth. -/
def prune (names : List String) : Data → Data
  | .list items => .list (pruneItems names items)
  | .dict entries => .dict (pruneEntries names entries)
  | data => data

def pruneItems (names : List String) : List Data → List Data
  | [] => []
  | item :: items => prune names item :: pruneItems names items

def pruneEntries (names : List String) : List (String × Data) → List (String × Data)
  | [] => []
  | (key, value) :: entries =>
    if key ∈ names then (key, prune names value) :: pruneEntries names entries
    else pruneEntries names entries

end

theorem scalar_prune (names : List String) (data : Data) : (data.prune names).scalar = data.scalar := by
  cases data <;> rfl

theorem pruneItems_pruned (names : List String) (items : List Data) :
    List.Forall₂ (fun item item' => item' = item.prune names) items (pruneItems names items) := by
  induction items with
  | nil => exact .nil
  | cons item items ih => exact .cons rfl ih

theorem find?_pruneEntries {names : List String} {name : String} (named : name ∈ names)
    (entries : List (String × Data)) :
    Entries.find? name (pruneEntries names entries) = (Entries.find? name entries).map (prune names) := by
  induction entries with
  | nil => rfl
  | cons entry entries ih =>
    obtain ⟨key, value⟩ := entry
    rw [pruneEntries]
    by_cases same : name = key
    · subst same
      rw [if_pos named, Entries.find?, Entries.find?, if_pos rfl, if_pos rfl]
      rfl
    · rw [Entries.find?, if_neg same, ← ih]
      split
      · rw [Entries.find?, if_neg same]
      · rfl

theorem resolve_prune {names : List String} {name : String} (named : name ∈ names) (context : Data) :
    Agree (fun found found' => found' = found.prune names) ((Reference.field name).resolve context)
      ((Reference.field name).resolve (context.prune names)) := by
  cases context with
  | dict entries =>
    simp only [Reference.resolve, prune, dict?, Option.bind_some, find?_pruneEntries named]
    cases Entries.find? name entries <;> rfl
  | _ => rfl

theorem items_prune (names : List String) (context : Data) :
    Agree (List.Forall₂ fun item item' => item' = item.prune names) (Reference.data.items context)
      (Reference.data.items (context.prune names)) := by
  cases context with
  | list items => exact pruneItems_pruned names items
  | _ => rfl

end Data

theorem Kept.prune (names : List String) :
    Kept names (fun context context' => context' = context.prune names) Eq Eq where
  field := by
    intro first second related name named
    subst related
    exact Data.resolve_prune named first
  items := by
    intro first second related
    subst related
    exact Data.items_prune names first
  shown := by
    intro first second related
    rw [related, Data.scalar_prune]
    exact Agree.refl _
  empty := rfl
  constant _ := rfl
  element := by
    intro tag attributes attributes' text text' same inside
    have pairs : attributes = attributes' := by
      rw [← List.forall₂_eq_eq_eq]
      exact same.imp fun a b parts => Prod.ext parts.1 parts.2
    rw [pairs, inside]
  list := by
    intro tag children children' same
    rw [List.forall₂_eq_eq_eq] at same
    rw [same]
  item := by
    intro first second position same
    rw [same]
  row := by
    intro first second same
    rw [List.forall₂_eq_eq_eq, same]
  fragment := by
    intro items items' same
    rw [List.forall₂_eq_eq_eq] at same
    rw [same]
  hole := rfl

/-- Entries that a view does not name have no part in what it renders to, nor in how it fails. -/
theorem View.render_prune (view : View) (context : Data) :
    view.render (context.prune view.fields) = view.render context :=
  (render_kept (Kept.prune view.fields) view (List.Subset.refl _) rfl).eq.symm

end ViewTree
