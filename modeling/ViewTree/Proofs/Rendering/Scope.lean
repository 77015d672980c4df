import ViewTree.Proofs.Outcome
import ViewTree.Rendering.Scope

namespace ViewTree.Reference

/-- The data that a reference leads to: all that is in scope, or the entry of a dict. -/
inductive Leads : Reference → Data → Data → Prop
  | data (context : Data) : Leads .data context context
  | field {name : String} {entries : List (String × Data)} {found : Data}
    (bound : Entries.find? name entries = some found) : Leads (.field name) (.dict entries) found

theorem resolve_eq_ok {place : Reference} {context found : Data} :
    place.resolve context = .ok found ↔ place.Leads context found := by
  constructor
  · intro resolved
    cases place with
    | data =>
      cases resolved
      exact .data context
    | field name =>
      cases context with
      | dict entries =>
        simp only [resolve, Data.dict?, Option.bind_some] at resolved
        split at resolved
        · rename_i bound
          cases resolved
          exact .field bound
        · cases resolved
      | _ => cases resolved
  · intro leads
    cases leads with
    | data => rfl
    | field bound => simp only [resolve, Data.dict?, Option.bind_some, bound]

theorem resolve_of_astray {name : String} {context : Data}
    (astray : ∀ found, ¬ (field name).Leads context found) :
    (field name).resolve context = .error (.unboundField name context.kind) := by
  simp only [resolve]
  split
  · rename_i found bound
    have resolved : (field name).resolve context = .ok found := by simp only [resolve, bound]
    exact absurd (resolve_eq_ok.1 resolved) (astray found)
  · rfl

theorem resolve_eq_error {place : Reference} {context : Data} {error : RenderError} :
    place.resolve context = .error error ↔ ∃ name, place = .field name ∧
      (∀ found, ¬ place.Leads context found) ∧ error = .unboundField name context.kind := by
  constructor
  · intro failed
    have astray : ∀ found, ¬ place.Leads context found := by
      intro found leads
      rw [resolve_eq_ok.2 leads] at failed
      cases failed
    cases place with
    | data => exact absurd (.data context) (astray context)
    | field name =>
      rw [resolve_of_astray astray] at failed
      exact ⟨name, rfl, astray, (Except.error.inj failed).symm⟩
  · rintro ⟨name, rfl, astray, rfl⟩
    exact resolve_of_astray astray

/-- The items of the list that a reference leads to, and no items if it leads to no list. -/
def listed (place : Reference) (context : Data) : List Data :=
  match place.resolve context with
  | .ok (.list items) => items
  | _ => []

theorem items_eq_ok {place : Reference} {context : Data} {items : List Data} :
    place.items context = .ok items ↔ place.Leads context (.list items) := by
  rw [Reference.items, bind_eq_ok, ← resolve_eq_ok]
  constructor
  · rintro ⟨found, resolved, taken⟩
    cases found with
    | list items =>
      cases taken
      exact resolved
    | _ => cases taken
  · intro resolved
    exact ⟨.list items, resolved, rfl⟩

theorem listed_of_leads {place : Reference} {context : Data} {items : List Data}
    (leads : place.Leads context (.list items)) : place.listed context = items := by
  rw [listed, resolve_eq_ok.2 leads]

end ViewTree.Reference
