import ViewTree.Proofs.Rendering.Scope
import ViewTree.Proofs.Rendering.Steps

namespace ViewTree

namespace Data

/-- Data with further entries in its dicts, at any depth. Scalars and the lengths of lists stay as they are,
and so do the entries that were there, but that what they hold may be extended as well. -/
inductive Extends : Data → Data → Prop
  | none : Extends .none .none
  | boolean (value : Bool) : Extends (.boolean value) (.boolean value)
  | number (value : Number) : Extends (.number value) (.number value)
  | string (text : String) : Extends (.string text) (.string text)
  | list {items items' : List Data} (each : List.Forall₂ Extends items items') :
    Extends (.list items) (.list items')
  | dict {entries entries' : List (String × Data)}
    (keys : ∀ key, (Entries.find? key entries).isSome → (Entries.find? key entries').isSome)
    (values : ∀ key value value', Entries.find? key entries = some value →
      Entries.find? key entries' = some value' → Extends value value') :
    Extends (.dict entries) (.dict entries')

mutual

theorem extends_refl (data : Data) : data.Extends data := by
  cases data with
  | none => exact .none
  | boolean value => exact .boolean value
  | number value => exact .number value
  | string text => exact .string text
  | list items => exact .list (extends_refl_items items)
  | dict entries =>
    refine .dict (fun _ bound => bound) ?_
    intro key value value' found found'
    rw [found] at found'
    cases found'
    exact extends_refl_entry entries found

theorem extends_refl_items (items : List Data) : List.Forall₂ Extends items items := by
  cases items with
  | nil => exact .nil
  | cons item items => exact .cons (extends_refl item) (extends_refl_items items)

theorem extends_refl_entry (entries : List (String × Data)) {key : String} {value : Data}
    (found : Entries.find? key entries = some value) : value.Extends value := by
  cases entries with
  | nil => cases found
  | cons entry entries =>
    rw [Entries.find?] at found
    split at found
    · cases found
      exact extends_refl entry.2
    · exact extends_refl_entry entries found

end

theorem extends_insert {key : String} {entries : List (String × Data)}
    (fresh : Entries.find? key entries = Option.none) (added : Data) :
    (dict entries).Extends (.dict (Entries.insert key added entries)) := by
  have kept : ∀ name value, Entries.find? name entries = some value →
      Entries.find? name (Entries.insert key added entries) = some value := by
    intro name value found
    have other : name ≠ key := by
      rintro rfl
      rw [fresh] at found
      cases found
    rw [Entries.find?_insert_other other, found]
  refine .dict ?_ ?_
  · intro name bound
    obtain ⟨value, found⟩ := Option.isSome_iff_exists.1 bound
    rw [kept name value found]
    rfl
  · intro name value value' found found'
    rw [kept name value found] at found'
    cases found'
    exact extends_refl value

theorem extends_cons (key : String) {value value' : Data} {entries entries' : List (String × Data)}
    (first : value.Extends value') (others : (dict entries).Extends (.dict entries')) :
    (dict ((key, value) :: entries)).Extends (.dict ((key, value') :: entries')) := by
  cases others with
  | dict keys values =>
    refine .dict ?_ ?_
    · intro name
      simp only [Entries.find?]
      split
      · exact fun _ => rfl
      · exact keys name
    · intro name held held' found found'
      simp only [Entries.find?] at found found'
      split at found
      · rename_i here
        rw [if_pos here] at found'
        cases found
        cases found'
        exact first
      · rename_i elsewhere
        rw [if_neg elsewhere] at found'
        exact values name held held' found found'

end Data

open Data (Extends)

theorem Reference.resolve_persists (place : Reference) {first second : Data} (more : first.Extends second) :
    Persists Extends (place.resolve first) (place.resolve second) := by
  intro found resolved
  cases resolve_eq_ok.1 resolved with
  | data => exact ⟨second, rfl, more⟩
  | @field name entries _ bound =>
    cases more with
    | @dict _ entries' keys values =>
      have key := keys name
      rw [bound] at key
      obtain ⟨found', bound'⟩ := Option.isSome_iff_exists.1 (key rfl)
      exact ⟨found', resolve_eq_ok.2 (.field bound'), values name found found' bound bound'⟩

theorem Data.scalar_persists {first second : Data} (more : first.Extends second) :
    Persists Eq first.scalar second.scalar := by
  intro shown shows
  cases more with
  | list | dict => cases shows
  | _ => exact ⟨shown, shows, rfl⟩

theorem Value.evaluate_persists (value : Value) {first second : Data} (more : first.Extends second) :
    Persists Eq (value.evaluate first) (value.evaluate second) := by
  cases value with
  | reference place => exact (place.resolve_persists more).bind fun _ _ => Data.scalar_persists
  | _ => exact Persists.refl _

theorem Reference.items_persists (place : Reference) {first second : Data} (more : first.Extends second) :
    Persists (List.Forall₂ Extends) (place.items first) (place.items second) := by
  apply (place.resolve_persists more).bind
  intro found found' more
  cases more with
  | list each => exact Persists.ok each
  | _ =>
    intro items taken
    cases taken

namespace View

theorem attributeValues_persists (attributes : List (String × Value)) {first second : Data}
    (more : first.Extends second) :
    Persists Eq (attributeValues attributes first) (attributeValues attributes second) := by
  induction attributes with
  | nil => exact Persists.refl _
  | cons declared attributes ih =>
    obtain ⟨name, value⟩ := declared
    rw [attributeValues_cons, attributeValues_cons]
    apply (value.evaluate_persists more).bind
    rintro shown _ rfl
    apply ih.bind
    rintro rest _ rfl
    exact Persists.refl _

mutual

theorem render_persists (view : View) {first second : Data} (more : first.Extends second) :
    Persists Eq (view.render first) (view.render second) := by
  cases view with
  | element tag attributes text =>
    rw [render_element, render_element]
    apply (attributeValues_persists attributes more).bind
    rintro values _ rfl
    apply (text.evaluate_persists more).bind
    rintro shown _ rfl
    exact Persists.refl _
  | list numbered source item =>
    rw [render_list, render_list]
    apply (source.items_persists more).bind
    intro items items' each
    apply (renderEach_persists (fun _ _ more => render_persists item more)
      (fun _ _ position same => congrArg (listItem · position) same) each 0).bind
    intro children children' same
    rw [List.forall₂_eq_eq_eq] at same
    rw [same]
    exact Persists.refl _
  | sequence items =>
    rw [render_sequence, render_sequence]
    exact (renderItems_persists items more).map fun _ _ same => congrArg Node.fragment same
  | hole => exact Persists.refl _

theorem renderItems_persists (items : List View) {first second : Data} (more : first.Extends second) :
    Persists Eq (renderItems items first) (renderItems items second) := by
  cases items with
  | nil => exact Persists.refl _
  | cons item items =>
    rw [renderItems_cons, renderItems_cons]
    apply (render_persists item more).bind
    rintro node _ rfl
    apply (renderItems_persists items more).bind
    rintro rest _ rfl
    exact Persists.refl _

end

/-- More data changes nothing in a page that renders, and does not keep it from rendering. -/
theorem render_extends (view : View) {context more : Data} (extended : context.Extends more) {node : Node}
    (rendered : view.render context = .ok node) : view.render more = .ok node := by
  obtain ⟨_, again, rfl⟩ := view.render_persists extended node rendered
  exact again

theorem render_extends_tasks :
    let view : View := .sequence [.textElement "h1" (.field "head"),
      .list true (.field "rows") (.element "li" [("id", .field "task")] .empty)]
    let context : Data := .dict [("head", .string "Tasks"), ("rows", .list [.dict [("task", .string "milk")]])]
    let more : Data := .dict [("head", .string "Tasks"),
      ("rows", .list [.dict [("head", .none), ("task", .string "milk")]]), ("task", .list [.dict []])]
    let node : Node := .fragment [.element ⟨"h1", [], .text "Tasks", none⟩ [],
      .element (Head.ofTag "ol") [.element ⟨"li", [("id", .text "milk")], .empty, some 0⟩ []]]
    context.Extends more ∧ view.render context = .ok node ∧ view.render more = .ok node := by
  intro view context more node
  have row : Extends (.dict [("task", .string "milk")]) (.dict [("head", .none), ("task", .string "milk")]) :=
    @Data.extends_insert "head" [("task", .string "milk")] rfl .none
  have rows : Extends (.list [.dict [("task", .string "milk")]])
      (.list [.dict [("head", .none), ("task", .string "milk")]]) := .list (.cons row .nil)
  have extended : context.Extends more := by
    refine Data.extends_cons "head" (.string "Tasks") (Data.extends_cons "rows" rows ?_)
    exact @Data.extends_insert "task" [] rfl (.list [.dict []])
  have rendered : view.render context = .ok node := rfl
  exact ⟨extended, rendered, render_extends view extended rendered⟩

end View

end ViewTree
