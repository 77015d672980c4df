import ViewTree.Proofs.Markup.Refusal
import ViewTree.Proofs.Rendering.Names

namespace ViewTree

namespace View

/-- A view some of whose parts, at any depth, are still holes. -/
inductive Sketches : View → View → Prop
  | hole (view : View) : Sketches .hole view
  | element (tag : String) (attributes : List (String × Value)) (text : Value) :
    Sketches (.element tag attributes text) (.element tag attributes text)
  | list (numbered : Bool) (source : Reference) {sketch item : View} (inside : Sketches sketch item) :
    Sketches (.list numbered source sketch) (.list numbered source item)
  | sequence {sketches items : List View} (each : List.Forall₂ Sketches sketches items) :
    Sketches (.sequence sketches) (.sequence items)

open Markup (namesOf namesOf_append namesOf_nodes)

/-- Apart from the tags of lists and of their items, the second node has no names that the first has not. An item
that is left open is put into an element of its own, so that there may be more of those tags. -/
def AddsNoNames (node node' : Node) : Prop := Markup.names node' ⊆ listNames ++ Markup.names node

theorem AddsNoNames.refl (node : Node) : AddsNoNames node node := List.subset_append_right _ _

theorem AddsNoNames.listItem {node node' : Node} (adds : AddsNoNames node node') (position : Nat) :
    AddsNoNames (View.listItem node position) (View.listItem node' position) := by
  intro name member
  rcases List.mem_append.1 (names_listItem node' position member) with added | inside
  · exact List.mem_append_left _ added
  · rcases List.mem_append.1 (adds inside) with added | inside
    · exact List.mem_append_left _ added
    · exact List.mem_append_right _ (names_subset_listItem node position inside)

theorem subset_listNames_append {names names' others others' : List String} (first : names' ⊆ listNames ++ names)
    (second : others' ⊆ listNames ++ others) : names' ++ others' ⊆ listNames ++ (names ++ others) := by
  intro name member
  simp only [List.mem_append] at member ⊢
  rcases member with member | member
  · exact (List.mem_append.1 (first member)).imp_right .inl
  · exact (List.mem_append.1 (second member)).imp_right .inr

theorem AddsNoNames.list {children children' : List Node} (each : List.Forall₂ AddsNoNames children children')
    (numbered : Bool) :
    AddsNoNames (.element (Head.ofTag (listTag numbered)) children)
      (.element (Head.ofTag (listTag numbered)) children') := by
  have inside : namesOf children' ⊆ listNames ++ namesOf children := by
    induction each with
    | nil => exact List.nil_subset _
    | cons first _ ih => exact subset_listNames_append first ih
  have tag : [listTag numbered] ⊆ listNames ++ [listTag numbered] := List.subset_append_right _ _
  rw [AddsNoNames, names_list, names_list]
  exact subset_listNames_append tag inside

mutual

theorem render_sketches {sketch : View} (view : View) (sketches : sketch.Sketches view) (context : Data) :
    Persists AddsNoNames (view.render context) (sketch.render context) := by
  cases sketches with
  | hole => exact fun node _ => ⟨.empty, rfl, List.nil_subset _⟩
  | element tag attributes text => exact fun node rendered => ⟨node, rendered, .refl node⟩
  | @list numbered source sketch item inside =>
    have each (context context' : Data) (same : context = context') :
        Persists AddsNoNames (item.render context) (sketch.render context') :=
      same ▸ render_sketches item inside context
    rw [render_list, render_list]
    apply (Persists.refl _).bind
    rintro items _ rfl
    apply (renderEach_persists each (fun _ _ position adds => adds.listItem position) (List.forall₂_refl items) 0).bind
    intro children children' adds
    exact Persists.ok (AddsNoNames.list adds numbered)
  | sequence each =>
    rw [render_sequence, render_sequence]
    exact (renderItems_sketches _ each context).map fun _ _ adds => adds

theorem renderItems_sketches {sketches : List View} (items : List View) (each : List.Forall₂ Sketches sketches items)
    (context : Data) :
    Persists (fun nodes nodes' => namesOf nodes' ⊆ listNames ++ namesOf nodes) (renderItems items context)
      (renderItems sketches context) := by
  cases each with
  | nil => exact Persists.ok (List.nil_subset _)
  | cons first others =>
    rw [renderItems_cons, renderItems_cons]
    apply (render_sketches _ first context).bind
    intro node node' adds
    apply (renderItems_sketches _ others context).bind
    intro rest rest' added
    apply Persists.ok
    rw [namesOf_append, namesOf_append, namesOf_nodes, namesOf_nodes]
    exact subset_listNames_append adds added

end

theorem AddsNoNames.write {node node' : Node} (adds : AddsNoNames node node') {options : MarkupOptions}
    {markup : String} (written : Markup.write options node = .ok markup) :
    ∃ markup', Markup.write options node' = .ok markup' := by
  have legal := Markup.legal_of_write written
  have own : ∀ name ∈ listNames, ¬Markup.Illegal name := by decide
  apply Markup.write_of_legal
  rw [Markup.allNames, List.forall_mem_append] at legal ⊢
  refine ⟨legal.1, ?_⟩
  intro name member
  rcases List.mem_append.1 (adds member) with added | named
  · exact own name added
  · exact legal.2 name named

/-- A page that can be made can be made of any sketch of its view. -/
theorem render_sketch {sketch view : View} (sketches : sketch.Sketches view) {context : Data} {node : Node}
    (rendered : view.render context = .ok node) :
    ∃ node', sketch.render context = .ok node' ∧ ∀ options markup, Markup.write options node = .ok markup →
      ∃ markup', Markup.write options node' = .ok markup' := by
  obtain ⟨node', rendered', adds⟩ := render_sketches view sketches context node rendered
  exact ⟨node', rendered', fun _ _ => adds.write⟩

theorem render_sketch_tasks :
    let task : Data := .dict [("completed", .boolean true), ("task", .string "Buy milk")]
    let context : Data := .dict [("tasks", .list [task])]
    let heading : Node := .element ⟨"h1", [], .text "TODO list", none⟩ []
    let page (item : List Node) : Node :=
      .fragment [heading, .element (Head.ofTag "ul") [.element ⟨"li", [], .empty, some 0⟩ item]]
    let node : Node := page [
      .element ⟨"input", [("type", .text "checkbox"), ("checked", .boolean true)], .empty, none⟩ [],
      .element ⟨"label", [], .text "Buy milk", none⟩ []]
    let options : MarkupOptions := ⟨some "data-index", false⟩
    Sample.skeleton.Sketches Sample.tasks ∧ Sample.tasks.render context = .ok node ∧
      (∃ markup, Markup.write options node = .ok markup) ∧ Sample.skeleton.render context = .ok (page []) ∧
      ∃ markup, Markup.write options (page []) = .ok markup := by
  intro task context heading page node options
  have sketches : Sample.skeleton.Sketches Sample.tasks :=
    .sequence (.cons (.element _ _ _) (.cons (.list _ _ (.hole _)) .nil))
  have rendered : Sample.tasks.render context = .ok node := rfl
  have written : ∃ markup, Markup.write options node = .ok markup := Markup.write_of_legal (by decide)
  obtain ⟨node', drawn, writable⟩ := render_sketch sketches rendered
  have bare : Sample.skeleton.render context = .ok (page []) := rfl
  cases bare.symm.trans drawn
  obtain ⟨markup, whole⟩ := written
  exact ⟨sketches, rendered, ⟨markup, whole⟩, drawn, writable options markup whole⟩

end View

end ViewTree
