import Mathlib.Logic.Relation
import ViewTree.Proofs.Rendering.Exchange
import ViewTree.Proofs.Rendering.Shape

namespace ViewTree

namespace View

open Relation (ReflTransGen)

/-- One superfluous part is taken away somewhere in a view. -/
inductive Simplifies : View → View → Prop
  | splice (before items after : List View) :
    Simplifies (.sequence (before ++ .sequence items :: after)) (.sequence (before ++ items ++ after))
  | drop (before after : List View) : Simplifies (.sequence (before ++ .hole :: after)) (.sequence (before ++ after))
  | unwrap (item : View) : Simplifies (.sequence [item]) item
  | inList (numbered : Bool) (source : Reference) {item item' : View} (inside : Simplifies item item') :
    Simplifies (.list numbered source item) (.list numbered source item')
  | inSequence (before after : List View) {item item' : View} (inside : Simplifies item item') :
    Simplifies (.sequence (before ++ item :: after)) (.sequence (before ++ item' :: after))

def IsTidy (view : View) : Prop := ∀ further, ¬view.Simplifies further

/-- What is left of a view when everything superfluous is taken away, in whatever order. -/
structure Tidies (view tidied : View) : Prop where
  reached : ReflTransGen Simplifies view tidied
  tidy : tidied.IsTidy

def parts : View → List View
  | .sequence items => items
  | .hole => []
  | view => [view]

def ofParts : List View → View
  | [view] => view
  | views => .sequence views

mutual

def tidy : View → View
  | .element tag attributes text => .element tag attributes text
  | .list numbered source item => .list numbered source (tidy item)
  | .sequence items => ofParts (tidyParts items)
  | .hole => .hole

def tidyParts : List View → List View
  | [] => []
  | item :: items => parts (tidy item) ++ tidyParts items

end

theorem renderItems_splice (items : List View) (context : Data) :
    renderItems [.sequence items] context = renderItems items context := by
  rw [renderItems_cons, render_sequence, renderItems_nil]
  cases each : renderItems items context with
  | error e => rfl
  | ok nodes =>
    have flat := (renderItems_rendered items each).nodesOf_eq
    show Except.ok (Node.nodesOf nodes ++ []) = Except.ok nodes
    rw [List.append_nil, flat]

theorem Simplifies.interchangeable {view view' : View} (step : view.Simplifies view') :
    view.Interchangeable view' := by
  induction step with
  | splice before items after =>
    have spliced := Interchangeable.row (renderItems_splice items) before after
    rwa [List.append_assoc, List.singleton_append] at spliced
  | drop before after =>
    have empty (context : Data) : renderItems [.hole] context = renderItems [] context := rfl
    have dropped := Interchangeable.row empty before after
    rwa [List.append_assoc, List.singleton_append, List.append_nil] at dropped
  | unwrap item =>
    intro context
    rw [render_sequence, renderItems_cons, renderItems_nil]
    cases item.render context with
    | error e => rfl
    | ok node =>
      show Node.nodesOf (node.nodes ++ []) = node.nodes
      rw [List.append_nil, Node.nodesOf_nodes]
  | inList numbered source _ ih => exact ih.list numbered source
  | inSequence before after _ ih => exact ih.sequence before after

theorem interchangeable_of_reached {view view' : View} (reached : ReflTransGen Simplifies view view') :
    view.Interchangeable view' := by
  induction reached with
  | refl => exact .refl view
  | tail _ step ih => exact ih.trans step.interchangeable

/-- A view that may stand in a tidy sequence. -/
structure IsTidyPart (view : View) : Prop where
  notSequence : ∀ items, view ≠ .sequence items
  notHole : view ≠ .hole
  tidy : view.IsTidy

theorem IsTidy.parts {view : View} (tidy : view.IsTidy) : ∀ part ∈ view.parts, part.IsTidyPart := by
  cases view with
  | sequence items =>
    intro part member
    obtain ⟨before, after, rfl⟩ := List.append_of_mem member
    refine ⟨?_, ?_, ?_⟩
    · rintro inner rfl
      exact tidy _ (.splice before inner after)
    · rintro rfl
      exact tidy _ (.drop before after)
    · intro further step
      exact tidy _ (.inSequence before after step)
  | hole =>
    intro part member
    cases member
  | element | list => exact List.forall_mem_singleton.2 ⟨fun _ => View.noConfusion, View.noConfusion, tidy⟩

theorem isTidy_sequence {items : List View} (parts : ∀ part ∈ items, part.IsTidyPart)
    (several : ∀ item, items ≠ [item]) : (View.sequence items).IsTidy := by
  intro further step
  generalize same : View.sequence items = view at step
  cases step with
  | splice before inner after =>
    cases same
    exact (parts (.sequence inner) (by simp)).notSequence inner rfl
  | drop before after =>
    cases same
    exact (parts .hole (by simp)).notHole rfl
  | unwrap =>
    cases same
    exact several further rfl
  | inList => cases same
  | inSequence before after inside =>
    cases same
    exact (parts _ (by simp)).tidy _ inside

theorem isTidy_ofParts {views : List View} (parts : ∀ part ∈ views, part.IsTidyPart) : (ofParts views).IsTidy := by
  match views with
  | [] => exact isTidy_sequence parts nofun
  | [view] => exact (parts view List.mem_cons_self).tidy
  | _ :: _ :: _ => exact isTidy_sequence parts nofun

mutual

theorem isTidy_tidy (view : View) : view.tidy.IsTidy := by
  cases view with
  | element tag attributes text => exact nofun
  | list numbered source item =>
    intro further step
    cases step with
    | inList _ _ inside => exact isTidy_tidy item _ inside
  | sequence items => exact isTidy_ofParts (isTidyPart_tidyParts items)
  | hole => exact nofun

theorem isTidyPart_tidyParts (items : List View) : ∀ part ∈ tidyParts items, part.IsTidyPart := by
  cases items with
  | nil => exact nofun
  | cons item items =>
    rw [tidyParts, List.forall_mem_append]
    exact ⟨(isTidy_tidy item).parts, isTidyPart_tidyParts items⟩

end

theorem reaches_parts (before : List View) (view : View) (after : List View) :
    ReflTransGen Simplifies (.sequence (before ++ view :: after)) (.sequence (before ++ view.parts ++ after)) := by
  cases view with
  | sequence items => exact .single (.splice before items after)
  | hole =>
    rw [parts, List.append_nil]
    exact .single (.drop before after)
  | _ =>
    show ReflTransGen Simplifies _ (.sequence (before ++ [_] ++ after))
    rw [List.append_assoc, List.singleton_append]

theorem reaches_ofParts (views : List View) : ReflTransGen Simplifies (.sequence views) (ofParts views) := by
  match views with
  | [] => exact .refl
  | [view] => exact .single (.unwrap view)
  | _ :: _ :: _ => exact .refl

mutual

theorem reaches_tidy (view : View) : ReflTransGen Simplifies view view.tidy := by
  cases view with
  | list numbered source item =>
    exact (reaches_tidy item).lift (View.list numbered source) fun _ _ inside => .inList numbered source inside
  | sequence items => exact (reaches_tidyParts [] items).trans (reaches_ofParts _)
  | _ => exact .refl

theorem reaches_tidyParts (before items : List View) :
    ReflTransGen Simplifies (.sequence (before ++ items)) (.sequence (before ++ tidyParts items)) := by
  cases items with
  | nil => exact .refl
  | cons item items =>
    have first : ReflTransGen Simplifies (.sequence (before ++ item :: items))
        (.sequence (before ++ item.tidy :: items)) :=
      (reaches_tidy item).lift (fun item => View.sequence (before ++ item :: items))
        fun _ _ inside => Simplifies.inSequence before items inside
    have others := reaches_tidyParts (before ++ item.tidy.parts) items
    rw [tidyParts, ← List.append_assoc]
    exact (first.trans (reaches_parts before item.tidy items)).trans others

end

theorem tidies_tidy (view : View) : view.Tidies view.tidy := ⟨reaches_tidy view, isTidy_tidy view⟩

/-- What is left when a view is tidied renders to the same elements and is written as the same markup, or fails with
the same error, whatever the order in which its parts were taken away. -/
theorem render_tidy (view : View) :
    view.Tidies view.tidy ∧ ∀ tidied, view.Tidies tidied → ∀ context,
      Agree (fun node node' => node.nodes = node'.nodes ∧
          ∀ options, Markup.write options node = Markup.write options node')
        (view.render context) (tidied.render context) := by
  refine ⟨tidies_tidy view, ?_⟩
  intro tidied tidies context
  apply (interchangeable_of_reached tidies.reached context).imp
  intro node node' _ _ same
  exact ⟨same, Markup.write_congr same⟩

theorem render_tidy_rows :
    let item : View := .textElement "li" .data
    let view : View := .sequence [.sequence [.hole,
      .list true (.field "rows") (.sequence [.sequence [.hole, .sequence [item]], .sequence []])]]
    let tidied : View := .list true (.field "rows") item
    view.tidy = tidied ∧ view.Tidies tidied ∧ ∀ context,
      Agree (fun node node' => node.nodes = node'.nodes ∧
          ∀ options, Markup.write options node = Markup.write options node')
        (view.render context) (tidied.render context) := by
  intro item view tidied
  have same : view.tidy = tidied := rfl
  obtain ⟨tidies, rendered⟩ := view.render_tidy
  rw [same] at tidies
  exact ⟨same, tidies, rendered tidied tidies⟩

end View

end ViewTree
