import ViewTree.Proofs.Rendering.Heads

namespace ViewTree

/-- Views that differ in nothing but which of their lists, at any depth, are numbered. -/
inductive View.SameUpToNumbering : View → View → Prop
  | element (tag : String) (attributes : List (String × Value)) (text : Value) :
    SameUpToNumbering (.element tag attributes text) (.element tag attributes text)
  | list (numbered numbered' : Bool) (source : Reference) {item item' : View} (inside : SameUpToNumbering item item') :
    SameUpToNumbering (.list numbered source item) (.list numbered' source item')
  | sequence {items items' : List View} (each : List.Forall₂ SameUpToNumbering items items') :
    SameUpToNumbering (.sequence items) (.sequence items')
  | hole : SameUpToNumbering .hole .hole

/-- The tag of a list that is not numbered gives way to that of a numbered one, on whatever element it is. -/
def Head.ordered (head : Head) : Head :=
  { head with tag := if head.tag = View.listTag false then View.listTag true else head.tag }

def Node.ordered : Node → Node := mapHeads Head.ordered

/-- A change of heads after which the head of a list does not tell whether the list is numbered. -/
structure Head.ForgetsNumbering (f : Head → Head) : Prop extends Head.KeepsItems f where
  list : ∀ numbered, f (Head.ofTag (View.listTag numbered)) = f (Head.ofTag (View.listTag true))

theorem Head.forgetsNumbering_ordered : ForgetsNumbering ordered where
  tag head := by
    have item : View.listTag false ≠ View.itemTag := by decide
    have item' : View.listTag true ≠ View.itemTag := by decide
    unfold ordered
    by_cases list : head.tag = View.listTag false
    · simp only [list, if_true, item, item']
    · simp only [if_neg list]
  indexed _ _ := rfl
  fresh := rfl
  list numbered := by cases numbered <;> rfl

namespace View

variable {f : Head → Head}

mutual

theorem render_forgets (forgets : Head.ForgetsNumbering f) (view : View) {other : View}
    (same : view.SameUpToNumbering other) (context : Data) :
    Agree (fun node node' => node.mapHeads f = node'.mapHeads f) (view.render context) (other.render context) := by
  cases same with
  | element tag attributes text =>
    apply (Agree.refl _).imp
    intro node node' _ _ equal
    rw [equal]
  | @list numbered numbered' source item item' inside =>
    have each (data data' : Data) (equal : data = data') :
        Agree (fun node node' => node.mapHeads f = node'.mapHeads f) (item.render data) (item'.render data') :=
      equal ▸ render_forgets forgets item inside data
    have keeps := forgets.toKeepsItems
    rw [render_list, render_list]
    -- The data is the same, so that both go through the same items.
    apply (Agree.refl _).bind
    rintro found _ rfl
    apply (renderEach_agree each (fun _ _ position equal => listItem_mapHeads_congr keeps keeps equal position)
      (List.forall₂_refl found) 0).bind
    intro children children' equal
    simp only [Agree, Node.mapHeads]
    rw [forgets.list numbered, forgets.list numbered', Node.mapHeadsOf_eq_iff.2 equal]
  | sequence each =>
    rw [render_sequence, render_sequence]
    exact (renderItems_forgets forgets _ each context).map fun _ _ equal => congrArg Node.fragment equal
  | hole => rfl

theorem renderItems_forgets (forgets : Head.ForgetsNumbering f) (items : List View) {others : List View}
    (each : List.Forall₂ SameUpToNumbering items others) (context : Data) :
    Agree (fun nodes nodes' => Node.mapHeadsOf f nodes = Node.mapHeadsOf f nodes')
      (renderItems items context) (renderItems others context) := by
  cases each with
  | nil => rfl
  | cons first rest =>
    rw [renderItems_cons, renderItems_cons]
    apply (render_forgets forgets _ first context).bind
    intro node node' equal
    apply (renderItems_forgets forgets _ rest context).bind
    intro nodes nodes' equals
    simp only [Agree, Node.mapHeadsOf_append, ← Node.nodes_mapHeads, equal, equals]

end

/-- Whether lists are numbered shows in the tags of lists alone, and in no error. -/
theorem render_numbering {view other : View} (same : view.SameUpToNumbering other) (context : Data) :
    Agree (fun node node' => node.ordered = node'.ordered) (view.render context) (other.render context) :=
  render_forgets Head.forgetsNumbering_ordered view same context

/-- Lists in a list, beside an element that is tagged as a list by its own right; and what fails in one fails in the
other. -/
theorem render_numbering_rows :
    let view (outer inner : Bool) : View := .sequence [.textElement "ul" (.field "head"),
      .list outer (.field "rows") (.list inner .data (.textElement "li" .data))]
    let context (name : Data) : Data := .dict [("head", .none), ("rows", .list [.list [name], .list []])]
    let page (outer inner : String) : Node := .fragment [.element (Head.ofTag "ul") [],
      .element (Head.ofTag outer) [
        .element ⟨"li", [], .empty, some 0⟩ [.element (Head.ofTag inner)
          [.element ⟨"li", [], .text "milk", some 0⟩ []]],
        .element ⟨"li", [], .empty, some 1⟩ [.element (Head.ofTag inner) []]]]
    (view false true).SameUpToNumbering (view true false) ∧
      (view false true).render (context (.string "milk")) = .ok (page "ul" "ol") ∧
      (view true false).render (context (.string "milk")) = .ok (page "ol" "ul") ∧
      (page "ul" "ol").ordered = (page "ol" "ul").ordered ∧
      (view false true).render (context (.list [])) = .error (.notShowable .list) ∧
      (view true false).render (context (.list [])) = .error (.notShowable .list) := by
  intro view context page
  have same : (view false true).SameUpToNumbering (view true false) :=
    .sequence (.cons (.element _ _ _) (.cons (.list _ _ _ (.list _ _ _ (.element _ _ _))) .nil))
  have alike := render_numbering same
  have first : (view false true).render (context (.string "milk")) = .ok (page "ul" "ol") := rfl
  have second : (view true false).render (context (.string "milk")) = .ok (page "ol" "ul") := rfl
  have rendered := alike (context (.string "milk"))
  rw [first, second] at rendered
  have failed : (view false true).render (context (.list [])) = .error (.notShowable .list) := rfl
  exact ⟨same, first, second, rendered, failed, ((alike (context (.list []))).error_iff _).1 failed⟩

end View

end ViewTree
