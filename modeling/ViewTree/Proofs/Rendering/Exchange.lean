import ViewTree.Proofs.Markup.Flattening
import ViewTree.Proofs.Rendering.Renumbering

namespace ViewTree

/-- A view with a gap in it, where a part may be put. -/
inductive Frame where
  | gap
  | listItem (numbered : Bool) (source : Reference) (item : Frame)
  | sequencePart (before : List View) (part : Frame) (after : List View)

def Frame.fill (view : View) : Frame → View
  | .gap => view
  | .listItem numbered source item => .list numbered source (fill view item)
  | .sequencePart before part after => .sequence (before ++ fill view part :: after)

namespace View

/-- Both render to nodes that stand for the same elements, or fail with the same error. -/
def Interchangeable (a b : View) : Prop :=
  ∀ context, Agree (fun node node' => node.nodes = node'.nodes) (a.render context) (b.render context)

theorem listItem_congr {first second : Node} (same : first.nodes = second.nodes) (position : Nat) :
    listItem first position = listItem second position := by
  rw [listItem, listItem, same]

namespace Interchangeable

variable {a b c : View}

theorem of_eq (same : ∀ context, a.render context = b.render context) : a.Interchangeable b := by
  intro context
  rw [same]
  exact (Agree.refl _).imp fun _ _ _ _ equal => congrArg Node.nodes equal

theorem refl (view : View) : view.Interchangeable view := of_eq fun _ => rfl

theorem trans (first : a.Interchangeable b) (second : b.Interchangeable c) : a.Interchangeable c :=
  fun context => (first context).trans (second context) fun _ _ _ => Eq.trans

theorem equal (same : a.Interchangeable b) (context : Data) :
    Agree (fun node node' => Node.equalItems node.nodes node'.nodes = true) (a.render context)
      (b.render context) := by
  apply (same context).imp
  intro node node' _ _ sameNodes
  rw [sameNodes]
  exact Node.equalItems_self _

theorem renderEach_eq (same : a.Interchangeable b) (position : Nat) (items : List Data) :
    renderEach a position items = renderEach b position items := by
  induction items generalizing position with
  | nil => rfl
  | cons item items ih =>
    rw [renderEach_cons, renderEach_cons, ih]
    apply Agree.eq
    apply (same item).bind
    intro node node' sameNodes
    rw [listItem_congr sameNodes]
    exact Agree.refl _

theorem list (same : a.Interchangeable b) (numbered : Bool) (source : Reference) :
    (View.list numbered source a).Interchangeable (.list numbered source b) := by
  have each (items : List Data) : (listItems a.trace 0 items).outcome = (listItems b.trace 0 items).outcome :=
    same.renderEach_eq 0 items
  apply of_eq
  intro context
  simp only [render_list, each]

theorem row {middle middle' : List View}
    (same : ∀ context, renderItems middle context = renderItems middle' context) (before after : List View) :
    (View.sequence (before ++ middle ++ after)).Interchangeable (.sequence (before ++ middle' ++ after)) := by
  apply of_eq
  intro context
  simp only [render_sequence, renderItems_append, same]

theorem sequence (same : a.Interchangeable b) (before after : List View) :
    (View.sequence (before ++ a :: after)).Interchangeable (.sequence (before ++ b :: after)) := by
  have single (context : Data) : renderItems [a] context = renderItems [b] context := by
    rw [renderItems_cons, renderItems_cons]
    apply Agree.eq
    apply (same context).bind
    intro node node' sameNodes
    rw [sameNodes]
    exact Agree.refl _
  have exchanged := row single before after
  rwa [List.append_assoc, List.append_assoc] at exchanged

theorem fill (same : a.Interchangeable b) (frame : Frame) :
    (frame.fill a).Interchangeable (frame.fill b) := by
  induction frame with
  | gap => exact same
  | listItem numbered source item ih => exact ih.list numbered source
  | sequencePart before part after ih => exact ih.sequence before after

end Interchangeable

end View

/-- Parts are exchanged without a trace in what is rendered, in how it fails and in what is written, if they
stand for equal elements by themselves. Numbers need only be equal by value there. -/
theorem Frame.exchange {a b : View}
    (equal : ∀ context, Agree (fun node node' => Node.equalItems node.nodes node'.nodes = true)
      (a.render context) (b.render context)) (frame : Frame) (context : Data) :
    Agree (fun node node' => node.nodes = node'.nodes ∧
        ∀ options, Markup.write options node = Markup.write options node')
      ((frame.fill a).render context) ((frame.fill b).render context) := by
  have same : a.Interchangeable b := View.nodes_eq_of_equal equal
  apply (same.fill frame context).imp
  intro node node' _ _ sameNodes
  exact ⟨sameNodes, Markup.write_congr sameNodes⟩

theorem Frame.exchange_row :
    let item : View := .textElement "li" .data
    let row : View := .sequence [.hole, item, .sequence []]
    let frame : Frame := .sequencePart [.textElement "h1" (.constant "Rows")]
      (.listItem true (.field "rows") (.listItem false .data .gap)) [.hole]
    (∀ context, Agree (fun node node' => Node.equalItems node.nodes node'.nodes = true)
      (item.render context) (row.render context)) ∧
    ∀ context, Agree (fun node node' => node.nodes = node'.nodes ∧
        ∀ options, Markup.write options node = Markup.write options node')
      ((frame.fill item).render context) ((frame.fill row).render context) := by
  intro item row frame
  have same : item.Interchangeable row := by
    intro context
    simp only [row, View.render_sequence, View.renderItems_cons, View.renderItems_nil, View.render_hole]
    cases item.render context with
    | error e => rfl
    | ok node =>
      show node.nodes = Node.nodesOf (node.nodes ++ [])
      rw [List.append_nil, Node.nodesOf_nodes]
  exact ⟨same.equal, Frame.exchange same.equal frame⟩

end ViewTree
