import ViewTree.Proofs.Rendering.Steps
import ViewTree.Proofs.View.Nesting

namespace ViewTree

namespace Node

mutual

/-- How deep elements nest. -/
def height : Node → Nat
  | .element _ children => heightOf children + 1
  | .fragment items => heightOf items
  | .empty => 0

def heightOf : List Node → Nat
  | [] => 0
  | item :: items => max (height item) (heightOf items)

end

theorem heightOf_append (left right : List Node) : heightOf (left ++ right) = max (heightOf left) (heightOf right) := by
  induction left with
  | nil => exact (Nat.zero_max _).symm
  | cons item left ih => rw [List.cons_append, heightOf, heightOf, ih, Nat.max_assoc]

mutual

theorem heightOf_nodes (node : Node) : heightOf node.nodes = node.height := by
  cases node with
  | element head children => simp only [nodes, heightOf, Nat.max_zero]
  | fragment items => exact heightOf_nodesOf items
  | empty => rfl

theorem heightOf_nodesOf (items : List Node) : heightOf (nodesOf items) = heightOf items := by
  cases items with
  | nil => rfl
  | cons item items => rw [nodesOf, heightOf_append, heightOf_nodes item, heightOf_nodesOf items, heightOf]

end

end Node

namespace View

open Node (heightOf heightOf_append heightOf_nodes)

theorem height_listItem (node : Node) (position : Nat) : (listItem node position).height ≤ node.height + 1 := by
  rw [← heightOf_nodes node]
  rcases listItem_cases node position with ⟨head, children, same, -, made⟩ | ⟨-, made⟩
  · -- An element that is an item already stays as high as it is.
    rw [made, same, heightOf, Node.height, Node.height]
    omega
  · rw [made, Node.height]

theorem renderEach_height {item : View}
    (each : ∀ context node, item.render context = .ok node → node.height ≤ item.brackets) {position : Nat}
    {items : List Data} {children : List Node} (rendered : renderEach item position items = .ok children) :
    heightOf children ≤ item.brackets + 1 := by
  induction items generalizing position children with
  | nil =>
    cases rendered
    exact Nat.zero_le _
  | cons data items ih =>
    obtain ⟨node, rest, first, others, rfl⟩ := renderEach_cons_eq_ok.1 rendered
    have inner := each data node first
    have outer := height_listItem node position
    have tail := ih others
    rw [heightOf]
    omega

mutual

theorem render_height (view : View) {context : Data} {node : Node} (rendered : view.render context = .ok node) :
    node.height ≤ view.brackets := by
  cases view with
  | element tag attributes text =>
    obtain ⟨values, shown, -, -, rfl⟩ := render_element_eq_ok.1 rendered
    exact Nat.le_succ 1
  | list numbered source item =>
    obtain ⟨items, children, -, each, rfl⟩ := render_list_eq_ok.1 rendered
    exact Nat.succ_le_succ (renderEach_height (fun _ _ => render_height item) each)
  | sequence items =>
    obtain ⟨nodes, each, rfl⟩ := render_sequence_eq_ok.1 rendered
    exact Nat.le_add_right_of_le (renderItems_height items each)
  | hole =>
    cases rendered
    exact Nat.le_refl 0

theorem renderItems_height (items : List View) {context : Data} {nodes : List Node}
    (rendered : renderItems items context = .ok nodes) : heightOf nodes ≤ bracketsOf items := by
  cases items with
  | nil =>
    cases rendered
    exact Nat.le_refl 0
  | cons item items =>
    obtain ⟨node, rest, first, others, rfl⟩ := renderItems_cons_eq_ok.1 rendered
    have head := render_height item first
    have tail := renderItems_height items others
    rw [heightOf_append, heightOf_nodes, bracketsOf]
    omega

end

/-- What a text can be loaded as: a view that stands alone, or that of a template. -/
inductive LoadedFrom (text : String) : View → Prop
  | alone {view : View} (loaded : View.parse text = .ok view) : LoadedFrom text view
  | stored {template : Template} (loaded : Template.parse text = .ok template) : LoadedFrom text template.code

theorem LoadedFrom.brackets_le {text : String} {view : View} (loaded : LoadedFrom text view) : view.brackets ≤ 126 := by
  cases loaded with
  | alone loaded => exact brackets_of_parse loaded
  | stored loaded => exact Template.brackets_of_parse loaded

/-- Sequences and lists nest at most 63 deep in a view that was loaded, and elements at most 126 deep in what it
renders to. -/
theorem nesting_bounded {text : String} {view : View} (loaded : LoadedFrom text view) :
    view.nesting ≤ 63 ∧ ∀ context node, view.render context = .ok node → node.height ≤ 126 := by
  have within := loaded.brackets_le
  have nested := view.two_mul_nesting_le
  refine ⟨by omega, ?_⟩
  intro context node rendered
  exact Nat.le_trans (view.render_height rendered) within

def inLists : Nat → View → View
  | 0, inner => inner
  | count + 1, inner => .list false .data (inLists count inner)

def inItems : Nat → Data → Data
  | 0, inner => inner
  | count + 1, inner => .list [inItems count inner]

theorem nesting_bounded_lists :
    let view := inLists 63 .hole
    LoadedFrom (Template.ofView view).text view ∧ view.nesting = 63 ∧
      (∃ node, view.render (inItems 63 .none) = .ok node ∧ node.height = 126) ∧
      ∀ context node, view.render context = .ok node → node.height ≤ 126 := by
  intro view
  have loaded : LoadedFrom (Template.ofView view).text view :=
    .stored (Template.parse_text_of_depth_le (by decide +kernel))
  have high : (view.render (inItems 63 .none)).toOption.map Node.height = some 126 := by decide +kernel
  obtain ⟨node, rendered, height⟩ := Option.map_eq_some_iff.1 high
  exact ⟨loaded, by decide +kernel, ⟨node, toOption_eq_some.1 rendered, height⟩, (nesting_bounded loaded).2⟩

end View

end ViewTree
