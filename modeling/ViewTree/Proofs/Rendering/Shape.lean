import ViewTree.Proofs.Node.Elements
import ViewTree.Proofs.Rendering.Steps

namespace ViewTree

theorem View.listTag_ne_itemTag (numbered : Bool) : listTag numbered ≠ itemTag := by
  cases numbered <;> decide

namespace Node

def IsUnindexed (node : Node) : Prop := ∃ head children, node = .element head children ∧ head.index = none

def IsItemAt (position : Nat) (node : Node) : Prop :=
  ∃ head children, node = .element head children ∧ head.tag = View.itemTag ∧
    head.index = some (UInt64.ofNat position)

structure IsContainer (head : Head) (children : List Node) : Prop where
  bare : ∃ numbered, head = Head.ofTag (View.listTag numbered)
  items : ∀ (position : Nat) (child : Node), children[position]? = some child → child.IsItemAt position

/-- What a list puts around the rendering of an item that is not one item already. -/
structure IsWrapper (head : Head) (children : List Node) : Prop where
  bare : ∃ index, head = { Head.ofTag View.itemTag with index }
  parts : ∀ child ∈ children, child.IsUnindexed
  notSole : ∀ inner parts, children = [.element inner parts] → inner.tag ≠ View.itemTag

inductive Fits (head : Head) (children : List Node) : Prop
  | leaf (childless : children = [])
  | container (made : IsContainer head children)
  | wrapper (made : IsWrapper head children)

/-- The shape of a rendered tree. `View.listItem` sets an index on an element that is there already only where
`View.soleItem?` finds one, and the last field says that it had none. -/
structure IsRendered (node : Node) : Prop where
  top : node = .empty ∨ node.IsUnindexed ∨
    ∃ items, node = .fragment items ∧ ∀ item ∈ items, item.IsUnindexed
  each : ∀ part ∈ node.elements, Fits part.1 part.2
  below : ∀ part ∈ node.elements, ∀ child ∈ part.2, ∃ inner parts, child = .element inner parts ∧
    (inner.index.isSome ↔ IsContainer part.1 part.2)
  annotated : ∀ head children, View.soleItem? node.nodes = some (head, children) → head.index = none

theorem Fits.children {head : Head} {children : List Node} (fits : Fits head children) :
    ∀ child ∈ children, ∃ inner parts, child = .element inner parts ∧
      (inner.index.isSome ↔ IsContainer head children) := by
  intro child member
  cases fits with
  | leaf childless =>
    subst childless
    cases member
  | container made =>
    obtain ⟨position, found⟩ := List.mem_iff_getElem?.1 member
    obtain ⟨inner, parts, rfl, -, index⟩ := made.items position child found
    exact ⟨inner, parts, rfl, by simp [index, made]⟩
  | wrapper made =>
    obtain ⟨inner, parts, rfl, index⟩ := made.parts child member
    have notContainer : ¬ IsContainer head children := by
      rintro ⟨⟨numbered, bare⟩, -⟩
      obtain ⟨place, other⟩ := made.bare
      have tags : View.listTag numbered = View.itemTag := congrArg Head.tag (bare.symm.trans other)
      exact View.listTag_ne_itemTag numbered tags
    exact ⟨inner, parts, rfl, by simp [index, notContainer]⟩

structure AreRendered (items : List Node) : Prop where
  unindexed : ∀ item ∈ items, item.IsUnindexed
  fits : ∀ part ∈ elementsOf items, Fits part.1 part.2

theorem AreRendered.nil : AreRendered [] := ⟨fun _ => nofun, fun _ => nofun⟩

theorem AreRendered.append {left right : List Node} (first : AreRendered left) (second : AreRendered right) :
    AreRendered (left ++ right) := by
  constructor
  · intro item member
    rcases List.mem_append.1 member with member | member
    · exact first.unindexed item member
    · exact second.unindexed item member
  · intro part member
    rw [elementsOf_append] at member
    rcases List.mem_append.1 member with member | member
    · exact first.fits part member
    · exact second.fits part member

theorem AreRendered.nodesOf_eq {items : List Node} (rendered : AreRendered items) :
    nodesOf items = items := by
  apply nodesOf_of_elements
  intro item member
  obtain ⟨head, children, same, -⟩ := rendered.unindexed item member
  exact ⟨head, children, same⟩

end Node

namespace View

open Node

theorem listItem_rendered {node : Node} (rendered : AreRendered node.nodes) (position : Nat) :
    (listItem node position).IsItemAt position ∧
      ∀ part ∈ (listItem node position).elements, Fits part.1 part.2 := by
  rcases listItem_cases node position with ⟨head, children, same, item, made⟩ | ⟨notSole, made⟩
  · rw [made]
    refine ⟨⟨_, children, rfl, item, rfl⟩, ?_⟩
    have fits := rendered.fits
    rw [same] at fits
    simp only [elementsOf, elements, List.append_nil, List.forall_mem_cons] at fits ⊢
    refine ⟨?_, fits.2⟩
    -- The index is not looked at where there are no children, and no container is tagged as an item.
    cases fits.1 with
    | leaf childless => exact .leaf childless
    | container container =>
      obtain ⟨numbered, rfl⟩ := container.bare
      exact absurd item (listTag_ne_itemTag numbered)
    | wrapper wrapper =>
      obtain ⟨index, rfl⟩ := wrapper.bare
      exact .wrapper ⟨⟨_, rfl⟩, wrapper.parts, wrapper.notSole⟩
  · rw [made]
    refine ⟨⟨_, node.nodes, rfl, rfl, rfl⟩, ?_⟩
    rw [elements, List.forall_mem_cons]
    exact ⟨.wrapper ⟨⟨_, rfl⟩, rendered.unindexed, notSole⟩, rendered.fits⟩

theorem renderEach_rendered {item : View}
    (each : ∀ context node, item.render context = .ok node → AreRendered node.nodes) {start : Nat}
    {items : List Data} {children : List Node} (rendered : renderEach item start items = .ok children) :
    (∀ (position : Nat) (child : Node), children[position]? = some child →
      child.IsItemAt (start + position)) ∧
      ∀ part ∈ elementsOf children, Fits part.1 part.2 := by
  induction items generalizing start children with
  | nil =>
    cases rendered
    exact ⟨fun _ => nofun, AreRendered.nil.fits⟩
  | cons data items ih =>
    obtain ⟨node, rest, first, others, rfl⟩ := renderEach_cons_eq_ok.1 rendered
    obtain ⟨place, fits⟩ := listItem_rendered (each data node first) start
    obtain ⟨places, otherFits⟩ := ih others
    constructor
    · intro position child found
      cases position with
      | zero =>
        cases found
        exact place
      | succ position =>
        have later := places position child found
        rwa [Nat.add_right_comm] at later
    · intro part member
      rw [elementsOf] at member
      rcases List.mem_append.1 member with member | member
      · exact fits part member
      · exact otherFits part member

mutual

theorem nodes_rendered (view : View) {context : Data} {node : Node} (rendered : view.render context = .ok node) :
    AreRendered node.nodes := by
  cases view with
  | element tag attributes text =>
    obtain ⟨values, shown, -, -, rfl⟩ := render_element_eq_ok.1 rendered
    constructor
    · simp [Node.nodes, IsUnindexed]
    · simp [Node.nodes, elementsOf, elements, Fits.leaf]
  | list numbered source item =>
    obtain ⟨items, children, -, each, rfl⟩ := render_list_eq_ok.1 rendered
    obtain ⟨places, fits⟩ := renderEach_rendered (fun _ _ => nodes_rendered item) each
    simp only [Nat.zero_add] at places
    constructor
    · simp [Node.nodes, IsUnindexed, Head.ofTag]
    · simp only [Node.nodes, elementsOf, elements, List.append_nil, List.forall_mem_cons]
      exact ⟨.container ⟨⟨numbered, rfl⟩, places⟩, fits⟩
  | sequence items =>
    obtain ⟨nodes, each, rfl⟩ := render_sequence_eq_ok.1 rendered
    have parts := renderItems_rendered items each
    -- The row is flat already, so that nothing is left to splice.
    rw [Node.nodes, parts.nodesOf_eq]
    exact parts
  | hole =>
    cases rendered
    exact .nil

theorem renderItems_rendered (items : List View) {context : Data} {nodes : List Node}
    (rendered : renderItems items context = .ok nodes) : AreRendered nodes := by
  cases items with
  | nil =>
    cases rendered
    exact .nil
  | cons item items =>
    obtain ⟨node, rest, first, others, rfl⟩ := renderItems_cons_eq_ok.1 rendered
    exact (nodes_rendered item first).append (renderItems_rendered items others)

end

theorem render_top (view : View) {context : Data} {node : Node} (rendered : view.render context = .ok node) :
    node = .empty ∨ node.IsUnindexed ∨
      ∃ items, node = .fragment items ∧ ∀ item ∈ items, item.IsUnindexed := by
  have row := (nodes_rendered view rendered).unindexed
  cases view with
  | sequence items =>
    obtain ⟨nodes, each, rfl⟩ := render_sequence_eq_ok.1 rendered
    exact .inr (.inr ⟨nodes, rfl, (renderItems_rendered items each).unindexed⟩)
  | hole =>
    cases rendered
    exact .inl rfl
  | element tag attributes text =>
    obtain ⟨values, shown, -, -, rfl⟩ := render_element_eq_ok.1 rendered
    exact .inr (.inl (row _ List.mem_cons_self))
  | list numbered source item =>
    obtain ⟨items, children, -, -, rfl⟩ := render_list_eq_ok.1 rendered
    exact .inr (.inl (row _ List.mem_cons_self))

theorem render_shape (view : View) {context : Data} {node : Node} (rendered : view.render context = .ok node) :
    node.IsRendered := by
  have row := nodes_rendered view rendered
  have each := row.fits
  rw [elementsOf_nodes] at each
  refine ⟨render_top view rendered, each, ?_, ?_⟩
  · intro part member
    exact (each part member).children
  · intro head children sole
    obtain ⟨same, -⟩ := soleItem?_eq_some.1 sole
    obtain ⟨head', children', same', index⟩ := row.unindexed (.element head children) (by simp [same])
    cases same'
    exact index

theorem render_shape_nested :
    let view : View := .list false .data (.list true .data (.sequence [.hole, .textElement "li" .data]))
    let context : Data := .list [.list [.string "milk", .none], .list []]
    let item (index : UInt64) (text : Scalar) : Node := .element ⟨"li", [], text, some index⟩ []
    let wrapper (index : UInt64) (children : List Node) : Node :=
      .element ⟨"li", [], .empty, some index⟩ [.element (Head.ofTag "ol") children]
    let node : Node := .element (Head.ofTag "ul")
      [wrapper 0 [item 0 (.text "milk"), item 1 .empty], wrapper 1 []]
    view.render context = .ok node ∧ node.IsRendered := by
  intro view context item wrapper node
  have rendered : view.render context = .ok node := rfl
  exact ⟨rendered, render_shape view rendered⟩

end View

end ViewTree
