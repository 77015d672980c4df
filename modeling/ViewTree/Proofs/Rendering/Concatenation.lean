import ViewTree.Proofs.Rendering.Steps

namespace ViewTree

namespace Node

def index? (node : Node) : Option UInt64 := node.head?.bind Head.index

/-- An element some places further on in its list. What is inside it stays as it is. -/
def raised (places : Nat) : Node → Node
  | .element head children => .element { head with index := head.index.map (· + UInt64.ofNat places) } children
  | node => node

theorem index?_raised {node : Node} {index : UInt64} (given : node.index? = some index) (places : Nat) :
    (node.raised places).index? = some (index + UInt64.ofNat places) := by
  cases node with
  | element head children => exact congrArg (Option.map (· + UInt64.ofNat places)) given
  | _ => cases given

end Node

namespace View

theorem index?_listItem (node : Node) (position : Nat) :
    (listItem node position).index? = some (UInt64.ofNat position) := by
  rcases listItem_cases node position with ⟨head, children, -, -, made⟩ | ⟨-, made⟩
  · rw [made]
    rfl
  · rw [made]
    rfl

theorem listItem_raised (node : Node) (position places : Nat) :
    listItem node (position + places) = (listItem node position).raised places := by
  unfold listItem
  rw [UInt64.ofNat_add]
  cases soleItem? node.nodes <;> rfl

theorem renderEach_raised (item : View) (position places : Nat) (items : List Data) :
    renderEach item (position + places) items =
      (renderEach item position items).map (List.map (Node.raised places)) := by
  induction items generalizing position with
  | nil => rfl
  | cons data items ih =>
    rw [renderEach_cons, renderEach_cons, Nat.add_right_comm, ih]
    cases item.render data with
    | error e => rfl
    | ok node =>
      cases renderEach item (position + 1) items with
      | error e => rfl
      | ok rest => exact congrArg (fun child => Except.ok (child :: rest.map _)) (listItem_raised node position places)

theorem renderEach_append (item : View) (position : Nat) (first second : List Data) :
    renderEach item position (first ++ second) = (do
      let before ← renderEach item position first
      let after ← renderEach item (position + first.length) second
      .ok (before ++ after)) := by
  induction first generalizing position with
  | nil =>
    show renderEach item position second = renderEach item position second >>= .ok
    cases renderEach item position second <;> rfl
  | cons data first ih =>
    have next : position + 1 + first.length = position + (data :: first).length := by
      rw [List.length_cons]
      omega
    rw [List.cons_append, renderEach_cons, renderEach_cons, ih, next]
    cases item.render data with
    | error e => rfl
    | ok node =>
      cases renderEach item (position + 1) first with
      | error e => rfl
      | ok before => cases renderEach item (position + (data :: first).length) second <;> rfl

theorem renderEach_index {item : View} {position : Nat} {items : List Data} {children : List Node}
    (rendered : renderEach item position items = .ok children) :
    ∀ child ∈ children, ∃ offset < items.length, child.index? = some (UInt64.ofNat (position + offset)) := by
  induction items generalizing position children with
  | nil =>
    cases rendered
    exact nofun
  | cons data items ih =>
    obtain ⟨node, rest, -, others, rfl⟩ := renderEach_cons_eq_ok.1 rendered
    rw [List.forall_mem_cons]
    refine ⟨⟨0, Nat.zero_lt_succ _, index?_listItem node position⟩, ?_⟩
    intro child member
    obtain ⟨offset, bound, index⟩ := ih others child member
    refine ⟨offset + 1, Nat.succ_lt_succ bound, ?_⟩
    rw [index, Nat.add_right_comm, Nat.add_assoc]

theorem render_list_data (numbered : Bool) (item : View) (items : List Data) :
    render (.list numbered .data item) (.list items) =
      (renderEach item 0 items).map (.element (Head.ofTag (listTag numbered))) := by
  rw [render_list]
  show (renderEach item 0 items >>= _) = _
  cases renderEach item 0 items <;> rfl

/-- The list of two lists of data one after the other. It fails where the first does or else the second, and otherwise
has the items of both, the later ones raised by the number of those before them. -/
theorem render_append (numbered : Bool) (item : View) (first second : List Data) :
    render (.list numbered .data item) (.list (first ++ second)) = (do
      let before ← render (.list numbered .data item) (.list first)
      let after ← render (.list numbered .data item) (.list second)
      .ok (.element (Head.ofTag (listTag numbered))
        (before.children ++ after.children.map (Node.raised first.length)))) ∧
    (∀ items container, render (.list numbered .data item) (.list items) = .ok container →
      container = .element (Head.ofTag (listTag numbered)) container.children) ∧
    ((first ++ second).length ≤ UInt64.size → ∀ after, render (.list numbered .data item) (.list second) = .ok after →
      ∀ child ∈ after.children, ∃ index raised, child.index? = some index ∧
        (child.raised first.length).index? = some raised ∧ raised.toNat = index.toNat + first.length) := by
  simp only [render_list_data]
  refine ⟨?_, ?_, ?_⟩
  · rw [renderEach_append, renderEach_raised]
    cases renderEach item 0 first with
    | error e => rfl
    | ok before =>
      cases renderEach item 0 second with
      | error e => rfl
      | ok after => rfl
  · intro items container rendered
    obtain ⟨children, -, rfl⟩ := map_eq_ok.1 rendered
    rfl
  · intro fits after rendered child member
    obtain ⟨children, each, rfl⟩ := map_eq_ok.1 rendered
    obtain ⟨offset, bound, index⟩ := renderEach_index each child member
    rw [Nat.zero_add] at index
    rw [List.length_append] at fits
    refine ⟨_, _, index, Node.index?_raised index first.length, ?_⟩
    rw [← UInt64.ofNat_add, UInt64.toNat_ofNat_of_lt' (by omega), UInt64.toNat_ofNat_of_lt' (by omega)]

theorem render_append_rows :
    let item : View := .list true .data (.textElement "li" .data)
    let first : List Data := [.list [.string "milk"], .list []]
    let second : List Data := [.list [], .list [.string "bread", .none]]
    let list (items : List Data) : Except RenderError Node := render (.list false .data item) (.list items)
    let name (index : UInt64) (text : Scalar) : Node := .element ⟨"li", [], text, some index⟩ []
    let row (index : UInt64) (names : List Node) : Node :=
      .element ⟨"li", [], .empty, some index⟩ [.element (Head.ofTag "ol") names]
    let after : List Node := [row 0 [], row 1 [name 0 (.text "bread"), name 1 .empty]]
    list second = .ok (.element (Head.ofTag "ul") after) ∧
      list (first ++ second) = .ok (.element (Head.ofTag "ul")
        [row 0 [name 0 (.text "milk")], row 1 [], row 2 [], row 3 [name 0 (.text "bread"), name 1 .empty]]) ∧
      ∀ child ∈ after, ∃ index raised, child.index? = some index ∧
        (child.raised 2).index? = some raised ∧ raised.toNat = index.toNat + 2 := by
  intro item first second list name row after
  have appended := render_append false item first second
  have rendered : list second = .ok (.element (Head.ofTag "ul") after) := rfl
  exact ⟨rendered, appended.1, appended.2.2 (by decide) _ rendered⟩

end View

end ViewTree
