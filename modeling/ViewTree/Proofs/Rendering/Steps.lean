import Mathlib.Data.List.Forall2
import ViewTree.Proofs.Outcome
import ViewTree.Rendering.Render

namespace ViewTree

namespace View

theorem soleItem?_eq_some {nodes : List Node} {head : Head} {children : List Node} :
    soleItem? nodes = some (head, children) ↔
      nodes = [.element head children] ∧ head.tag = itemTag := by
  constructor
  · intro sole
    unfold soleItem? at sole
    split at sole
    · split at sole
      · rename_i item
        cases sole
        exact ⟨rfl, item⟩
      · cases sole
    · cases sole
  · rintro ⟨rfl, item⟩
    rw [soleItem?, if_pos item]

theorem listItem_cases (node : Node) (position : Nat) :
    (∃ head children, node.nodes = [.element head children] ∧ head.tag = itemTag ∧
      listItem node position = .element { head with index := some (UInt64.ofNat position) } children) ∨
    ((∀ head children, node.nodes = [.element head children] → head.tag ≠ itemTag) ∧
      listItem node position =
        .element { Head.ofTag itemTag with index := some (UInt64.ofNat position) } node.nodes) := by
  unfold listItem
  cases sole : soleItem? node.nodes with
  | none =>
    refine .inr ⟨?_, rfl⟩
    intro head children same item
    rw [soleItem?_eq_some.2 ⟨same, item⟩] at sole
    cases sole
  | some found =>
    obtain ⟨same, item⟩ := soleItem?_eq_some.1 sole
    exact .inl ⟨found.1, found.2, same, item, rfl⟩

theorem attributeValues_cons (name : String) (value : Value) (attributes : List (String × Value))
    (context : Data) :
    attributeValues ((name, value) :: attributes) context = (do
      let shown ← value.evaluate context
      let rest ← attributeValues attributes context
      .ok ((name, shown) :: rest)) := by
  simp only [attributeValues, List.mapM_cons, bind_assoc]
  rfl

def renderEach (item : View) (position : Nat) (items : List Data) : Except RenderError (List Node) :=
  (listItems item.trace position items).outcome

theorem renderEach_cons (item : View) (position : Nat) (data : Data) (items : List Data) :
    renderEach item position (data :: items) = (do
      let node ← render item data
      let rest ← renderEach item (position + 1) items
      .ok (listItem node position :: rest)) := by
  simp only [renderEach, render, listItems, Logged.outcome_do]
  rfl

theorem renderItems_append (left right : List View) (context : Data) :
    renderItems (left ++ right) context = (do
      let first ← renderItems left context
      let rest ← renderItems right context
      .ok (first ++ rest)) := by
  induction left with
  | nil =>
    rw [List.nil_append, renderItems_nil]
    cases renderItems right context <;> rfl
  | cons item left ih =>
    rw [List.cons_append, renderItems_cons, renderItems_cons, ih]
    cases item.render context with
    | error e => rfl
    | ok node =>
      cases renderItems left context with
      | error e => rfl
      | ok first =>
        cases renderItems right context with
        | error e => rfl
        | ok rest => exact congrArg Except.ok (List.append_assoc node.nodes first rest).symm

theorem render_element_eq_ok {tag : String} {attributes : List (String × Value)} {text : Value}
    {context : Data} {node : Node} :
    render (.element tag attributes text) context = .ok node ↔
      ∃ values shown, attributeValues attributes context = .ok values ∧
        text.evaluate context = .ok shown ∧ node = .element ⟨tag, values, shown, none⟩ [] := by
  simp only [render_element, bind_eq_ok, Except.ok.injEq, exists_and_left, @eq_comm _ node]

theorem render_list_eq_ok {numbered : Bool} {source : Reference} {item : View} {context : Data} {node : Node} :
    render (.list numbered source item) context = .ok node ↔
      ∃ items children, source.items context = .ok items ∧ renderEach item 0 items = .ok children ∧
        node = .element (Head.ofTag (listTag numbered)) children := by
  simp only [render_list, renderEach, bind_eq_ok, Except.ok.injEq, exists_and_left, @eq_comm _ node]

theorem render_sequence_eq_ok {items : List View} {context : Data} {node : Node} :
    render (.sequence items) context = .ok node ↔
      ∃ nodes, renderItems items context = .ok nodes ∧ node = .fragment nodes := by
  simp only [render_sequence, map_eq_ok, @eq_comm _ node]

theorem renderItems_cons_eq_ok {item : View} {items : List View} {context : Data} {nodes : List Node} :
    renderItems (item :: items) context = .ok nodes ↔
      ∃ node rest, render item context = .ok node ∧ renderItems items context = .ok rest ∧
        nodes = node.nodes ++ rest := by
  simp only [renderItems_cons, bind_eq_ok, Except.ok.injEq, exists_and_left, @eq_comm _ nodes]

theorem renderEach_cons_eq_ok {item : View} {position : Nat} {data : Data} {items : List Data}
    {children : List Node} :
    renderEach item position (data :: items) = .ok children ↔
      ∃ node rest, render item data = .ok node ∧ renderEach item (position + 1) items = .ok rest ∧
        children = listItem node position :: rest := by
  simp only [renderEach_cons, bind_eq_ok, Except.ok.injEq, exists_and_left, @eq_comm _ children]

/-- Equal relations between nodes and between items of lists carry over from data to lists. -/
theorem renderEach_agree {item item' : View} {shape : Data → Data → Prop} {related : Node → Node → Prop}
    (rendered : ∀ data data', shape data data' → Agree related (render item data) (render item' data'))
    (kept : ∀ node node' position, related node node' →
      related (listItem node position) (listItem node' position))
    {items items' : List Data} (shapes : List.Forall₂ shape items items') (position : Nat) :
    Agree (List.Forall₂ related) (renderEach item position items) (renderEach item' position items') := by
  induction shapes generalizing position with
  | nil => exact .nil
  | cons first _ ih =>
    rw [renderEach_cons, renderEach_cons]
    apply Agree.bind (rendered _ _ first)
    intro node node' same
    apply Agree.bind (ih (position + 1))
    intro rest rest' sames
    exact .cons (kept node node' position same) sames

theorem renderEach_persists {item item' : View} {shape : Data → Data → Prop} {related : Node → Node → Prop}
    (rendered : ∀ data data', shape data data' → Persists related (render item data) (render item' data'))
    (kept : ∀ node node' position, related node node' →
      related (listItem node position) (listItem node' position))
    {items items' : List Data} (shapes : List.Forall₂ shape items items') (position : Nat) :
    Persists (List.Forall₂ related) (renderEach item position items) (renderEach item' position items') := by
  induction shapes generalizing position with
  | nil => exact Persists.ok .nil
  | cons first _ ih =>
    rw [renderEach_cons, renderEach_cons]
    apply (rendered _ _ first).bind
    intro node node' same
    apply (ih (position + 1)).bind
    intro rest rest' sames
    exact Persists.ok (.cons (kept node node' position same) sames)

end View

end ViewTree
