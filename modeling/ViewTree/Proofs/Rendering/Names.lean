import ViewTree.Proofs.Markup.Writing
import ViewTree.Proofs.Rendering.Steps

namespace ViewTree

namespace Markup

theorem namesOf_append (left right : List Node) : namesOf (left ++ right) = namesOf left ++ namesOf right := by
  induction left with
  | nil => rfl
  | cons item left ih => rw [List.cons_append, namesOf, namesOf, ih, List.append_assoc]

mutual

theorem namesOf_nodes (node : Node) : namesOf node.nodes = names node := by
  cases node with
  | element head children => simp only [Node.nodes, namesOf, List.append_nil]
  | fragment items => exact namesOf_nodesOf items
  | empty => rfl

theorem namesOf_nodesOf (items : List Node) : namesOf (Node.nodesOf items) = namesOf items := by
  cases items with
  | nil => rfl
  | cons item items =>
    rw [Node.nodesOf, namesOf_append, namesOf_nodes item, namesOf_nodesOf items, namesOf]

end

end Markup

namespace View

open Markup (namesOf namesOf_append namesOf_nodes)

mutual

/-- The tags and attribute names of a view. -/
def names : View → List String
  | .element tag attributes _ => tag :: attributes.map Prod.fst
  | .list _ _ item => names item
  | .sequence items => namesIn items
  | .hole => []

def namesIn : List View → List String
  | [] => []
  | item :: items => names item ++ namesIn items

end

def listNames : List String := [itemTag, listTag false, listTag true]

theorem listTag_mem (numbered : Bool) : listTag numbered ∈ listNames := by
  cases numbered <;> decide

theorem names_list (numbered : Bool) (children : List Node) :
    Markup.names (.element (Head.ofTag (listTag numbered)) children) = listTag numbered :: namesOf children := by
  cases numbered <;> rfl

theorem names_listItem_eq (node : Node) (position : Nat) :
    Markup.names (listItem node position) = Markup.names node ∨
      Markup.names (listItem node position) = itemTag :: Markup.names node := by
  rw [← namesOf_nodes node]
  rcases listItem_cases node position with ⟨head, children, same, -, made⟩ | ⟨-, made⟩
  · rw [made, same, namesOf, namesOf, List.append_nil]
    exact .inl rfl
  · rw [made]
    exact .inr rfl

theorem names_listItem (node : Node) (position : Nat) :
    Markup.names (listItem node position) ⊆ listNames ++ Markup.names node := by
  rcases names_listItem_eq node position with same | around
  · rw [same]
    exact List.subset_append_right _ _
  · rw [around]
    exact List.cons_subset.2 ⟨List.mem_append_left _ List.mem_cons_self, List.subset_append_right _ _⟩

theorem names_subset_listItem (node : Node) (position : Nat) :
    Markup.names node ⊆ Markup.names (listItem node position) := by
  rcases names_listItem_eq node position with same | around
  · rw [same]
    exact List.Subset.refl _
  · rw [around]
    exact List.subset_cons_self _ _

theorem attributeValues_names {attributes : List (String × Value)} {context : Data}
    {values : List (String × Scalar)} (shown : attributeValues attributes context = .ok values) :
    values.map Prod.fst = attributes.map Prod.fst := by
  induction attributes generalizing values with
  | nil =>
    cases shown
    rfl
  | cons declared attributes ih =>
    rw [attributeValues_cons] at shown
    obtain ⟨first, -, shown⟩ := bind_eq_ok.1 shown
    obtain ⟨rest, others, shown⟩ := bind_eq_ok.1 shown
    cases shown
    rw [List.map_cons, List.map_cons, ih others]

theorem renderEach_names {item : View}
    (each : ∀ context node, item.render context = .ok node → Markup.names node ⊆ listNames ++ item.names)
    {position : Nat} {items : List Data} {children : List Node}
    (rendered : renderEach item position items = .ok children) : namesOf children ⊆ listNames ++ item.names := by
  induction items generalizing position children with
  | nil =>
    cases rendered
    exact List.nil_subset _
  | cons data items ih =>
    obtain ⟨node, rest, first, others, rfl⟩ := renderEach_cons_eq_ok.1 rendered
    rw [namesOf]
    refine List.append_subset.2 ⟨?_, ih others⟩
    refine List.Subset.trans (names_listItem node position) ?_
    exact List.append_subset.2 ⟨List.subset_append_left _ _, each data node first⟩

mutual

theorem render_names (view : View) {context : Data} {node : Node} (rendered : view.render context = .ok node) :
    Markup.names node ⊆ listNames ++ view.names := by
  cases view with
  | element tag attributes text =>
    obtain ⟨values, shown, given, -, rfl⟩ := render_element_eq_ok.1 rendered
    have inside : (if tag ∈ Markup.voidTags then [] else namesOf []) = [] := ite_self _
    rw [Markup.names, attributeValues_names given, inside, List.append_nil]
    exact List.subset_append_right _ _
  | list numbered source item =>
    obtain ⟨items, children, -, each, rfl⟩ := render_list_eq_ok.1 rendered
    have inner := renderEach_names (fun _ _ => render_names item) each
    rw [names_list]
    exact List.cons_subset.2 ⟨List.mem_append_left _ (listTag_mem numbered), inner⟩
  | sequence items =>
    obtain ⟨nodes, each, rfl⟩ := render_sequence_eq_ok.1 rendered
    exact renderItems_names items each
  | hole =>
    cases rendered
    exact List.nil_subset _

theorem renderItems_names (items : List View) {context : Data} {nodes : List Node}
    (rendered : renderItems items context = .ok nodes) : namesOf nodes ⊆ listNames ++ namesIn items := by
  cases items with
  | nil =>
    cases rendered
    exact List.nil_subset _
  | cons item items =>
    obtain ⟨node, rest, first, others, rfl⟩ := renderItems_cons_eq_ok.1 rendered
    have head := render_names item first
    have tail := renderItems_names items others
    rw [namesOf_append, namesOf_nodes, namesIn]
    intro name member
    rcases List.mem_append.1 member with member | member
    · rcases List.mem_append.1 (head member) with added | named
      · exact List.mem_append_left _ added
      · exact List.mem_append_right _ (List.mem_append_left _ named)
    · rcases List.mem_append.1 (tail member) with added | named
      · exact List.mem_append_left _ added
      · exact List.mem_append_right _ (List.mem_append_right _ named)

end

end View

end ViewTree
