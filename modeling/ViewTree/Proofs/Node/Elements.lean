import ViewTree.Node.Basic

namespace ViewTree.Node

mutual

/-- The elements of a node, each with its children. -/
def elements : Node → List (Head × List Node)
  | .element head children => (head, children) :: elementsOf children
  | .fragment items => elementsOf items
  | .empty => []

def elementsOf : List Node → List (Head × List Node)
  | [] => []
  | item :: items => elements item ++ elementsOf items

end

theorem elementsOf_append (left right : List Node) :
    elementsOf (left ++ right) = elementsOf left ++ elementsOf right := by
  induction left with
  | nil => rfl
  | cons item left ih => rw [List.cons_append, elementsOf, elementsOf, ih, List.append_assoc]

mutual

theorem elementsOf_nodes (node : Node) : elementsOf node.nodes = node.elements := by
  cases node with
  | element head children => simp only [nodes, elementsOf, List.append_nil]
  | fragment items => exact elementsOf_nodesOf items
  | empty => rfl

theorem elementsOf_nodesOf (items : List Node) : elementsOf (nodesOf items) = elementsOf items := by
  cases items with
  | nil => rfl
  | cons item items =>
    rw [nodesOf, elementsOf_append, elementsOf_nodes item, elementsOf_nodesOf items, elementsOf]

end

theorem nodesOf_of_elements {items : List Node}
    (elements : ∀ item ∈ items, ∃ head children, item = .element head children) :
    nodesOf items = items := by
  induction items with
  | nil => rfl
  | cons item items ih =>
    rw [List.forall_mem_cons] at elements
    obtain ⟨⟨head, children, rfl⟩, others⟩ := elements
    rw [nodesOf, ih others]
    rfl

theorem nodesOf_nodes (node : Node) : nodesOf node.nodes = node.nodes := by
  apply nodesOf_of_elements
  intro item member
  have isElement := head?_isSome_of_mem_nodes node item member
  cases item with
  | element head children => exact ⟨head, children, rfl⟩
  | fragment items => cases isElement
  | empty => cases isElement

end ViewTree.Node
