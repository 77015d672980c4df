import ViewTree.Proofs.Markup.Refusal
import ViewTree.Proofs.Node.Elements

namespace ViewTree

namespace Node

mutual

/-- A node with what the children of each element stand for in the place of the children. -/
def spliced : Node → Node
  | .element head children => .element head (nodesOf (splicedItems children))
  | .fragment items => .fragment (splicedItems items)
  | .empty => .empty

def splicedItems : List Node → List Node
  | [] => []
  | item :: items => spliced item :: splicedItems items

end

def flattened (node : Node) : Node := .fragment node.spliced.nodes

mutual

theorem children_spliced (node : Node) :
    ∀ part ∈ node.spliced.elements, ∀ child ∈ part.2, child.head?.isSome := by
  cases node with
  | element head children =>
    rw [spliced, elements, List.forall_mem_cons, elementsOf_nodesOf]
    exact ⟨head?_isSome_of_mem_nodesOf _, children_splicedItems children⟩
  | fragment items => exact children_splicedItems items
  | empty => exact fun _ => nofun

theorem children_splicedItems (items : List Node) :
    ∀ part ∈ elementsOf (splicedItems items), ∀ child ∈ part.2, child.head?.isSome := by
  cases items with
  | nil => exact fun _ => nofun
  | cons item items =>
    rw [splicedItems, elementsOf, List.forall_mem_append]
    exact ⟨children_spliced item, children_splicedItems items⟩

end

theorem children_flattened (node : Node) :
    ∀ part ∈ node.flattened.elements, ∀ child ∈ part.2, child.head?.isSome := by
  rw [flattened, elements, elementsOf_nodes]
  exact children_spliced node

end Node

namespace Markup

theorem nodes_append (options : MarkupOptions) (left right : List Node) :
    nodes options (left ++ right) = (do
      let first ← nodes options left
      let rest ← nodes options right
      .ok (first ++ rest)) := by
  induction left with
  | nil =>
    rw [List.nil_append, nodes]
    cases nodes options right <;> rfl
  | cons item left ih =>
    simp only [List.cons_append, nodes, ih, bind_assoc]
    cases node options item with
    | error e => rfl
    | ok first =>
      cases nodes options left with
      | error e => rfl
      | ok middle =>
        cases nodes options right with
        | error e => rfl
        | ok rest => exact congrArg Except.ok (List.append_assoc first middle rest).symm

mutual

theorem nodes_nodes (options : MarkupOptions) (root : Node) : nodes options root.nodes = node options root := by
  cases root with
  | element head children =>
    rw [Node.nodes, nodes, nodes]
    cases node options (.element head children) with
    | error e => rfl
    | ok written => exact congrArg Except.ok (List.append_nil written)
  | fragment items => exact nodes_nodesOf options items
  | empty => rfl

theorem nodes_nodesOf (options : MarkupOptions) (items : List Node) :
    nodes options (Node.nodesOf items) = nodes options items := by
  cases items with
  | nil => rfl
  | cons item items => rw [Node.nodesOf, nodes_append, nodes_nodes options item, nodes_nodesOf options items, nodes]

end

theorem write_congr {first second : Node} (same : first.nodes = second.nodes) (options : MarkupOptions) :
    write options first = write options second := by
  have written : node options first = node options second := by
    rw [← nodes_nodes, ← nodes_nodes, same]
  rw [write, write, written]

mutual

theorem node_spliced (options : MarkupOptions) (root : Node) : node options root.spliced = node options root := by
  cases root with
  | element head children =>
    rw [Node.spliced, node, node, nodes_nodesOf, nodes_splicedItems options children]
  | fragment items => exact nodes_splicedItems options items
  | empty => rfl

theorem nodes_splicedItems (options : MarkupOptions) (items : List Node) :
    nodes options (Node.splicedItems items) = nodes options items := by
  cases items with
  | nil => rfl
  | cons item items => rw [Node.splicedItems, nodes, nodes, node_spliced options item, nodes_splicedItems options items]

end

theorem node_flattened (options : MarkupOptions) (root : Node) : node options root.flattened = node options root := by
  rw [Node.flattened, node, nodes_nodes, node_spliced]

theorem printAll_eq_nil {escape : Bool} {trees : List Tree} : printAll escape trees = [] ↔ trees = [] := by
  cases trees with
  | nil => simp [printAll]
  | cons tree trees => cases tree <;> simp [printAll, print]

theorem normalForm_eq_nil {options : MarkupOptions} {root : Node} :
    normalForm options root = [] ↔ root.isEmpty = true := by
  have only := Node.head?_isSome_of_mem_nodes root
  rw [← normalForms_nodes, Node.isEmpty_iff]
  generalize root.nodes = row at only ⊢
  cases row with
  | nil => simp [normalForms]
  | cons first rest =>
    cases first with
    | element head children =>
      simp only [normalForms, normalForm]
      split <;> simp
    | _ => cases only _ List.mem_cons_self

theorem write_eq_checked (options : MarkupOptions) (root : Node) :
    write options root = (do
      checkNames options.indexAttribute.toList
      .ok (String.ofList (← node options root))) := by
  unfold write
  cases options.indexAttribute with
  | none => rfl
  | some name =>
    simp only [Option.toList_some, checkNames]
    cases checkName name <;> rfl

theorem write_eq_empty {options : MarkupOptions} {root : Node}
    (index : ∀ name ∈ options.indexAttribute, ¬Illegal name) :
    write options root = .ok "" ↔ root.isEmpty = true := by
  constructor
  · intro written
    have printed : printAll options.escape (normalForm options root) = [] := by
      simpa using (write_ok written).2.symm
    exact normalForm_eq_nil.1 (printAll_eq_nil.1 printed)
  · intro empty
    have checked : checkNames options.indexAttribute.toList = .ok () := by
      rw [checkNames_ok_iff]
      exact fun name member => isName_eq_true.2 (index name (Option.mem_toList.1 member))
    have nothing : node options root = .ok [] := by
      rw [← nodes_nodes, root.isEmpty_iff.1 empty, nodes]
    rw [write_eq_checked, checked, nothing]
    rfl

/-- A row of nodes is written as the rows it is put together from, and refused as the first of them that is. -/
theorem write_append (options : MarkupOptions) (left right : List Node) :
    write options (.fragment (left ++ right)) = (do
      let first ← write options (.fragment left)
      let rest ← write options (.fragment right)
      .ok (first ++ rest)) := by
  simp only [write_eq_checked, node, nodes_append]
  cases checkNames options.indexAttribute.toList with
  | error e => rfl
  | ok _ =>
    cases nodes options left with
    | error e => rfl
    | ok first =>
      cases nodes options right with
      | error e => rfl
      | ok rest => exact congrArg Except.ok String.ofList_append

/-- What a node stands for is elements, and stands for itself. Neither this nor laying the node out as elements at
every depth shows in what is written, which is nothing just where there is no element. -/
theorem write_flattened (options : MarkupOptions) (root : Node) :
    (∀ node ∈ root.nodes, node.head?.isSome) ∧ Node.nodes (.fragment root.nodes) = root.nodes ∧
    (root.isEmpty = true ↔ root.nodes = []) ∧
    (∀ part ∈ root.flattened.elements, ∀ child ∈ part.2, child.head?.isSome) ∧
    write options root.flattened = write options root ∧
    ((∀ name ∈ options.indexAttribute, ¬Illegal name) → (write options root = .ok "" ↔ root.isEmpty = true)) ∧
    ∀ left right, write options (.fragment (left ++ right)) = (do
      let first ← write options (.fragment left)
      let rest ← write options (.fragment right)
      .ok (first ++ rest)) := by
  have written : write options root.flattened = write options root := by
    rw [write_eq_checked, write_eq_checked, node_flattened]
  exact ⟨root.head?_isSome_of_mem_nodes, root.nodesOf_nodes, root.isEmpty_iff, root.children_flattened, written,
    write_eq_empty, write_append options⟩

theorem write_flattened_rows :
    let line : Node := .element (Head.ofTag "br") [.empty, .element (Head.ofTag "<") []]
    let root (inside : List Node) : Node :=
      .fragment [.empty, .fragment [.element ⟨"p", [("at", .text "a")], .empty, some 7⟩ inside, .fragment []]]
    let deep := root [.fragment [.empty, .fragment [line]], .empty]
    let options : MarkupOptions := ⟨some "at", true⟩
    deep.flattened = .fragment [.element ⟨"p", [("at", .text "a")], .empty, some 7⟩
        [.element (Head.ofTag "br") [.element (Head.ofTag "<") []]]] ∧
      write options deep.flattened = write options deep ∧
      (∀ name ∈ options.indexAttribute, ¬Illegal name) ∧ write options deep ≠ .ok "" ∧
      write options (.fragment [.empty, .fragment []]) = .ok "" := by
  intro line root deep options
  have index : ∀ name ∈ options.indexAttribute, ¬Illegal name := by
    intro name given
    cases given
    decide
  obtain ⟨-, -, -, -, written, nothing, -⟩ := write_flattened options deep
  obtain ⟨-, -, -, -, -, nothing', -⟩ := write_flattened options (.fragment [.empty, .fragment []])
  have some : ¬deep.isEmpty = true := by decide
  exact ⟨rfl, written, index, mt (nothing index).1 some, (nothing' index).2 rfl⟩

end Markup

end ViewTree
