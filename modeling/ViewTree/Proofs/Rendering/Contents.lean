import ViewTree.Proofs.Node.Elements
import ViewTree.Proofs.Rendering.Scope
import ViewTree.Proofs.Rendering.Steps

namespace ViewTree

structure Content where
  tag : String
  attributes : List (String × Scalar)
  text : Scalar

namespace Content

def isBare (content : Content) : Bool := content.attributes.isEmpty && content.text.isEmpty

def kept (contents : List Content) : List Content := contents.filter fun content => !content.isBare

theorem kept_append (left right : List Content) : kept (left ++ right) = kept left ++ kept right :=
  List.filter_append left right

end Content

def Head.content (head : Head) : Content := ⟨head.tag, head.attributes, head.text⟩

namespace Node

def contents (node : Node) : List Content := node.elements.map fun part => part.1.content

def contentsOf (items : List Node) : List Content := (elementsOf items).map fun part => part.1.content

theorem contentsOf_nodes (node : Node) : contentsOf node.nodes = node.contents := by
  rw [contentsOf, elementsOf_nodes, contents]

theorem contentsOf_cons (item : Node) (items : List Node) :
    contentsOf (item :: items) = item.contents ++ contentsOf items := by
  rw [contentsOf, elementsOf, List.map_append, contents, contentsOf]

theorem contentsOf_append (left right : List Node) :
    contentsOf (left ++ right) = contentsOf left ++ contentsOf right := by
  rw [contentsOf, elementsOf_append, List.map_append, contentsOf, contentsOf]

theorem kept_contents_bare {head : Head} (bare : head.content.isBare) (children : List Node) :
    Content.kept (contents (.element head children)) = Content.kept (contentsOf children) := by
  rw [contents, elements, List.map_cons, Content.kept, List.filter_cons_of_neg (by simp [bare])]
  rfl

end Node

/-- An element that rendering comes to, with the data in scope there. -/
structure Execution where
  tag : String
  attributes : List (String × Value)
  text : Value
  context : Data

/-- The attributes, in the order they are declared in, and the text stand for what is shown. -/
structure Execution.Shows (execution : Execution) (content : Content) : Prop where
  tag : content.tag = execution.tag
  attributes : List.Forall₂
    (fun declared shown => shown.1 = declared.1 ∧ declared.2.evaluate execution.context = .ok shown.2)
    execution.attributes content.attributes
  text : execution.text.evaluate execution.context = .ok content.text

namespace View

mutual

/-- The elements that rendering comes to, those of the item of a list once for each item of its source. -/
def executions : View → Data → List Execution
  | .element tag attributes text, context => [⟨tag, attributes, text, context⟩]
  | .list _ source item, context => (source.listed context).flatMap (executions item)
  | .sequence items, context => executionsOf items context
  | .hole, _ => []

def executionsOf : List View → Data → List Execution
  | [], _ => []
  | item :: items, context => executions item context ++ executionsOf items context

end

theorem attributeValues_shows {attributes : List (String × Value)} {context : Data}
    {values : List (String × Scalar)} (shown : attributeValues attributes context = .ok values) :
    List.Forall₂ (fun declared shown => shown.1 = declared.1 ∧ declared.2.evaluate context = .ok shown.2)
      attributes values := by
  induction attributes generalizing values with
  | nil =>
    cases shown
    exact .nil
  | cons declared attributes ih =>
    obtain ⟨name, value⟩ := declared
    rw [attributeValues_cons] at shown
    obtain ⟨first, evaluated, shown⟩ := bind_eq_ok.1 shown
    obtain ⟨rest, others, shown⟩ := bind_eq_ok.1 shown
    cases shown
    exact .cons ⟨rfl, evaluated⟩ (ih others)

theorem kept_listItem (node : Node) (position : Nat) :
    Content.kept (listItem node position).contents = Content.kept node.contents := by
  rw [← Node.contentsOf_nodes node]
  rcases listItem_cases node position with ⟨head, children, same, -, made⟩ | ⟨-, made⟩
  · rw [made, same, Node.contentsOf_cons]
    exact congrArg Content.kept (List.append_nil _).symm
  · rw [made]
    exact Node.kept_contents_bare rfl node.nodes

/-- Something is rendered in full: what its elements show is what it holds, bare elements left out. -/
def Accounts (executions : List Execution) (found : List Content) : Prop :=
  ∃ contents, List.Forall₂ Execution.Shows executions contents ∧
    Content.kept found = Content.kept contents

theorem Accounts.append {first second : List Execution} {found found' : List Content}
    (left : Accounts first found) (right : Accounts second found') :
    Accounts (first ++ second) (found ++ found') := by
  obtain ⟨contents, shows, same⟩ := left
  obtain ⟨contents', shows', same'⟩ := right
  refine ⟨contents ++ contents', List.rel_append shows shows', ?_⟩
  rw [Content.kept_append, Content.kept_append, same, same']

theorem Accounts.of_kept {executions : List Execution} {found found' : List Content}
    (accounts : Accounts executions found) (same : Content.kept found' = Content.kept found) :
    Accounts executions found' := by
  obtain ⟨contents, shows, kept⟩ := accounts
  exact ⟨contents, shows, same.trans kept⟩

theorem renderEach_accounts {item : View}
    (each : ∀ context node, item.render context = .ok node → Accounts (item.executions context) node.contents)
    {position : Nat} {items : List Data} {children : List Node}
    (rendered : renderEach item position items = .ok children) :
    Accounts (items.flatMap item.executions) (Node.contentsOf children) := by
  induction items generalizing position children with
  | nil =>
    cases rendered
    exact ⟨[], .nil, rfl⟩
  | cons data items ih =>
    obtain ⟨node, rest, first, others, rfl⟩ := renderEach_cons_eq_ok.1 rendered
    rw [List.flatMap_cons, Node.contentsOf_cons]
    exact ((each data node first).of_kept (kept_listItem node position)).append (ih others)

mutual

theorem render_accounts (view : View) {context : Data} {node : Node}
    (rendered : view.render context = .ok node) : Accounts (view.executions context) node.contents := by
  cases view with
  | element tag attributes text =>
    obtain ⟨values, shown, evaluated, seen, rfl⟩ := render_element_eq_ok.1 rendered
    have shows : Execution.Shows ⟨tag, attributes, text, context⟩ ⟨tag, values, shown⟩ :=
      ⟨rfl, attributeValues_shows evaluated, seen⟩
    exact ⟨[⟨tag, values, shown⟩], .cons shows .nil, rfl⟩
  | list numbered source item =>
    obtain ⟨items, children, given, each, rfl⟩ := render_list_eq_ok.1 rendered
    rw [executions, Reference.listed_of_leads (Reference.items_eq_ok.1 given)]
    have parts := renderEach_accounts (fun _ _ => render_accounts item) each
    exact parts.of_kept (Node.kept_contents_bare rfl children)
  | sequence items =>
    obtain ⟨nodes, each, rfl⟩ := render_sequence_eq_ok.1 rendered
    exact renderItems_accounts items each
  | hole =>
    cases rendered
    exact ⟨[], .nil, rfl⟩

theorem renderItems_accounts (items : List View) {context : Data} {nodes : List Node}
    (rendered : renderItems items context = .ok nodes) :
    Accounts (executionsOf items context) (Node.contentsOf nodes) := by
  cases items with
  | nil =>
    cases rendered
    exact ⟨[], .nil, rfl⟩
  | cons item items =>
    obtain ⟨node, rest, first, others, rfl⟩ := renderItems_cons_eq_ok.1 rendered
    rw [executionsOf, Node.contentsOf_append, Node.contentsOf_nodes]
    exact (render_accounts item first).append (renderItems_accounts items others)

end

theorem render_contents (view : View) {context : Data} {node : Node}
    (rendered : view.render context = .ok node) :
    ∃ contents, List.Forall₂ Execution.Shows (view.executions context) contents ∧
      node.contents.filter (fun content => !content.isBare) =
        contents.filter fun content => !content.isBare :=
  render_accounts view rendered

theorem render_contents_rows :
    let view : View := .sequence [.element "h1" [("id", .constant "top")] (.field "title"), .hole,
      .list false (.field "rows") (.list true .data (.sequence [.textElement "li" .data, .hole]))]
    let context : Data := .dict [
      ("rows", .list [.list [.string "a", .none], .list [], .list [.number .zero]]),
      ("title", .boolean true)]
    ∃ node, view.render context = .ok node ∧
      ∃ contents, List.Forall₂ Execution.Shows (view.executions context) contents ∧
        node.contents.filter (fun content => !content.isBare) =
          contents.filter fun content => !content.isBare := by
  intro view context
  have rendered : ∃ node, view.render context = .ok node := ⟨_, rfl⟩
  obtain ⟨node, rendered⟩ := rendered
  exact ⟨node, rendered, render_contents view rendered⟩

end View

end ViewTree
