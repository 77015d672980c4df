import ViewTree.Proofs.Rendering.Relations

namespace ViewTree

namespace Node

mutual

def mapHeads (f : Head → Head) : Node → Node
  | .element head children => .element (f head) (mapHeadsOf f children)
  | .fragment items => .fragment (mapHeadsOf f items)
  | .empty => .empty

def mapHeadsOf (f : Head → Head) : List Node → List Node
  | [] => []
  | item :: items => mapHeads f item :: mapHeadsOf f items

end

theorem mapHeadsOf_eq_map (f : Head → Head) (items : List Node) : mapHeadsOf f items = items.map (mapHeads f) := by
  induction items with
  | nil => rfl
  | cons item items ih => rw [mapHeadsOf, ih, List.map_cons]

theorem mapHeadsOf_append (f : Head → Head) (left right : List Node) :
    mapHeadsOf f (left ++ right) = mapHeadsOf f left ++ mapHeadsOf f right := by
  simp only [mapHeadsOf_eq_map, List.map_append]

theorem mapHeadsOf_eq_iff {f g : Head → Head} {items items' : List Node} :
    mapHeadsOf f items = mapHeadsOf g items' ↔
      List.Forall₂ (fun a b => a.mapHeads f = b.mapHeads g) items items' := by
  rw [mapHeadsOf_eq_map, mapHeadsOf_eq_map, ← List.forall₂_eq_eq_eq, List.forall₂_map_left_iff,
    List.forall₂_map_right_iff]

mutual

theorem mapHeads_id (node : Node) : node.mapHeads id = node := by
  cases node with
  | element head children => rw [mapHeads, mapHeadsOf_id children, id]
  | fragment items => rw [mapHeads, mapHeadsOf_id items]
  | empty => rfl

theorem mapHeadsOf_id (items : List Node) : mapHeadsOf id items = items := by
  cases items with
  | nil => rfl
  | cons item items => rw [mapHeadsOf, mapHeads_id item, mapHeadsOf_id items]

end

mutual

theorem nodes_mapHeads (f : Head → Head) (node : Node) : (node.mapHeads f).nodes = mapHeadsOf f node.nodes := by
  cases node with
  | element head children => rfl
  | fragment items => exact nodesOf_mapHeadsOf f items
  | empty => rfl

theorem nodesOf_mapHeadsOf (f : Head → Head) (items : List Node) :
    nodesOf (mapHeadsOf f items) = mapHeadsOf f (nodesOf items) := by
  cases items with
  | nil => rfl
  | cons item items =>
    rw [mapHeadsOf, nodesOf, nodesOf, mapHeadsOf_append, nodes_mapHeads f item, nodesOf_mapHeadsOf f items]

end

end Node

/-- A change of heads that leaves items items and their indices alone. -/
structure Head.KeepsItems (f : Head → Head) : Prop where
  tag : ∀ head, (f head).tag = View.itemTag ↔ head.tag = View.itemTag
  indexed : ∀ (head : Head) (index : Option UInt64), f { head with index } = { f head with index }
  fresh : f (Head.ofTag View.itemTag) = Head.ofTag View.itemTag

theorem Head.keepsItems_id : KeepsItems id := ⟨fun _ => Iff.rfl, fun _ _ => rfl, rfl⟩

namespace View

variable {f g : Head → Head}

theorem soleItem?_mapHeadsOf (keeps : Head.KeepsItems f) (nodes : List Node) :
    soleItem? (Node.mapHeadsOf f nodes) = (soleItem? nodes).map (Prod.map f (Node.mapHeadsOf f)) := by
  match nodes with
  | [] => rfl
  | [.element head children] =>
    simp only [Node.mapHeadsOf, Node.mapHeads, soleItem?, keeps.tag head]
    split <;> rfl
  | [.fragment _] => rfl
  | [.empty] => rfl
  | first :: _ :: _ => cases first <;> rfl

theorem listItem_mapHeads (keeps : Head.KeepsItems f) (node : Node) (position : Nat) :
    (listItem node position).mapHeads f = listItem (node.mapHeads f) position := by
  unfold listItem
  rw [Node.nodes_mapHeads, soleItem?_mapHeadsOf keeps]
  cases soleItem? node.nodes with
  | none =>
    show Node.element (f { Head.ofTag itemTag with index := _ }) _ = _
    rw [keeps.indexed, keeps.fresh]
    rfl
  | some sole =>
    show Node.element (f { sole.1 with index := _ }) _ = _
    rw [keeps.indexed]
    rfl

theorem listItem_mapHeads_congr (keeps : Head.KeepsItems f) (keeps' : Head.KeepsItems g) {node node' : Node}
    (same : node.mapHeads f = node'.mapHeads g) (position : Nat) :
    (listItem node position).mapHeads f = (listItem node' position).mapHeads g := by
  rw [listItem_mapHeads keeps, listItem_mapHeads keeps', same]

end View

theorem Kept.ofHeads {names : List String} {data : Data → Data → Prop} {scalar : Scalar → Scalar → Prop}
    {f g : Head → Head} (keeps : Head.KeepsItems f) (keeps' : Head.KeepsItems g)
    (field : ∀ {first second}, data first second → ∀ name ∈ names,
      Agree data ((Reference.field name).resolve first) ((Reference.field name).resolve second))
    (items : ∀ {first second}, data first second →
      Agree (List.Forall₂ data) (Reference.data.items first) (Reference.data.items second))
    (shown : ∀ {first second}, data first second → Agree scalar first.scalar second.scalar)
    (empty : scalar .empty .empty) (constant : ∀ text, scalar (.text text) (.text text))
    (start : ∀ tag {attributes attributes' text text'},
      List.Forall₂ (fun a b => a.1 = b.1 ∧ scalar a.2 b.2) attributes attributes' → scalar text text' →
      f ⟨tag, attributes, text, none⟩ = g ⟨tag, attributes', text', none⟩) :
    Kept names data scalar fun node node' => node.mapHeads f = node'.mapHeads g where
  field := field
  items := items
  shown := shown
  empty := empty
  constant := constant
  element := by
    intro tag attributes attributes' text text' same inside
    rw [Node.mapHeads, Node.mapHeads, start tag same inside]
    rfl
  list := by
    intro tag children children' same
    have tagged : f (Head.ofTag tag) = g (Head.ofTag tag) := start tag .nil empty
    rw [Node.mapHeads, Node.mapHeads, tagged, Node.mapHeadsOf_eq_iff.2 same]
  item position same := View.listItem_mapHeads_congr keeps keeps' same position
  row := by
    intro first second same
    rw [← Node.mapHeadsOf_eq_iff, ← Node.nodes_mapHeads, ← Node.nodes_mapHeads, same]
  fragment same := congrArg Node.fragment (Node.mapHeadsOf_eq_iff.2 same)
  hole := rfl

end ViewTree
