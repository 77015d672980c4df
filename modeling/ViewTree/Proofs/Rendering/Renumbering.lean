import ViewTree.Proofs.Rendering.Heads

namespace ViewTree

def Scalar.renumber (f : Number → Number) : Scalar → Scalar
  | .number value => .number (f value)
  | value => value

def Head.renumber (f : Number → Number) (head : Head) : Head :=
  { head with
    attributes := head.attributes.map (Prod.map id (Scalar.renumber f))
    text := head.text.renumber f }

namespace Node

mutual

def renumber (f : Number → Number) : Node → Node
  | .element head children => .element (head.renumber f) (renumberItems f children)
  | .fragment items => .fragment (renumberItems f items)
  | .empty => .empty

def renumberItems (f : Number → Number) : List Node → List Node
  | [] => []
  | item :: items => renumber f item :: renumberItems f items

end

mutual

theorem renumber_eq_mapHeads (f : Number → Number) (node : Node) :
    node.renumber f = node.mapHeads (Head.renumber f) := by
  cases node with
  | element head children => rw [renumber, mapHeads, renumberItems_eq_mapHeadsOf f children]
  | fragment items => rw [renumber, mapHeads, renumberItems_eq_mapHeadsOf f items]
  | empty => rfl

theorem renumberItems_eq_mapHeadsOf (f : Number → Number) (items : List Node) :
    renumberItems f items = mapHeadsOf (Head.renumber f) items := by
  cases items with
  | nil => rfl
  | cons item items =>
    rw [renumberItems, mapHeadsOf, renumber_eq_mapHeads f item, renumberItems_eq_mapHeadsOf f items]

end

theorem nodes_renumber (f : Number → Number) (node : Node) :
    (node.renumber f).nodes = renumberItems f node.nodes := by
  rw [renumber_eq_mapHeads, renumberItems_eq_mapHeadsOf, nodes_mapHeads]

end Node

theorem Head.keepsItems_renumber (f : Number → Number) : KeepsItems (renumber f) :=
  ⟨fun _ => Iff.rfl, fun _ _ => rfl, rfl⟩

namespace Data

mutual

def renumber (f : Number → Number) : Data → Data
  | .number value => .number (f value)
  | .list items => .list (renumberItems f items)
  | .dict entries => .dict (renumberEntries f entries)
  | data => data

def renumberItems (f : Number → Number) : List Data → List Data
  | [] => []
  | item :: items => renumber f item :: renumberItems f items

def renumberEntries (f : Number → Number) : List (String × Data) → List (String × Data)
  | [] => []
  | (key, value) :: entries => (key, renumber f value) :: renumberEntries f entries

end

theorem find?_renumberEntries (f : Number → Number) (name : String) (entries : List (String × Data)) :
    Entries.find? name (renumberEntries f entries) = (Entries.find? name entries).map (renumber f) := by
  induction entries with
  | nil => rfl
  | cons entry entries ih =>
    rw [renumberEntries, Entries.find?, Entries.find?, ih]
    split <;> rfl

theorem resolve_renumber (f : Number → Number) (name : String) (context : Data) :
    Agree (fun found found' => found' = found.renumber f) ((Reference.field name).resolve context)
      ((Reference.field name).resolve (context.renumber f)) := by
  cases context with
  | dict entries =>
    simp only [Reference.resolve, renumber, dict?, Option.bind_some, find?_renumberEntries]
    cases Entries.find? name entries <;> rfl
  | _ => rfl

theorem renumberItems_renumbered (f : Number → Number) (items : List Data) :
    List.Forall₂ (fun item item' => item' = item.renumber f) items (renumberItems f items) := by
  induction items with
  | nil => exact .nil
  | cons item items ih => exact .cons rfl ih

theorem items_renumber (f : Number → Number) (context : Data) :
    Agree (List.Forall₂ fun item item' => item' = item.renumber f) (Reference.data.items context)
      (Reference.data.items (context.renumber f)) := by
  cases context with
  | list items => exact renumberItems_renumbered f items
  | _ => rfl

theorem scalar_renumber (f : Number → Number) (context : Data) :
    Agree (fun shown shown' => shown' = shown.renumber f) context.scalar (context.renumber f).scalar := by
  cases context <;> rfl

end Data

theorem Kept.renumber (names : List String) (f : Number → Number) :
    Kept names (fun context context' => context' = context.renumber f)
      (fun shown shown' => shown' = shown.renumber f)
      (fun node node' => node.mapHeads (Head.renumber f) = node'.mapHeads id) := by
  apply Kept.ofHeads (Head.keepsItems_renumber f) Head.keepsItems_id
  case field =>
    rintro first _ rfl name _
    exact Data.resolve_renumber f name first
  case items =>
    rintro first _ rfl
    exact Data.items_renumber f first
  case shown =>
    rintro first _ rfl
    exact Data.scalar_renumber f first
  case empty => rfl
  case constant => exact fun _ => rfl
  case start =>
    intro tag attributes attributes' text text' same inside
    have pairs : attributes.map (Prod.map id (Scalar.renumber f)) = attributes' := by
      rw [← List.forall₂_eq_eq_eq, List.forall₂_map_left_iff]
      exact same.imp fun a b parts => Prod.ext parts.1 parts.2.symm
    rw [Head.renumber, pairs, inside, id]

theorem View.render_renumber (f : Number → Number) (view : View) (context : Data) :
    Agree (fun node node' => node' = node.renumber f) (view.render context)
      (view.render (context.renumber f)) := by
  apply (view.render_kept (Kept.renumber view.fields f) (List.Subset.refl _) rfl).imp
  intro node node' _ _ same
  rw [Node.renumber_eq_mapHeads, same, Node.mapHeads_id]

theorem Number.equal_self (number : Number) : number.equal number = true := by
  cases number <;> simp [equal]

theorem Scalar.equal_self (value : Scalar) : value.equal value = true := by
  cases value with
  | number number => exact number.equal_self
  | _ => simp [equal]

theorem Head.equalAttributes_self (attributes : List (String × Scalar)) :
    equalAttributes attributes attributes = true := by
  induction attributes with
  | nil => rfl
  | cons declared attributes ih => simp [equalAttributes, declared.2.equal_self, ih]

theorem Head.equal_self (head : Head) : head.equal head = true := by
  simp [equal, equalAttributes_self, head.text.equal_self]

mutual

theorem Node.equal_self (node : Node) : node.equal node = true := by
  cases node with
  | element head children => simp [equal, head.equal_self, equalItems_self children]
  | fragment items => exact equalItems_self items
  | empty => rfl

theorem Node.equalItems_self (items : List Node) : equalItems items items = true := by
  cases items with
  | nil => rfl
  | cons item items => simp [equalItems, equal_self item, equalItems_self items]

end

/-- Different numbers may be equal by value, but not once they are replaced by numbers that differ more. -/
theorem Number.eq_of_equal {a b : Number} (same : ∀ f : Number → Number, (f a).equal (f b)) : a = b := by
  by_contra differ
  have apart := same fun number => if number = a then .integer 0 (by decide) else .integer 1 (by decide)
  rw [if_pos rfl, if_neg (Ne.symm differ)] at apart
  exact absurd apart (by decide)

theorem Scalar.eq_of_equal {a b : Scalar}
    (same : ∀ f : Number → Number, (a.renumber f).equal (b.renumber f)) : a = b := by
  cases a with
  | empty =>
    cases b with
    | empty => rfl
    | _ => cases same id
  | text shown =>
    cases b with
    | text shown' => exact congrArg Scalar.text (of_decide_eq_true (same id))
    | _ => cases same id
  | number value =>
    cases b with
    | number value' => exact congrArg Scalar.number (Number.eq_of_equal same)
    | _ => cases same id
  | boolean value =>
    cases b with
    | boolean value' => exact congrArg Scalar.boolean (of_decide_eq_true (same id))
    | _ => cases same id

theorem Head.equalAttributes_eq {as bs : List (String × Scalar)}
    (same : ∀ f : Number → Number, equalAttributes (as.map (Prod.map id (Scalar.renumber f)))
      (bs.map (Prod.map id (Scalar.renumber f)))) : as = bs := by
  induction as generalizing bs with
  | nil =>
    cases bs with
    | nil => rfl
    | cons b bs => cases same id
  | cons a as ih =>
    cases bs with
    | nil => cases same id
    | cons b bs =>
      simp only [List.map_cons, Prod.map, equalAttributes, Bool.and_eq_true, decide_eq_true_eq, id] at same
      have first : a.2 = b.2 := Scalar.eq_of_equal fun f => (same f).1.2
      rw [Prod.ext (same id).1.1 first, ih fun f => (same f).2]

theorem Head.eq_of_equal {a b : Head} (same : ∀ f : Number → Number, (a.renumber f).equal (b.renumber f)) :
    a = b := by
  obtain ⟨tag, attributes, text, index⟩ := a
  obtain ⟨tag', attributes', text', index'⟩ := b
  simp only [renumber, equal, Bool.and_eq_true] at same
  have declared : attributes = attributes' := equalAttributes_eq fun f => (same f).1.1.2
  have shown : text = text' := Scalar.eq_of_equal fun f => (same f).1.2
  rw [of_decide_eq_true (same id).1.1.1, declared, shown, of_decide_eq_true (same id).2]

namespace Node

mutual

theorem eq_of_equal (a b : Node) (same : ∀ f : Number → Number, (a.renumber f).equal (b.renumber f)) :
    a = b := by
  cases a with
  | element head children =>
    cases b with
    | element head' children' =>
      simp only [renumber, equal, Bool.and_eq_true] at same
      rw [Head.eq_of_equal fun f => (same f).1, items_eq_of_equal children children' fun f => (same f).2]
    | _ => cases same id
  | fragment items =>
    cases b with
    | fragment items' => rw [items_eq_of_equal items items' same]
    | _ => cases same id
  | empty =>
    cases b with
    | empty => rfl
    | _ => cases same id

theorem items_eq_of_equal (as bs : List Node)
    (same : ∀ f : Number → Number, equalItems (renumberItems f as) (renumberItems f bs)) : as = bs := by
  cases as with
  | nil =>
    cases bs with
    | nil => rfl
    | cons b bs => cases same id
  | cons a as =>
    cases bs with
    | nil => cases same id
    | cons b bs =>
      simp only [renumberItems, equalItems, Bool.and_eq_true] at same
      rw [eq_of_equal a b fun f => (same f).1, items_eq_of_equal as bs fun f => (same f).2]

end

end Node

/-- Views that always render to elements equal by value render to the very same elements. -/
theorem View.nodes_eq_of_equal {a b : View}
    (same : ∀ context, Agree (fun node node' => Node.equalItems node.nodes node'.nodes = true)
      (a.render context) (b.render context)) (context : Data) :
    Agree (fun node node' => node.nodes = node'.nodes) (a.render context) (b.render context) := by
  apply (same context).imp
  intro node node' first second _
  apply Node.items_eq_of_equal
  intro f
  have left := a.render_renumber f context
  have right := b.render_renumber f context
  rw [first] at left
  rw [second] at right
  have renumbered := same (context.renumber f)
  rw [left.ok_eq, right.ok_eq] at renumbered
  rw [← Node.nodes_renumber, ← Node.nodes_renumber]
  exact renumbered

end ViewTree
