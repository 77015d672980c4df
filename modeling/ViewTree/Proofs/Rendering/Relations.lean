import ViewTree.Proofs.Rendering.Scope
import ViewTree.Proofs.Rendering.Steps

namespace ViewTree

def Reference.fields : Reference → List String
  | .field name => [name]
  | .data => []

def Value.fields : Value → List String
  | .reference place => place.fields
  | .empty | .constant _ => []

namespace View

def attributeFields (attributes : List (String × Value)) : List String :=
  attributes.flatMap fun declared => declared.2.fields

mutual

def fields : View → List String
  | .element _ attributes text => attributeFields attributes ++ text.fields
  | .list _ source item => source.fields ++ fields item
  | .sequence items => fieldsOf items
  | .hole => []

def fieldsOf : List View → List String
  | [] => []
  | item :: items => fields item ++ fieldsOf items

end

end View

/-- Relations that the steps of rendering keep, if only the given fields are looked up. -/
structure Kept (names : List String) (data : Data → Data → Prop) (scalar : Scalar → Scalar → Prop)
    (node : Node → Node → Prop) : Prop where
  field : ∀ {first second}, data first second → ∀ name ∈ names,
    Agree data ((Reference.field name).resolve first) ((Reference.field name).resolve second)
  items : ∀ {first second}, data first second →
    Agree (List.Forall₂ data) (Reference.data.items first) (Reference.data.items second)
  shown : ∀ {first second}, data first second → Agree scalar first.scalar second.scalar
  empty : scalar .empty .empty
  constant : ∀ text, scalar (.text text) (.text text)
  element : ∀ tag {attributes attributes' text text'},
    List.Forall₂ (fun a b => a.1 = b.1 ∧ scalar a.2 b.2) attributes attributes' → scalar text text' →
    node (.element ⟨tag, attributes, text, none⟩ []) (.element ⟨tag, attributes', text', none⟩ [])
  list : ∀ tag {children children'}, List.Forall₂ node children children' →
    node (.element (Head.ofTag tag) children) (.element (Head.ofTag tag) children')
  item : ∀ {first second} position, node first second →
    node (View.listItem first position) (View.listItem second position)
  row : ∀ {first second}, node first second → List.Forall₂ node first.nodes second.nodes
  fragment : ∀ {items items'}, List.Forall₂ node items items' → node (.fragment items) (.fragment items')
  hole : node .empty .empty

variable {names : List String} {data : Data → Data → Prop} {scalar : Scalar → Scalar → Prop}
  {node : Node → Node → Prop} {first second : Data}

theorem Reference.resolve_kept (kept : Kept names data scalar node) {place : Reference}
    (named : place.fields ⊆ names) (related : data first second) :
    Agree data (place.resolve first) (place.resolve second) := by
  cases place with
  | data => exact related
  | field name => exact kept.field related name (named List.mem_cons_self)

theorem Reference.items_kept (kept : Kept names data scalar node) {place : Reference}
    (named : place.fields ⊆ names) (related : data first second) :
    Agree (List.Forall₂ data) (place.items first) (place.items second) :=
  Agree.bind (place.resolve_kept kept named related) fun _ _ => kept.items

theorem Value.evaluate_kept (kept : Kept names data scalar node) {value : Value}
    (named : value.fields ⊆ names) (related : data first second) :
    Agree scalar (value.evaluate first) (value.evaluate second) := by
  cases value with
  | reference place => exact Agree.bind (place.resolve_kept kept named related) fun _ _ => kept.shown
  | empty => exact kept.empty
  | constant text => exact kept.constant text

namespace View

theorem attributeValues_kept (kept : Kept names data scalar node) {attributes : List (String × Value)}
    (named : attributeFields attributes ⊆ names) (related : data first second) :
    Agree (List.Forall₂ fun a b => a.1 = b.1 ∧ scalar a.2 b.2) (attributeValues attributes first)
      (attributeValues attributes second) := by
  induction attributes with
  | nil => exact .nil
  | cons declared attributes ih =>
    obtain ⟨name, value⟩ := declared
    obtain ⟨here, others⟩ := List.append_subset.1 named
    rw [attributeValues_cons, attributeValues_cons]
    apply Agree.bind (value.evaluate_kept kept here related)
    intro shown shown' same
    apply Agree.bind (ih others)
    intro rest rest' sames
    exact .cons ⟨rfl, same⟩ sames

mutual

theorem render_kept (kept : Kept names data scalar node) (view : View) (named : view.fields ⊆ names)
    {first second : Data} (related : data first second) :
    Agree node (view.render first) (view.render second) := by
  cases view with
  | element tag attributes text =>
    obtain ⟨here, inside⟩ := List.append_subset.1 named
    rw [render_element, render_element]
    apply Agree.bind (attributeValues_kept kept here related)
    intro values values' sames
    apply Agree.bind (text.evaluate_kept kept inside related)
    intro shown shown' same
    exact kept.element tag sames same
  | list numbered source item =>
    obtain ⟨here, inside⟩ := List.append_subset.1 named
    rw [render_list, render_list]
    apply Agree.bind (source.items_kept kept here related)
    intro items items' sames
    apply Agree.bind (renderEach_agree (fun _ _ same => render_kept kept item inside same)
      (fun _ _ position same => kept.item position same) sames 0)
    intro children children' same
    exact kept.list _ same
  | sequence items =>
    rw [render_sequence, render_sequence]
    exact (renderItems_kept kept items named related).map fun _ _ => kept.fragment
  | hole => exact kept.hole

theorem renderItems_kept (kept : Kept names data scalar node) (items : List View)
    (named : fieldsOf items ⊆ names) {first second : Data} (related : data first second) :
    Agree (List.Forall₂ node) (renderItems items first) (renderItems items second) := by
  cases items with
  | nil => exact .nil
  | cons item items =>
    obtain ⟨here, others⟩ := List.append_subset.1 named
    rw [renderItems_cons, renderItems_cons]
    apply Agree.bind (render_kept kept item here related)
    intro shown shown' same
    apply Agree.bind (renderItems_kept kept items others related)
    intro rest rest' sames
    exact List.rel_append (kept.row same) sames

end

end View

end ViewTree
