import ViewTree.Proofs.Markup.Skeleton
import ViewTree.Proofs.Rendering.Heads

namespace ViewTree

/-- Data with the same constructors throughout. What strings and numbers hold may differ; booleans, the
lengths of lists and the keys of dicts may not. -/
inductive Data.SameShape : Data → Data → Prop
  | none : SameShape .none .none
  | boolean (value : Bool) : SameShape (.boolean value) (.boolean value)
  | number (value value' : Number) : SameShape (.number value) (.number value')
  | string (text text' : String) : SameShape (.string text) (.string text')
  | list {items items' : List Data} (same : List.Forall₂ SameShape items items') :
    SameShape (.list items) (.list items')
  | dict {entries entries' : List (String × Data)}
    (keys : ∀ key, (Entries.find? key entries).isSome = (Entries.find? key entries').isSome)
    (values : ∀ key value value', Entries.find? key entries = some value →
      Entries.find? key entries' = some value' → SameShape value value') :
    SameShape (.dict entries) (.dict entries')

theorem Data.SameShape.entries {entries entries' : List (String × Data)}
    (same : List.Forall₂ (fun a b => a.1 = b.1 ∧ SameShape a.2 b.2) entries entries') :
    SameShape (.dict entries) (.dict entries') := by
  refine .dict ?_ ?_
  · intro key
    induction same with
    | nil => rfl
    | cons first _ ih =>
      simp only [Entries.find?, first.1]
      split
      · rfl
      · exact ih
  · intro key value value' found found'
    induction same with
    | nil => cases found
    | cons first _ ih =>
      simp only [Entries.find?, first.1] at found found'
      split at found
      · rename_i here
        rw [if_pos here] at found'
        cases found
        cases found'
        exact first.2
      · rename_i elsewhere
        rw [if_neg elsewhere] at found'
        exact ih found found'

def Scalar.outline (value : Scalar) : Scalar :=
  match value.presence with
  | .omitted => .empty
  | .bare => .boolean true
  | .value _ => .text ""

def Head.outline (head : Head) : Head :=
  { head with attributes := head.attributes.map (Prod.map id Scalar.outline), text := .empty }

namespace Node

mutual

def outline : Node → Node
  | .element head children => .element head.outline (outlines children)
  | .fragment items => .fragment (outlines items)
  | .empty => .empty

def outlines : List Node → List Node
  | [] => []
  | item :: items => outline item :: outlines items

end

mutual

theorem outline_eq_mapHeads (node : Node) : node.outline = node.mapHeads Head.outline := by
  cases node with
  | element head children => rw [outline, mapHeads, outlines_eq_mapHeadsOf children]
  | fragment items => rw [outline, mapHeads, outlines_eq_mapHeadsOf items]
  | empty => rfl

theorem outlines_eq_mapHeadsOf (items : List Node) : outlines items = mapHeadsOf Head.outline items := by
  cases items with
  | nil => rfl
  | cons item items => rw [outlines, mapHeadsOf, outline_eq_mapHeads item, outlines_eq_mapHeadsOf items]

end

end Node

theorem Head.keepsItems_outline : KeepsItems outline := ⟨fun _ => Iff.rfl, fun _ _ => rfl, rfl⟩

open Data (SameShape)

theorem Reference.resolve_agree (place : Reference) {first second : Data} (shape : first.SameShape second) :
    Agree SameShape (place.resolve first) (place.resolve second) := by
  cases place with
  | data => exact shape
  | field name =>
    cases shape with
    | @dict entries entries' keys values =>
      have key := keys name
      simp only [Reference.resolve, Data.dict?, Option.bind_some]
      cases found : Entries.find? name entries with
      | none =>
        rw [found] at key
        rw [Option.isSome_eq_false_iff.1 key.symm |> Option.isNone_iff_eq_none.1]
        rfl
      | some value =>
        rw [found] at key
        obtain ⟨value', found'⟩ := Option.isSome_iff_exists.1 key.symm
        rw [found']
        exact values name value value' found found'
    | _ => rfl

theorem Data.scalar_agree {first second : Data} (shape : first.SameShape second) :
    Agree (fun a b => a.outline = b.outline) first.scalar second.scalar := by
  cases shape <;> rfl

theorem Data.items_agree {first second : Data} (shape : first.SameShape second) :
    Agree (List.Forall₂ SameShape) (Reference.data.items first) (Reference.data.items second) := by
  cases shape with
  | list same => exact same
  | _ => rfl

theorem Kept.outline (names : List String) :
    Kept names SameShape (fun shown shown' => shown.outline = shown'.outline)
      (fun node node' => node.mapHeads Head.outline = node'.mapHeads Head.outline) := by
  apply Kept.ofHeads Head.keepsItems_outline Head.keepsItems_outline
  case field => exact fun shape name _ => (Reference.field name).resolve_agree shape
  case items => exact Data.items_agree
  case shown => exact Data.scalar_agree
  case empty => rfl
  case constant => exact fun _ => rfl
  case start =>
    intro tag attributes attributes' text text' same _
    have outlined : attributes.map (Prod.map id Scalar.outline) = attributes'.map (Prod.map id Scalar.outline) := by
      rw [← List.forall₂_eq_eq_eq, List.forall₂_map_left_iff, List.forall₂_map_right_iff]
      exact same.imp fun a b parts => Prod.ext parts.1 parts.2
    simp only [Head.outline, outlined]

theorem View.render_agree (view : View) {first second : Data} (shape : first.SameShape second) :
    Agree (fun a b => a.outline = b.outline) (view.render first) (view.render second) := by
  simp only [Node.outline_eq_mapHeads]
  exact view.render_kept (Kept.outline view.fields) (List.Subset.refl _) shape

namespace Markup

def blank : Attribute → Attribute := Prod.map id (Option.map fun _ => "")

theorem presence_outline (value : Scalar) :
    value.outline.presence =
      match value.presence with
      | .omitted => .omitted
      | .bare => .bare
      | .value _ => .value "" := by
  unfold Scalar.outline
  cases value.presence <;> rfl

theorem declaredAttribute_outline (index : Option String) (declared : String × Scalar) :
    (declaredAttribute index (Prod.map id Scalar.outline declared)).map blank =
      (declaredAttribute index declared).map blank := by
  obtain ⟨name, value⟩ := declared
  simp only [declaredAttribute, Prod.map, id, presence_outline]
  split
  · rfl
  · cases value.presence <;> rfl

theorem normalAttributes_outline (options : MarkupOptions) (head : Head) :
    (normalAttributes options head.outline).map blank = (normalAttributes options head).map blank := by
  have index : indexAttribute? options head.outline = indexAttribute? options head := rfl
  simp only [normalAttributes, index, List.map_append]
  congr 1
  simp only [Head.outline, List.filterMap_map, List.map_filterMap]
  congr 1
  funext declared
  exact declaredAttribute_outline _ declared

mutual

theorem normalForm_outline (options : MarkupOptions) (node : Node) :
    relabelAll (fun _ => "") (fun _ => "") (normalForm options node.outline) =
      relabelAll (fun _ => "") (fun _ => "") (normalForm options node) := by
  cases node with
  | element head children =>
    have tag : head.outline.tag = head.tag := rfl
    have attributes := normalAttributes_outline options head
    unfold blank at attributes
    by_cases void : head.tag ∈ voidTags
    · simp [Node.outline, normalForm, tag, void, relabelAll, relabel, attributes]
    · simp [Node.outline, normalForm, tag, void, relabelAll, relabel, attributes,
        normalForms_outlines options children]
  | fragment items => exact normalForms_outlines options items
  | empty => rfl

theorem normalForms_outlines (options : MarkupOptions) (items : List Node) :
    relabelAll (fun _ => "") (fun _ => "") (normalForms options (Node.outlines items)) =
      relabelAll (fun _ => "") (fun _ => "") (normalForms options items) := by
  cases items with
  | nil => rfl
  | cons item items =>
    rw [Node.outlines, normalForms, normalForms, relabelAll_append, relabelAll_append,
      normalForm_outline options item, normalForms_outlines options items]

end

mutual

theorem names_outline (node : Node) : names node.outline = names node := by
  cases node with
  | element head children =>
    have tag : head.outline.tag = head.tag := rfl
    have attributes : head.outline.attributes.map Prod.fst = head.attributes.map Prod.fst := by
      simp [Head.outline, Function.comp_def]
    simp only [Node.outline, names, tag, attributes, namesOf_outlines children]
  | fragment items => exact namesOf_outlines items
  | empty => rfl

theorem namesOf_outlines (items : List Node) : namesOf (Node.outlines items) = namesOf items := by
  cases items with
  | nil => rfl
  | cons item items => rw [Node.outlines, namesOf, namesOf, names_outline item, namesOf_outlines items]

end

/-- Nodes of one outline are written with one skeleton, or refused for the same name. -/
theorem write_agree {options : MarkupOptions} (escaping : options.escape = true) {first second : Node}
    (same : first.outline = second.outline) :
    (write options first).map skeleton = (write options second).map skeleton := by
  have names : allNames options first = allNames options second := by
    rw [allNames, allNames, ← names_outline first, ← names_outline second, same]
  have forms := normalForm_outline options first
  rw [same, normalForm_outline] at forms
  rw [map_skeleton_write escaping, map_skeleton_write escaping, names, forms]

end Markup

/-- The page of a view: what it renders to, as markup. -/
def View.page (view : View) (options : MarkupOptions) (context : Data) : Except RenderError String := do
  Markup.write options (← view.render context)

/-- Data of one shape makes pages that differ in their texts and values alone, or fails alike. -/
theorem View.page_structure (view : View) {options : MarkupOptions} (escaping : options.escape = true)
    {first second : Data} (shape : first.SameShape second) :
    Agree (fun markup markup' => Markup.skeleton markup = Markup.skeleton markup')
      (view.page options first) (view.page options second) := by
  apply Agree.bind (view.render_agree shape)
  intro node node' same
  exact Agree.of_map (Markup.write_agree escaping same)

theorem View.page_structure_script :
    let view : View := .sequence [.element "p" [("title", .field "note")] (.field "note"),
      .list false (.field "tasks") (.textElement "li" .data)]
    let plain : Data := .dict [("note", .string "milk"), ("tasks", .list [.number .zero, .string "x"])]
    let script : Data := .dict [("note", .string "\"><script>"), ("tasks", .list [.number .zero, .string ""])]
    plain.SameShape script ∧
      Agree (fun markup markup' => Markup.skeleton markup = Markup.skeleton markup')
        (view.page Markup.defaultOptions plain) (view.page Markup.defaultOptions script) := by
  intro view plain script
  have tasks : Data.SameShape (.list [.number .zero, .string "x"]) (.list [.number .zero, .string ""]) :=
    .list (.cons (.number _ _) (.cons (.string _ _) .nil))
  have shape : plain.SameShape script :=
    .entries (.cons ⟨rfl, .string _ _⟩ (.cons ⟨rfl, tasks⟩ .nil))
  exact ⟨shape, View.page_structure view rfl shape⟩

end ViewTree
