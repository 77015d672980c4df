import Mathlib.Data.List.Basic
import ViewTree.Markup.Writer
import ViewTree.Text.Message

namespace ViewTree.Markup

/-- An attribute as it is read off a tag. One that stands by its name alone has no value. -/
abbrev Attribute := String × Option String

inductive Tree where
  | void (tag : String) (attributes : List Attribute)
  | element (tag : String) (attributes : List Attribute) (text : String) (content : List Tree)

def attributeText (escape : Bool) : Attribute → List Char
  | (name, none) => ' ' :: name.toList
  | (name, some value) => valued name (writtenValue escape value)

def tagText (escape : Bool) (tag : String) (attributes : List Attribute) : List Char :=
  tag.toList ++ attributes.flatMap (attributeText escape)

mutual

def print (escape : Bool) : Tree → List Char
  | .void tag attributes => '<' :: (tagText escape tag attributes ++ [' ', '/', '>'])
  | .element tag attributes text content =>
    '<' :: (tagText escape tag attributes ++ '>' :: (writtenText escape text ++
      printAll escape content ++ '<' :: '/' :: (tag.toList ++ ['>'])))

def printAll (escape : Bool) : List Tree → List Char
  | [] => []
  | tree :: trees => print escape tree ++ printAll escape trees

end

theorem printAll_append (escape : Bool) (left right : List Tree) :
    printAll escape (left ++ right) = printAll escape left ++ printAll escape right := by
  induction left with
  | nil => rfl
  | cons tree left ih => simp [printAll, ih]

theorem printAll_starts (escape : Bool) (trees : List Tree) (rest : List Char) :
    ∃ text, printAll escape trees ++ '<' :: rest = '<' :: text := by
  cases trees with
  | nil => exact ⟨rest, rfl⟩
  | cons tree trees => cases tree <;> exact ⟨_, rfl⟩

theorem textCharacter_free {source c : Char} (member : c ∈ textCharacter source) :
    c ≠ '<' ∧ c ≠ '>' ∧ (source ≠ '"' → c ≠ '"') := by
  unfold textCharacter at member
  split at member
  · refine ⟨?_, ?_, fun _ => ?_⟩ <;> rintro rfl <;> simp at member
  split at member
  · refine ⟨?_, ?_, fun _ => ?_⟩ <;> rintro rfl <;> simp at member
  split at member
  · refine ⟨?_, ?_, fun _ => ?_⟩ <;> rintro rfl <;> simp at member
  · rename_i less greater
    rw [List.mem_singleton] at member
    subst member
    exact ⟨less, greater, id⟩

theorem valueCharacter_free {source c : Char} (member : c ∈ valueCharacter source) :
    c ≠ '"' ∧ c ≠ '>' := by
  unfold valueCharacter at member
  split at member
  · constructor <;> rintro rfl <;> simp at member
  · rename_i quote
    obtain ⟨_, greater, other⟩ := textCharacter_free member
    exact ⟨other quote, greater⟩

theorem writtenText_free {c : Char} {text : String} (member : c ∈ writtenText true text) : c ≠ '<' := by
  obtain ⟨_, _, found⟩ := List.mem_flatMap.1 member
  exact (textCharacter_free found).1

theorem writtenValue_free {c : Char} {text : String} (member : c ∈ writtenValue true text) :
    c ≠ '"' ∧ c ≠ '>' := by
  obtain ⟨_, _, found⟩ := List.mem_flatMap.1 member
  exact valueCharacter_free found

/-- The attribute that a declared one is written as, if it is written. -/
def declaredAttribute (index : Option String) (declared : String × Scalar) : Option Attribute :=
  if index = some declared.1 then none
  else
    match declared.2.presence with
    | .omitted => none
    | .bare => some (declared.1, none)
    | .value text => some (declared.1, some text)

/-- The attributes of an element: its index, where that is shown, before the declared ones. -/
def normalAttributes (options : MarkupOptions) (head : Head) : List Attribute :=
  let index := indexAttribute? options head
  index.toList.map (fun (name, position) => (name, some (Text.decimal position.toNat))) ++
    head.attributes.filterMap (declaredAttribute (index.map Prod.fst))

mutual

def normalForm (options : MarkupOptions) : Node → List Tree
  | .element head children =>
    if head.tag ∈ voidTags then [.void head.tag (normalAttributes options head)]
    else [.element head.tag (normalAttributes options head) (head.text.shown?.getD "")
      (normalForms options children)]
  | .fragment items => normalForms options items
  | .empty => []

def normalForms (options : MarkupOptions) : List Node → List Tree
  | [] => []
  | item :: items => normalForm options item ++ normalForms options items

end

theorem normalForms_append (options : MarkupOptions) (left right : List Node) :
    normalForms options (left ++ right) = normalForms options left ++ normalForms options right := by
  induction left with
  | nil => rfl
  | cons item left ih => simp [normalForms, ih]

mutual

/-- A node has the normal form of the elements it stands for, one after another. -/
theorem normalForms_nodes (options : MarkupOptions) (node : Node) :
    normalForms options node.nodes = normalForm options node := by
  cases node with
  | element head children => simp [Node.nodes, normalForms]
  | fragment items =>
    rw [Node.nodes, normalForm]
    exact normalForms_nodesOf options items
  | empty => simp [Node.nodes, normalForms, normalForm]

theorem normalForms_nodesOf (options : MarkupOptions) (items : List Node) :
    normalForms options (Node.nodesOf items) = normalForms options items := by
  cases items with
  | nil => rfl
  | cons item items =>
    rw [Node.nodesOf, normalForms_append, normalForms_nodes options item,
      normalForms_nodesOf options items, normalForms]

end

theorem declaredAttribute_name {index : Option String} {declared : String × Scalar} {written : Attribute}
    (h : declaredAttribute index declared = some written) :
    written.1 = declared.1 ∧ index ≠ some declared.1 := by
  unfold declaredAttribute at h
  split at h
  · cases h
  · rename_i differ
    split at h <;> cases h <;> exact ⟨rfl, differ⟩

/-- The index attribute appears exactly once where an index is shown. -/
theorem index_once {options : MarkupOptions} {head : Head} {name : String} {position : UInt64}
    (shown : options.indexAttribute = some name) (indexed : head.index = some position) :
    (normalAttributes options head).filter (fun written => written.1 = name) =
      [(name, some (Text.decimal position.toNat))] := by
  have index : indexAttribute? options head = some (name, position) := by
    simp [indexAttribute?, shown, indexed]
  have others : (head.attributes.filterMap (declaredAttribute (some name))).filter
      (fun written => written.1 = name) = [] := by
    rw [List.filter_eq_nil_iff]
    intro written member
    obtain ⟨declared, _, h⟩ := List.mem_filterMap.1 member
    obtain ⟨same, differ⟩ := declaredAttribute_name h
    simpa [same] using fun equal => differ (congrArg some equal.symm)
  simp [normalAttributes, index, others]

mutual

/-- The names in a tree may be written. -/
def Legal : Tree → Prop
  | .void tag attributes => isName tag = true ∧ ∀ written ∈ attributes, isName written.1 = true
  | .element tag attributes _ content =>
    isName tag = true ∧ (∀ written ∈ attributes, isName written.1 = true) ∧ AllLegal content

def AllLegal : List Tree → Prop
  | [] => True
  | tree :: trees => Legal tree ∧ AllLegal trees

end

end ViewTree.Markup
