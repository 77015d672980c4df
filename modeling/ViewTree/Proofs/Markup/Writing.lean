import ViewTree.Proofs.Markup.Tree

namespace ViewTree.Markup

mutual

/-- The names that are written or could be, in the order in which the writer meets them. What stands
inside a void element is not met. -/
def names : Node → List String
  | .element head children =>
    head.tag :: head.attributes.map Prod.fst ++ if head.tag ∈ voidTags then [] else namesOf children
  | .fragment items => namesOf items
  | .empty => []

def namesOf : List Node → List String
  | [] => []
  | item :: items => names item ++ namesOf items

end

def checkNames : List String → Except RenderError Unit
  | [] => .ok ()
  | name :: rest => do
    checkName name
    checkNames rest

theorem checkNames_append (left right : List String) :
    checkNames (left ++ right) = (do checkNames left; checkNames right) := by
  induction left with
  | nil => rfl
  | cons name left ih =>
    simp only [List.cons_append, checkNames, ih]
    cases checkName name <;> rfl

theorem checkNames_ok_iff (list : List String) :
    checkNames list = .ok () ↔ ∀ name ∈ list, isName name = true := by
  induction list with
  | nil => simp [checkNames]
  | cons name list ih =>
    rw [List.forall_mem_cons, ← ih, checkNames, checkName]
    cases isName name with
    | true => simp only [if_true, true_and]; exact Iff.rfl
    | false =>
      simp only [Bool.false_eq_true, if_false, false_and, iff_false]
      nofun

theorem writtenValue_decimal (escape : Bool) (n : Nat) :
    writtenValue escape (Text.decimal n) = Nat.toDigits 10 n := by
  have plain : ∀ c ∈ Nat.toDigits 10 n, valueCharacter c = [c] := by
    intro c member
    have digit := Nat.isDigit_of_mem_toDigits (by decide) (by decide) member
    have quote : c ≠ '"' := by rintro rfl; revert digit; decide
    have ampersand : c ≠ '&' := by rintro rfl; revert digit; decide
    have less : c ≠ '<' := by rintro rfl; revert digit; decide
    have greater : c ≠ '>' := by rintro rfl; revert digit; decide
    simp [valueCharacter, textCharacter, quote, ampersand, less, greater]
  cases escape with
  | false => simp [writtenValue, Text.decimal]
  | true =>
    simp only [writtenValue, Text.decimal, if_true, String.toList_ofList]
    rw [List.flatMap_congr plain, List.flatMap_singleton']

theorem attributes_eq (escape : Bool) (index : Option String) (declared : List (String × Scalar)) :
    attributes escape index declared = (do
      checkNames (declared.map Prod.fst)
      .ok ((declared.filterMap (declaredAttribute index)).flatMap (attributeText escape))) := by
  induction declared with
  | nil => rfl
  | cons first declared ih =>
    obtain ⟨name, value⟩ := first
    rw [attributes, ih, List.map_cons, checkNames]
    cases checkName name with
    | error _ => rfl
    | ok _ =>
      cases checkNames (declared.map Prod.fst) with
      | error _ => rfl
      | ok _ =>
        by_cases same : index = some name
        · simp [declaredAttribute, same, bind, Except.bind]
        · cases shown : value.presence <;>
            simp [declaredAttribute, same, shown, presence, attributeText, bind, Except.bind]

theorem opening_eq (options : MarkupOptions) (head : Head) :
    opening options head = (do
      checkNames (head.tag :: head.attributes.map Prod.fst)
      .ok ('<' :: tagText options.escape head.tag (normalAttributes options head))) := by
  simp only [opening, checkNames, attributes_eq]
  cases checkName head.tag with
  | error _ => rfl
  | ok _ =>
    cases checkNames (head.attributes.map Prod.fst) with
    | error _ => rfl
    | ok _ =>
      cases shown : indexAttribute? options head with
      | none => simp [tagText, normalAttributes, shown, bind, Except.bind]
      | some index =>
        simp [tagText, normalAttributes, shown, attributeText, writtenValue_decimal, bind, Except.bind]

theorem textOf_eq (escape : Bool) (text : Scalar) :
    textOf escape text = writtenText escape (text.shown?.getD "") := by
  unfold textOf
  cases text.shown? with
  | none => cases escape <;> rfl
  | some _ => rfl

mutual

theorem node_eq (options : MarkupOptions) (root : Node) :
    node options root = (do
      checkNames (names root)
      .ok (printAll options.escape (normalForm options root))) := by
  cases root with
  | element head children =>
    rw [node, names, normalForm, opening_eq, checkNames_append]
    cases checkNames (head.tag :: head.attributes.map Prod.fst) with
    | error _ => rfl
    | ok _ =>
      by_cases void : head.tag ∈ voidTags
      · simp [void, checkNames, printAll, print, bind, Except.bind]
      · simp only [void, if_false, nodes_eq options children]
        cases checkNames (namesOf children) with
        | error _ => rfl
        | ok _ => simp [printAll, print, textOf_eq, bind, Except.bind]
  | fragment items => exact nodes_eq options items
  | empty => rfl

theorem nodes_eq (options : MarkupOptions) (items : List Node) :
    nodes options items = (do
      checkNames (namesOf items)
      .ok (printAll options.escape (normalForms options items))) := by
  cases items with
  | nil => rfl
  | cons item items =>
    rw [nodes, namesOf, normalForms, checkNames_append, node_eq options item, nodes_eq options items]
    cases checkNames (names item) with
    | error _ => rfl
    | ok _ =>
      cases checkNames (namesOf items) with
      | error _ => rfl
      | ok _ => simp [printAll_append, bind, Except.bind]

end

/-- All of the names that writing looks at, first that of the index attribute. -/
def allNames (options : MarkupOptions) (root : Node) : List String :=
  options.indexAttribute.toList ++ names root

theorem write_eq (options : MarkupOptions) (root : Node) :
    write options root = (do
      checkNames (allNames options root)
      .ok (String.ofList (printAll options.escape (normalForm options root)))) := by
  rw [write, allNames, node_eq, checkNames_append]
  cases options.indexAttribute with
  | none => cases checkNames (names root) <;> rfl
  | some name =>
    simp only [Option.toList_some, checkNames]
    cases checkName name with
    | error _ => rfl
    | ok _ => cases checkNames (names root) <;> rfl

theorem normalAttributes_legal {options : MarkupOptions} {head : Head}
    (index : ∀ name ∈ options.indexAttribute, isName name = true)
    (declared : ∀ name ∈ head.attributes.map Prod.fst, isName name = true) :
    ∀ written ∈ normalAttributes options head, isName written.1 = true := by
  intro written member
  rw [normalAttributes, List.mem_append, List.mem_map] at member
  rcases member with ⟨⟨name, position⟩, shown, rfl⟩ | member
  · rw [Option.mem_toList, indexAttribute?] at shown
    obtain ⟨name, given, shown⟩ := Option.bind_eq_some_iff.1 shown
    obtain ⟨position, _, equal⟩ := Option.bind_eq_some_iff.1 shown
    cases equal
    exact index name given
  · obtain ⟨pair, member, found⟩ := List.mem_filterMap.1 member
    rw [(declaredAttribute_name found).1]
    exact declared pair.1 (List.mem_map_of_mem member)

theorem allLegal_append {left right : List Tree} (first : AllLegal left) (second : AllLegal right) :
    AllLegal (left ++ right) := by
  induction left with
  | nil => exact second
  | cons tree left ih => exact ⟨first.1, ih first.2⟩

mutual

theorem allLegal_normalForm (options : MarkupOptions) (root : Node)
    (index : ∀ name ∈ options.indexAttribute, isName name = true)
    (all : ∀ name ∈ names root, isName name = true) : AllLegal (normalForm options root) := by
  cases root with
  | element head children =>
    simp only [names, List.cons_append, List.forall_mem_cons, List.forall_mem_append] at all
    obtain ⟨tag, declared, inside⟩ := all
    have attributes := normalAttributes_legal index declared
    by_cases void : head.tag ∈ voidTags
    · simp only [normalForm, void, if_true]
      exact ⟨⟨tag, attributes⟩, trivial⟩
    · simp only [void, if_false] at inside
      simp only [normalForm, void, if_false]
      exact ⟨⟨tag, attributes, allLegal_normalForms options children index inside⟩, trivial⟩
  | fragment items => exact allLegal_normalForms options items index all
  | empty => exact trivial

theorem allLegal_normalForms (options : MarkupOptions) (items : List Node)
    (index : ∀ name ∈ options.indexAttribute, isName name = true)
    (all : ∀ name ∈ namesOf items, isName name = true) : AllLegal (normalForms options items) := by
  cases items with
  | nil => exact trivial
  | cons item items =>
    rw [namesOf, List.forall_mem_append] at all
    exact allLegal_append (allLegal_normalForm options item index all.1)
      (allLegal_normalForms options items index all.2)

end

/-- Writing succeeds only where every name may be written, and then prints the normal form. -/
theorem write_ok {options : MarkupOptions} {root : Node} {markup : String}
    (written : write options root = .ok markup) :
    AllLegal (normalForm options root) ∧
      markup = String.ofList (printAll options.escape (normalForm options root)) := by
  rw [write_eq] at written
  cases checked : checkNames (allNames options root) with
  | error _ => rw [checked] at written; cases written
  | ok _ =>
    rw [checked] at written
    cases written
    rw [checkNames_ok_iff, allNames, List.forall_mem_append] at checked
    refine ⟨allLegal_normalForm options root ?_ checked.2, rfl⟩
    intro name member
    exact checked.1 name (Option.mem_toList.2 member)

end ViewTree.Markup
