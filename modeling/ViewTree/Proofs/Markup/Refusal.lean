import ViewTree.Proofs.Markup.Writing
import ViewTree.Proofs.Outcome

namespace ViewTree

mutual

/-- Nodes of the same tags and attribute names, whatever their texts, values and indices. -/
inductive Node.SameNames : Node → Node → Prop
  | element {head head' : Head} {children children' : List Node} (tag : head.tag = head'.tag)
    (attributes : head.attributes.map Prod.fst = head'.attributes.map Prod.fst)
    (inside : AllSameNames children children') : SameNames (.element head children) (.element head' children')
  | fragment {items items' : List Node} (each : AllSameNames items items') :
    SameNames (.fragment items) (.fragment items')
  | empty : SameNames .empty .empty

inductive Node.AllSameNames : List Node → List Node → Prop
  | nil : AllSameNames [] []
  | cons {item item' : Node} {items items' : List Node} (first : SameNames item item')
    (others : AllSameNames items items') : AllSameNames (item :: items) (item' :: items')

end

namespace Markup

/-- A name that is empty, or holds a character that could end it where it is written. -/
def Illegal (name : String) : Prop :=
  name = "" ∨ ∃ c ∈ name.toList,
    Text.isBlank c = true ∨ Text.isControl c = true ∨ c ∈ ['"', '\'', '<', '>', '/', '=']

theorem isNameCharacter_eq_false {c : Char} :
    isNameCharacter c = false ↔
      Text.isBlank c = true ∨ Text.isControl c = true ∨ c ∈ ['"', '\'', '<', '>', '/', '='] := by
  simp only [isNameCharacter, Bool.not_eq_false', Bool.or_eq_true, decide_eq_true_eq, or_assoc]

theorem isName_eq_false {name : String} : isName name = false ↔ Illegal name := by
  simp only [isName, Bool.and_eq_false_iff, bne_eq_false_iff_eq, List.all_eq_false, Bool.not_eq_true,
    isNameCharacter_eq_false, Illegal]

instance : DecidablePred Illegal := fun _ => decidable_of_iff _ isName_eq_false

theorem isName_eq_true {name : String} : isName name = true ↔ ¬Illegal name := by
  rw [← isName_eq_false, Bool.not_eq_false]

theorem checkName_eq_ok {name : String} : checkName name = .ok () ↔ ¬Illegal name := by
  rw [← isName_eq_true, checkName]
  split
  · rename_i legal
    exact ⟨fun _ => legal, fun _ => rfl⟩
  · rename_i illegal
    refine ⟨?_, fun legal => absurd legal illegal⟩
    intro passed
    cases passed

theorem checkName_eq_error {name : String} {error : RenderError} :
    checkName name = .error error ↔ Illegal name ∧ error = .illegalName name := by
  rw [← isName_eq_false, checkName]
  cases isName name with
  | true => simp
  | false => simp [eq_comm]

theorem checkNames_eq_forM (list : List String) : checkNames list = forM list checkName := by
  induction list with
  | nil => rfl
  | cons name list ih => rw [checkNames, ih, List.forM_cons]

theorem checkNames_eq_error {list : List String} {error : RenderError} :
    checkNames list = .error error ↔ ∃ before name after, list = before ++ name :: after ∧
      (∀ earlier ∈ before, ¬Illegal earlier) ∧ Illegal name ∧ error = .illegalName name := by
  simp only [checkNames_eq_forM, forM_eq_error, checkName_eq_ok, checkName_eq_error]

theorem write_eq_error {options : MarkupOptions} {root : Node} {error : RenderError} :
    write options root = .error error ↔ ∃ before name after, allNames options root = before ++ name :: after ∧
      (∀ earlier ∈ before, ¬Illegal earlier) ∧ Illegal name ∧ error = .illegalName name := by
  rw [write_eq, ← checkNames_eq_error]
  cases checkNames (allNames options root) with
  | error _ => simp only [bind, Except.bind, Except.error.injEq]
  | ok _ => exact ⟨nofun, nofun⟩

theorem legal_of_write {options : MarkupOptions} {root : Node} {markup : String}
    (written : write options root = .ok markup) : ∀ name ∈ allNames options root, ¬Illegal name := by
  rw [write_eq] at written
  obtain ⟨⟨⟩, checked, -⟩ := bind_eq_ok.1 written
  intro name member
  exact isName_eq_true.1 ((checkNames_ok_iff _).1 checked name member)

theorem write_of_legal {options : MarkupOptions} {root : Node} (legal : ∀ name ∈ allNames options root, ¬Illegal name) :
    ∃ markup, write options root = .ok markup := by
  have checked : checkNames (allNames options root) = .ok () :=
    (checkNames_ok_iff _).2 fun name member => isName_eq_true.2 (legal name member)
  rw [write_eq, checked]
  exact ⟨_, rfl⟩

mutual

theorem names_eq_of_sameNames {root root' : Node} (same : root.SameNames root') : names root = names root' := by
  match same with
  | .element tag attributes inside =>
    rw [names, names, tag, attributes, namesOf_eq_of_sameNames inside]
  | .fragment each => exact namesOf_eq_of_sameNames each
  | .empty => rfl

theorem namesOf_eq_of_sameNames {items items' : List Node} (same : Node.AllSameNames items items') :
    namesOf items = namesOf items' := by
  match same with
  | .nil => rfl
  | .cons first others => rw [namesOf, namesOf, names_eq_of_sameNames first, namesOf_eq_of_sameNames others]

end

/-- A node is refused just where one of the names that are met is illegal, and for the first that is. -/
theorem write_refused (options : MarkupOptions) (root : Node) :
    ((∃ error, write options root = .error error) ↔ ∃ name ∈ allNames options root, Illegal name) ∧
    (∀ error, write options root = .error error ↔
      ∃ before name after, allNames options root = before ++ name :: after ∧
        (∀ earlier ∈ before, ¬Illegal earlier) ∧ Illegal name ∧ error = .illegalName name) ∧
    ∀ options' root', options.indexAttribute = options'.indexAttribute → root.SameNames root' →
      Agree (fun _ _ => True) (write options root) (write options' root') := by
  refine ⟨⟨?_, ?_⟩, fun error => write_eq_error, ?_⟩
  · rintro ⟨error, refused⟩
    obtain ⟨before, name, after, met, -, illegal, -⟩ := write_eq_error.1 refused
    refine ⟨name, ?_, illegal⟩
    rw [met]
    exact List.mem_append_right before List.mem_cons_self
  · rintro ⟨name, member, illegal⟩
    cases written : write options root with
    | error error => exact ⟨error, rfl⟩
    | ok markup => exact absurd illegal (legal_of_write written name member)
  · intro options' root' index same
    have met : allNames options root = allNames options' root' := by
      rw [allNames, allNames, index, names_eq_of_sameNames same]
    rw [write_eq, write_eq, met]
    cases checkNames (allNames options' root') with
    | error _ => exact rfl
    | ok _ => exact trivial

/-- The attribute is refused although it is not written, and the tag inside the line break is not met. -/
theorem write_refused_quote :
    let line : Node := .element (Head.ofTag "br") [.element (Head.ofTag "<") []]
    let root (text value : Scalar) (index : Option UInt64) : Node :=
      .fragment [line, .element ⟨"p", [("title", value), ("it's", .empty)], text, index⟩ [.element (Head.ofTag "") []]]
    let first := root (.text "a") (.boolean true) none
    let second := root .empty (.text "b") (some 3)
    first.SameNames second ∧ write ⟨some "at", true⟩ first = .error (.illegalName "it's") ∧
      Agree (fun _ _ => True) (write ⟨some "at", true⟩ first) (write ⟨some "at", false⟩ second) := by
  intro line root first second
  have blank : Node.AllSameNames [.element (Head.ofTag "") []] [.element (Head.ofTag "") []] :=
    .cons (.element rfl rfl .nil) .nil
  have same : first.SameNames second :=
    .fragment (.cons (.element rfl rfl (.cons (.element rfl rfl .nil) .nil)) (.cons (.element rfl rfl blank) .nil))
  have refused := write_refused ⟨some "at", true⟩ first
  have legal : ∀ earlier ∈ ["at", "br", "p", "title"], ¬Illegal earlier := by decide
  have illegal : Illegal "it's" := by decide
  exact ⟨same, (refused.2.1 _).2 ⟨["at", "br", "p", "title"], "it's", [""], rfl, legal, illegal, rfl⟩,
    refused.2.2 _ _ rfl same⟩

end Markup

end ViewTree
