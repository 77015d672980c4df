import ViewTree.Proofs.Markup.Writing

namespace ViewTree.Markup

def fromNext (mark : Char) (text : List Char) : List Char :=
  if mark ∈ text then text.dropWhile (· != mark) else text

theorem fromNext_length (mark : Char) (text : List Char) : (fromNext mark text).length ≤ text.length := by
  unfold fromNext
  split
  · exact (List.dropWhile_suffix (· != mark)).length_le
  · exact Nat.le_refl _

theorem fromNext_append {mark : Char} {run : List Char} (free : ∀ c ∈ run, c ≠ mark) (rest : List Char) :
    fromNext mark (run ++ mark :: rest) = mark :: rest := by
  have inside : ∀ c ∈ run, (c != mark) = true := by
    intro c member
    simpa using free c member
  rw [fromNext, List.dropWhile_append_of_pos inside]
  simp

/-- Erases each run of characters between a `>` and the next `<`. -/
def eraseTexts : List Char → List Char
  | [] => []
  | c :: text => c :: eraseTexts (if c = '>' then fromNext '<' text else text)
termination_by text => text.length
decreasing_by
  have := fromNext_length '<' text
  simp only [List.length_cons]
  split <;> omega

/-- Erases each run of characters between `="` and the next `"`. -/
def eraseValues : List Char → List Char
  | '=' :: '"' :: text => '=' :: '"' :: eraseValues (fromNext '"' text)
  | c :: text => c :: eraseValues text
  | [] => []
termination_by text => text.length
decreasing_by
  · have := fromNext_length '"' text
    simp only [List.length_cons]
    omega
  · simp

def skeleton (markup : String) : String := String.ofList (eraseValues (eraseTexts markup.toList))

theorem eraseTexts_append {run : List Char} (free : ∀ c ∈ run, c ≠ '>') (rest : List Char) :
    eraseTexts (run ++ rest) = run ++ eraseTexts rest := by
  induction run with
  | nil => rfl
  | cons c run ih =>
    rw [List.forall_mem_cons] at free
    rw [List.cons_append, eraseTexts, if_neg free.1, ih free.2, List.cons_append]

theorem eraseTexts_run {run : List Char} (free : ∀ c ∈ run, c ≠ '<') (rest : List Char) :
    eraseTexts ('>' :: (run ++ '<' :: rest)) = '>' :: eraseTexts ('<' :: rest) := by
  rw [eraseTexts, if_pos rfl, fromNext_append free]

theorem eraseValues_cons {c : Char} (other : c ≠ '=') (text : List Char) :
    eraseValues (c :: text) = c :: eraseValues text := by
  rw [eraseValues]
  intro _ equal
  exact absurd equal other

theorem eraseValues_append {run : List Char} (free : ∀ c ∈ run, c ≠ '=') (rest : List Char) :
    eraseValues (run ++ rest) = run ++ eraseValues rest := by
  induction run with
  | nil => rfl
  | cons c run ih =>
    rw [List.forall_mem_cons] at free
    rw [List.cons_append, eraseValues_cons free.1, ih free.2, List.cons_append]

theorem eraseValues_quoted {run : List Char} (free : ∀ c ∈ run, c ≠ '"') (rest : List Char) :
    eraseValues ('=' :: '"' :: (run ++ '"' :: rest)) = '=' :: '"' :: '"' :: eraseValues rest := by
  rw [eraseValues, fromNext_append free, eraseValues_cons (by decide)]

mutual

def relabel (value text : String → String) : Tree → Tree
  | .void tag attributes => .void tag (attributes.map (Prod.map id (Option.map value)))
  | .element tag attributes shown content =>
    .element tag (attributes.map (Prod.map id (Option.map value))) (text shown)
      (relabelAll value text content)

def relabelAll (value text : String → String) : List Tree → List Tree
  | [] => []
  | tree :: trees => relabel value text tree :: relabelAll value text trees

end

theorem relabelAll_append (value text : String → String) (left right : List Tree) :
    relabelAll value text (left ++ right) = relabelAll value text left ++ relabelAll value text right := by
  induction left with
  | nil => rfl
  | cons tree left ih => rw [List.cons_append, relabelAll, relabelAll, ih, List.cons_append]

theorem name_free {name : String} (legal : isName name = true) :
    ∀ c ∈ name.toList, c ≠ '>' ∧ c ≠ '=' := by
  intro c member
  simp only [isName, Bool.and_eq_true, List.all_eq_true] at legal
  have character := legal.2 c member
  constructor <;> rintro rfl <;> revert character <;> decide

theorem attributeText_free {first : Attribute} (legal : isName first.1 = true) :
    ∀ c ∈ attributeText true first, c ≠ '>' := by
  obtain ⟨name, _ | value⟩ := first
  · simp only [attributeText, List.forall_mem_cons]
    exact ⟨by decide, fun c member => (name_free legal c member).1⟩
  · simp only [attributeText, valued, List.forall_mem_cons, List.forall_mem_append]
    refine ⟨by decide, fun c member => (name_free legal c member).1, by decide, by decide, ?_, by decide, ?_⟩
    · intro c member
      exact (writtenValue_free member).2
    · exact List.forall_mem_nil _

theorem tagText_free {tag : String} {attributes : List Attribute} (legal : isName tag = true)
    (all : ∀ written ∈ attributes, isName written.1 = true) :
    ∀ c ∈ tagText true tag attributes, c ≠ '>' := by
  intro c member
  rcases List.mem_append.1 member with member | member
  · exact (name_free legal c member).1
  · obtain ⟨first, inside, member⟩ := List.mem_flatMap.1 member
    exact attributeText_free (all first inside) c member

theorem eraseValues_attribute {first : Attribute} (legal : isName first.1 = true) (rest : List Char) :
    eraseValues (attributeText true first ++ rest) =
      attributeText true (Prod.map id (Option.map fun _ => "") first) ++ eraseValues rest := by
  have name : ∀ c ∈ first.1.toList, c ≠ '=' := fun c member => (name_free legal c member).2
  obtain ⟨name', _ | value⟩ := first
  · simp only [attributeText, List.cons_append]
    rw [eraseValues_cons (by decide), eraseValues_append name]
    rfl
  · have free : ∀ c ∈ writtenValue true value, c ≠ '"' := fun c member => (writtenValue_free member).1
    have quoted := eraseValues_quoted free rest
    simp only [attributeText, valued, List.cons_append, List.append_assoc, List.nil_append]
    rw [eraseValues_cons (by decide), eraseValues_append name, quoted]
    simp [writtenValue]

theorem eraseValues_tagText {tag : String} {attributes : List Attribute} (legal : isName tag = true)
    (all : ∀ written ∈ attributes, isName written.1 = true) (rest : List Char) :
    eraseValues (tagText true tag attributes ++ rest) =
      tagText true tag (attributes.map (Prod.map id (Option.map fun _ => ""))) ++ eraseValues rest := by
  rw [tagText, tagText, List.append_assoc,
    eraseValues_append fun c member => (name_free legal c member).2, List.append_assoc]
  congr 1
  induction attributes with
  | nil => rfl
  | cons first attributes ih =>
    rw [List.forall_mem_cons] at all
    rw [List.flatMap_cons, List.append_assoc, eraseValues_attribute all.1, ih all.2, List.map_cons,
      List.flatMap_cons, List.append_assoc]

def AtTag (text : List Char) : Prop := text = [] ∨ ∃ rest, text = '<' :: rest

theorem eraseTexts_angle {rest : List Char} (next : AtTag rest) :
    eraseTexts ('>' :: rest) = '>' :: eraseTexts rest := by
  obtain rfl | ⟨rest, rfl⟩ := next
  · simp [eraseTexts, fromNext]
  · exact eraseTexts_run (List.forall_mem_nil _) rest

theorem atTag_printAll (escape : Bool) (trees : List Tree) {rest : List Char} (next : AtTag rest) :
    AtTag (printAll escape trees ++ rest) := by
  cases trees with
  | nil => exact next
  | cons tree trees => cases tree <;> exact .inr ⟨_, rfl⟩

mutual

theorem eraseTexts_print (tree : Tree) (legal : Legal tree) {rest : List Char} (next : AtTag rest) :
    eraseTexts (print true tree ++ rest) =
      print true (relabel id (fun _ => "") tree) ++ eraseTexts rest := by
  cases tree with
  | void tag attributes =>
    have plain : ∀ c ∈ '<' :: (tagText true tag attributes ++ [' ', '/']), c ≠ '>' := by
      simp only [List.forall_mem_cons, List.forall_mem_append]
      exact ⟨by decide, tagText_free legal.1 legal.2, by decide, by decide, List.forall_mem_nil _⟩
    have erased := eraseTexts_append plain ('>' :: rest)
    rw [eraseTexts_angle next] at erased
    simpa [print, relabel] using erased
  | element tag attributes text content =>
    obtain ⟨name, names, inside⟩ := legal
    have opening : ∀ c ∈ '<' :: tagText true tag attributes, c ≠ '>' := by
      rw [List.forall_mem_cons]
      exact ⟨by decide, tagText_free name names⟩
    have closing : ∀ c ∈ '<' :: '/' :: tag.toList, c ≠ '>' := by
      rw [List.forall_mem_cons, List.forall_mem_cons]
      exact ⟨by decide, by decide, fun c member => (name_free name c member).1⟩
    have shown : ∀ c ∈ writtenText true text, c ≠ '<' := fun c member => writtenText_free member
    obtain ⟨next', starts⟩ := printAll_starts true content ('/' :: (tag.toList ++ '>' :: rest))
    have content' := eraseTexts_printAll content inside
      (.inr ⟨'/' :: (tag.toList ++ '>' :: rest), rfl⟩)
    have ending := eraseTexts_append closing ('>' :: rest)
    rw [eraseTexts_angle next] at ending
    have start := eraseTexts_append opening ('>' :: (writtenText true text ++ '<' :: next'))
    rw [eraseTexts_run shown, ← starts, content'] at start
    simp only [List.cons_append] at start ending
    rw [ending] at start
    simpa [print, relabel, writtenText] using start

theorem eraseTexts_printAll (trees : List Tree) (legal : AllLegal trees) {rest : List Char}
    (next : AtTag rest) :
    eraseTexts (printAll true trees ++ rest) =
      printAll true (relabelAll id (fun _ => "") trees) ++ eraseTexts rest := by
  cases trees with
  | nil => rfl
  | cons tree trees =>
    rw [printAll, List.append_assoc, eraseTexts_print tree legal.1 (atTag_printAll true trees next),
      eraseTexts_printAll trees legal.2 next, relabelAll, printAll, List.append_assoc]

end

mutual

theorem eraseValues_print (tree : Tree) (legal : Legal tree) (rest : List Char) :
    eraseValues (print true (relabel id (fun _ => "") tree) ++ rest) =
      print true (relabel (fun _ => "") (fun _ => "") tree) ++ eraseValues rest := by
  cases tree with
  | void tag attributes =>
    have plain : ∀ c ∈ [' ', '/', '>'], c ≠ '=' := by
      intro c member
      simp only [List.mem_cons, List.not_mem_nil, or_false] at member
      rcases member with rfl | rfl | rfl <;> decide
    have ending := eraseValues_append plain rest
    have tags := eraseValues_tagText legal.1 legal.2 ([' ', '/', '>'] ++ rest)
    rw [ending] at tags
    simp only [relabel, print, List.cons_append, List.append_assoc, Option.map_id, Prod.map_id, List.map_id]
    rw [eraseValues_cons (by decide)]
    exact congrArg ('<' :: ·) tags
  | element tag attributes text content =>
    obtain ⟨name, names, inside⟩ := legal
    have closing : ∀ c ∈ '<' :: '/' :: tag.toList, c ≠ '=' := by
      rw [List.forall_mem_cons, List.forall_mem_cons]
      exact ⟨by decide, by decide, fun c member => (name_free name c member).2⟩
    have ending := eraseValues_append closing ('>' :: rest)
    rw [eraseValues_cons (by decide)] at ending
    have content' := eraseValues_printAll content inside ('<' :: '/' :: tag.toList ++ '>' :: rest)
    rw [ending] at content'
    simp only [relabel, print, List.cons_append, List.append_assoc, Option.map_id, Prod.map_id,
      List.map_id] at content' ⊢
    rw [eraseValues_cons (by decide), eraseValues_tagText name names, eraseValues_cons (by decide)]
    simpa [writtenText] using content'

theorem eraseValues_printAll (trees : List Tree) (legal : AllLegal trees) (rest : List Char) :
    eraseValues (printAll true (relabelAll id (fun _ => "") trees) ++ rest) =
      printAll true (relabelAll (fun _ => "") (fun _ => "") trees) ++ eraseValues rest := by
  cases trees with
  | nil => rfl
  | cons tree trees =>
    simp only [relabelAll, printAll, List.append_assoc]
    rw [eraseValues_print tree legal.1, eraseValues_printAll trees legal.2]

end

/-- The skeleton of markup is the markup of the trees with nothing in their texts and values. -/
theorem skeleton_print {trees : List Tree} (legal : AllLegal trees) :
    skeleton (String.ofList (printAll true trees)) =
      String.ofList (printAll true (relabelAll (fun _ => "") (fun _ => "") trees)) := by
  have texts := eraseTexts_printAll trees legal (.inl rfl)
  have values := eraseValues_printAll trees legal []
  rw [eraseTexts, List.append_nil, List.append_nil] at texts
  rw [eraseValues, List.append_nil, List.append_nil] at values
  rw [skeleton, String.toList_ofList, texts, values]

theorem map_skeleton_write {options : MarkupOptions} (escaping : options.escape = true) (root : Node) :
    (write options root).map skeleton = (do
      checkNames (allNames options root)
      .ok (String.ofList (printAll true
        (relabelAll (fun _ => "") (fun _ => "") (normalForm options root))))) := by
  cases written : write options root with
  | error e =>
    rw [write_eq] at written
    cases checked : checkNames (allNames options root) with
    | error _ => rw [checked] at written; cases written; rfl
    | ok _ => rw [checked] at written; cases written
  | ok markup =>
    obtain ⟨legal, rfl⟩ := write_ok written
    rw [write_eq] at written
    cases checked : checkNames (allNames options root) with
    | error _ => rw [checked] at written; cases written
    | ok _ =>
      rw [Except.map, escaping, skeleton_print legal]
      rfl

end ViewTree.Markup
