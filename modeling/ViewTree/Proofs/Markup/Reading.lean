import ViewTree.Proofs.Markup.Writing

namespace ViewTree.Markup

def unescape : List Char → List Char
  | '&' :: 'a' :: 'm' :: 'p' :: ';' :: text => '&' :: unescape text
  | '&' :: 'l' :: 't' :: ';' :: text => '<' :: unescape text
  | '&' :: 'g' :: 't' :: ';' :: text => '>' :: unescape text
  | '&' :: 'q' :: 'u' :: 'o' :: 't' :: ';' :: text => '"' :: unescape text
  | c :: text => c :: unescape text
  | [] => []

inductive Tag where
  | void (tag : String) (attributes : List Attribute)
  | opening (tag : String) (attributes : List Attribute) (text : String)
  | closing (tag : String)

def readAttribute (text : List Char) : Option (Attribute × List Char) :=
  let name := String.ofList (text.takeWhile isNameCharacter)
  match text.dropWhile isNameCharacter with
  | '=' :: '"' :: text =>
    match text.dropWhile (· != '"') with
    | '"' :: rest => some ((name, some (String.ofList (unescape (text.takeWhile (· != '"'))))), rest)
    | _ => none
  | rest => some ((name, none), rest)

theorem readAttribute_length {text rest : List Char} {first : Attribute}
    (h : readAttribute text = some (first, rest)) : rest.length ≤ text.length := by
  have outer := (List.dropWhile_suffix isNameCharacter (l := text)).length_le
  unfold readAttribute at h
  dsimp only at h
  split at h
  · rename_i value found
    rw [found] at outer
    have inner := (List.dropWhile_suffix (· != '"') (l := value)).length_le
    split at h
    · rename_i after quote
      rw [quote] at inner
      cases h
      simp only [List.length_cons] at outer inner
      omega
    · cases h
  · cases h
    exact outer

/-- Reads the attributes of a tag and its end, and whether that is the end of a void element. -/
def readAttributes : List Char → Option (List Attribute × Bool × List Char)
  | '>' :: text => some ([], false, text)
  | ' ' :: '/' :: '>' :: text => some ([], true, text)
  | ' ' :: text =>
    match _h : readAttribute text with
    | none => none
    | some (first, rest) =>
      (readAttributes rest).map fun (more, void, rest) => (first :: more, void, rest)
  | _ => none
termination_by text => text.length
decreasing_by
  have := readAttribute_length _h
  simp only [List.length_cons]
  omega

theorem readAttributes_length {text rest : List Char} {list : List Attribute} {void : Bool}
    (h : readAttributes text = some (list, void, rest)) : rest.length < text.length := by
  fun_induction readAttributes text generalizing list void rest with
  | case1 text => cases h; simp
  | case2 text => cases h; simp; omega
  | case3 => cases h
  | case4 text _ first middle read ih =>
    obtain ⟨⟨more, ended, last⟩, tail, equal⟩ := Option.map_eq_some_iff.1 h
    cases equal
    have := ih tail
    have := readAttribute_length read
    simp only [List.length_cons]
    omega
  | case5 => cases h

/-- Cuts a text into tags. -/
def readTags : List Char → Option (List Tag)
  | [] => some []
  | '<' :: '/' :: text =>
    match _h : text.dropWhile isNameCharacter with
    | '>' :: rest =>
      (readTags rest).map (.closing (String.ofList (text.takeWhile isNameCharacter)) :: ·)
    | _ => none
  | '<' :: text =>
    let tag := String.ofList (text.takeWhile isNameCharacter)
    match _h : readAttributes (text.dropWhile isNameCharacter) with
    | none => none
    | some (list, true, rest) => (readTags rest).map (.void tag list :: ·)
    | some (list, false, rest) =>
      let shown := String.ofList (unescape (rest.takeWhile (· != '<')))
      (readTags (rest.dropWhile (· != '<'))).map (.opening tag list shown :: ·)
  | _ => none
termination_by text => text.length
decreasing_by
  · have := (List.dropWhile_suffix isNameCharacter (l := text)).length_le
    rw [_h] at this
    simp only [List.length_cons] at this ⊢
    omega
  · have := (List.dropWhile_suffix isNameCharacter (l := text)).length_le
    have := readAttributes_length _h
    simp only [List.length_cons]
    omega
  · have := (List.dropWhile_suffix isNameCharacter (l := text)).length_le
    have := readAttributes_length _h
    have := (List.dropWhile_suffix (· != '<') (l := rest)).length_le
    simp only [List.length_cons]
    omega

/-- An open element: what its tag said, its text, and the trees before it, the last one first. -/
structure Frame where
  tag : String
  attributes : List Attribute
  text : String
  before : List Tree

/-- Puts tags together to trees, inside open elements, the innermost first, and after the trees that
were read there, the last one first. -/
def build : List Frame → List Tree → List Tag → Option (List Tree)
  | [], trees, [] => some trees.reverse
  | _ :: _, _, [] => none
  | frames, trees, .void tag list :: tags => build frames (.void tag list :: trees) tags
  | frames, trees, .opening tag list text :: tags =>
    build (⟨tag, list, text, trees⟩ :: frames) [] tags
  | [], _, .closing _ :: _ => none
  | frame :: frames, trees, .closing tag :: tags =>
    if tag = frame.tag then
      build frames (.element tag frame.attributes frame.text trees.reverse :: frame.before) tags
    else none

/-- The trees that a markup text spells. -/
def parse (markup : String) : Option (List Tree) := do build [] [] (← readTags markup.toList)

theorem unescape_cons {c : Char} (plain : c ≠ '&') (text : List Char) :
    unescape (c :: text) = c :: unescape text := by
  rw [unescape.eq_def]
  split <;> simp_all

theorem unescape_textCharacter (c : Char) (text : List Char) :
    unescape (textCharacter c ++ text) = c :: unescape text := by
  unfold textCharacter
  split
  · subst c; simp [unescape]
  split
  · subst c; simp [unescape]
  split
  · subst c; simp [unescape]
  · rename_i ampersand _ _
    exact unescape_cons ampersand text

theorem unescape_valueCharacter (c : Char) (text : List Char) :
    unescape (valueCharacter c ++ text) = c :: unescape text := by
  unfold valueCharacter
  split
  · subst c; simp [unescape]
  · exact unescape_textCharacter c text

theorem unescape_flatMap {escape : Char → List Char}
    (one : ∀ c text, unescape (escape c ++ text) = c :: unescape text) (text : List Char) :
    unescape (text.flatMap escape) = text := by
  induction text with
  | nil => rfl
  | cons c text ih => rw [List.flatMap_cons, one, ih]

def EndsName (text : List Char) : Prop :=
  ∃ rest, text = ' ' :: rest ∨ text = '>' :: rest ∨ text = '=' :: rest

theorem EndsName.split {name : String} {rest : List Char} (ends : EndsName rest)
    (legal : isName name = true) :
    String.ofList ((name.toList ++ rest).takeWhile isNameCharacter) = name ∧
      (name.toList ++ rest).dropWhile isNameCharacter = rest := by
  have inside : ∀ c ∈ name.toList, isNameCharacter c = true := by
    simp only [isName, Bool.and_eq_true, List.all_eq_true] at legal
    exact legal.2
  have blank : isNameCharacter ' ' = false := by decide
  have angle : isNameCharacter '>' = false := by decide
  have equals : isNameCharacter '=' = false := by decide
  rw [List.takeWhile_append_of_pos inside, List.dropWhile_append_of_pos inside]
  obtain ⟨rest, rfl | rfl | rfl⟩ := ends <;> simp [blank, angle, equals]

theorem splitAt_quote (text : String) (rest : List Char) :
    (writtenValue true text ++ '"' :: rest).takeWhile (· != '"') = writtenValue true text ∧
      (writtenValue true text ++ '"' :: rest).dropWhile (· != '"') = '"' :: rest := by
  have inside : ∀ c ∈ writtenValue true text, (c != '"') = true := by
    intro c member
    simpa using (writtenValue_free member).1
  rw [List.takeWhile_append_of_pos inside, List.dropWhile_append_of_pos inside]
  simp

def EndsAttribute (text : List Char) : Prop := ∃ rest, text = ' ' :: rest ∨ text = '>' :: rest

theorem EndsAttribute.endsName {text : List Char} (ends : EndsAttribute text) : EndsName text := by
  obtain ⟨rest, blank | angle⟩ := ends
  · exact ⟨rest, .inl blank⟩
  · exact ⟨rest, .inr (.inl angle)⟩

theorem readAttribute_written {first : Attribute} {rest : List Char} (legal : isName first.1 = true)
    (ends : EndsAttribute rest) :
    readAttribute ((attributeText true first).tail ++ rest) = some (first, rest) := by
  obtain ⟨name, value⟩ := first
  cases value with
  | none =>
    obtain ⟨taken, dropped⟩ := ends.endsName.split legal
    simp only [attributeText, List.tail_cons, readAttribute, taken, dropped]
    obtain ⟨rest, rfl | rfl⟩ := ends <;> rfl
  | some value =>
    have equals : EndsName ('=' :: '"' :: (writtenValue true value ++ '"' :: rest)) :=
      ⟨_, .inr (.inr rfl)⟩
    obtain ⟨taken, dropped⟩ := equals.split legal
    obtain ⟨inside, after⟩ := splitAt_quote value rest
    have written : unescape (writtenValue true value) = value.toList :=
      unescape_flatMap unescape_valueCharacter _
    simp only [attributeText, valued, List.tail_cons, List.append_assoc, List.cons_append,
      List.nil_append, readAttribute, taken, dropped, inside, after, written, String.ofList_toList]

theorem isName_cons {name : String} (legal : isName name = true) :
    ∃ c text, name.toList = c :: text ∧ isNameCharacter c = true := by
  simp only [isName, Bool.and_eq_true, bne_iff_ne] at legal
  cases spelled : name.toList with
  | nil => exact absurd (String.toList_eq_nil_iff.1 spelled) legal.1
  | cons c text => exact ⟨c, text, rfl, by simpa [spelled] using (List.all_eq_true.1 legal.2) c⟩

theorem attributeText_cons (escape : Bool) {first : Attribute} (legal : isName first.1 = true) :
    ∃ c text, attributeText escape first = ' ' :: c :: text ∧ isNameCharacter c = true := by
  obtain ⟨c, text, spelled, character⟩ := isName_cons legal
  obtain ⟨name, _ | value⟩ := first
  · exact ⟨c, text, by rw [attributeText, spelled], character⟩
  · exact ⟨c, _, by rw [attributeText, valued, spelled, List.cons_append], character⟩

theorem readAttributes_cons {first : Attribute} {rest : List Char} (legal : isName first.1 = true)
    (ends : EndsAttribute rest) :
    readAttributes (attributeText true first ++ rest) =
      (readAttributes rest).map fun (more, void, rest) => (first :: more, void, rest) := by
  have read := readAttribute_written legal ends
  obtain ⟨c, text, written, character⟩ := attributeText_cons true legal
  rw [written] at read ⊢
  have slash : c ≠ '/' := by rintro rfl; revert character; decide
  simp only [List.tail_cons, List.cons_append] at read ⊢
  rw [readAttributes]
  · split
    · rename_i missing
      rw [read] at missing
      cases missing
    · rename_i other after found
      rw [read] at found
      cases found
      rfl
  · intro tail equal
    exact slash (List.cons.inj equal).1

theorem endsAttribute_flatMap (attributes : List Attribute) {rest : List Char}
    (legal : ∀ written ∈ attributes, isName written.1 = true) (ends : EndsAttribute rest) :
    EndsAttribute (attributes.flatMap (attributeText true) ++ rest) := by
  cases attributes with
  | nil => exact ends
  | cons first more =>
    obtain ⟨c, text, written, _⟩ := attributeText_cons true (legal first List.mem_cons_self)
    exact ⟨_, .inl (by rw [List.flatMap_cons, written]; rfl)⟩

theorem readAttributes_written (attributes : List Attribute) {ending rest : List Char} {void : Bool}
    (legal : ∀ written ∈ attributes, isName written.1 = true) (ends : EndsAttribute ending)
    (ended : readAttributes ending = some ([], void, rest)) :
    readAttributes (attributes.flatMap (attributeText true) ++ ending) =
      some (attributes, void, rest) := by
  induction attributes with
  | nil => exact ended
  | cons first more ih =>
    rw [List.forall_mem_cons] at legal
    rw [List.flatMap_cons, List.append_assoc,
      readAttributes_cons legal.1 (endsAttribute_flatMap more legal.2 ends), ih legal.2]
    rfl

mutual

def tags : Tree → List Tag
  | .void tag attributes => [.void tag attributes]
  | .element tag attributes text content =>
    .opening tag attributes text :: (allTags content ++ [.closing tag])

def allTags : List Tree → List Tag
  | [] => []
  | tree :: trees => tags tree ++ allTags trees

end

theorem splitAt_angle (text : String) (rest : List Char) :
    (writtenText true text ++ '<' :: rest).takeWhile (· != '<') = writtenText true text ∧
      (writtenText true text ++ '<' :: rest).dropWhile (· != '<') = '<' :: rest := by
  have inside : ∀ c ∈ writtenText true text, (c != '<') = true := by
    intro c member
    simpa using writtenText_free member
  rw [List.takeWhile_append_of_pos inside, List.dropWhile_append_of_pos inside]
  simp

theorem readTags_tag {tag : String} (legal : isName tag = true) (attributes : List Attribute)
    {ending rest : List Char} {void : Bool}
    (all : ∀ written ∈ attributes, isName written.1 = true) (ends : EndsAttribute ending)
    (ended : readAttributes ending = some ([], void, rest)) :
    readTags ('<' :: (tagText true tag attributes ++ ending)) =
      if void then (readTags rest).map (.void tag attributes :: ·)
      else
        (readTags (rest.dropWhile (· != '<'))).map (.opening tag attributes
          (String.ofList (unescape (rest.takeWhile (· != '<')))) :: ·) := by
  have after := endsAttribute_flatMap attributes all ends
  obtain ⟨taken, dropped⟩ := after.endsName.split legal
  have read := readAttributes_written attributes all ends ended
  obtain ⟨c, text, spelled, character⟩ := isName_cons legal
  have slash : c ≠ '/' := by rintro rfl; revert character; decide
  rw [← dropped] at read
  rw [tagText, List.append_assoc, readTags]
  · rw [taken]
    split <;> rename_i found <;> rw [read] at found <;> cases found <;> rfl
  · intro tail equal
    rw [spelled] at equal
    exact slash (List.cons.inj equal).1

theorem readTags_closing {tag : String} (legal : isName tag = true) (rest : List Char) :
    readTags ('<' :: '/' :: (tag.toList ++ '>' :: rest)) = (readTags rest).map (.closing tag :: ·) := by
  have ends : EndsName ('>' :: rest) := ⟨rest, .inr (.inl rfl)⟩
  obtain ⟨taken, dropped⟩ := ends.split legal
  rw [readTags, taken]
  split
  · rename_i found
    rw [dropped] at found
    cases found
    rfl
  · rename_i other
    exact absurd dropped (other rest)

mutual

theorem readTags_print (tree : Tree) (legal : Legal tree) (rest : List Char) :
    readTags (print true tree ++ rest) = (readTags rest).map (tags tree ++ ·) := by
  cases tree with
  | void tag attributes =>
    have ended : readAttributes (' ' :: '/' :: '>' :: rest) = some ([], true, rest) := by
      rw [readAttributes]
    have read := readTags_tag legal.1 attributes legal.2 ⟨_, .inl rfl⟩ ended
    simpa [print, tags] using read
  | element tag attributes text content =>
    obtain ⟨name, names, inside⟩ := legal
    have ended (rest : List Char) : readAttributes ('>' :: rest) = some ([], false, rest) := by
      rw [readAttributes]
    obtain ⟨next, starts⟩ := printAll_starts true content ('/' :: (tag.toList ++ '>' :: rest))
    have shown : unescape (writtenText true text) = text.toList :=
      unescape_flatMap unescape_textCharacter _
    obtain ⟨taken, dropped⟩ := splitAt_angle text next
    have read := readTags_tag name attributes names ⟨_, .inr rfl⟩
      (ended (writtenText true text ++ '<' :: next))
    rw [taken, dropped, shown, ← starts, readTags_printAll content inside, readTags_closing name] at read
    simp only [print, List.cons_append, List.append_assoc, List.nil_append, read, tags, String.ofList_toList]
    cases readTags rest <;> simp

theorem readTags_printAll (trees : List Tree) (legal : AllLegal trees) (rest : List Char) :
    readTags (printAll true trees ++ rest) = (readTags rest).map (allTags trees ++ ·) := by
  cases trees with
  | nil => simp [printAll, allTags]
  | cons tree trees =>
    rw [printAll, List.append_assoc, readTags_print tree legal.1, readTags_printAll trees legal.2,
      Option.map_map]
    simp [allTags, Function.comp_def]

end

mutual

theorem build_tags (frames : List Frame) (before : List Tree) (tree : Tree) (rest : List Tag) :
    build frames before (tags tree ++ rest) = build frames (tree :: before) rest := by
  cases tree with
  | void tag attributes => simp only [tags, List.cons_append, List.nil_append, build]
  | element tag attributes text content =>
    simp only [tags, List.cons_append, List.append_assoc, List.nil_append, build]
    rw [build_allTags]
    simp only [build, if_true, List.append_nil, List.reverse_reverse]

theorem build_allTags (frames : List Frame) (before trees : List Tree) (rest : List Tag) :
    build frames before (allTags trees ++ rest) = build frames (trees.reverse ++ before) rest := by
  cases trees with
  | nil => rfl
  | cons tree trees =>
    rw [allTags, List.append_assoc, build_tags, build_allTags, List.reverse_cons, List.append_assoc]
    rfl

end

theorem readTags_text {trees : List Tree} (legal : AllLegal trees) :
    readTags (printAll true trees) = some (allTags trees) := by
  have read := readTags_printAll trees legal []
  rw [readTags, List.append_nil] at read
  simpa using read

theorem parse_print {trees : List Tree} (legal : AllLegal trees) :
    parse (String.ofList (printAll true trees)) = some trees := by
  have built := build_allTags [] [] trees []
  rw [List.append_nil, List.append_nil, build, List.reverse_reverse] at built
  rw [parse, String.toList_ofList, readTags_text legal]
  exact built

/-- Every opening tag has a closing one of its name, with balanced tags between them. -/
inductive Balanced : List Tag → Prop
  | nil : Balanced []
  | void {tag attributes rest} : Balanced rest → Balanced (.void tag attributes :: rest)
  | element {tag attributes text inside rest} : Balanced inside → Balanced rest →
    Balanced (.opening tag attributes text :: (inside ++ .closing tag :: rest))

mutual

theorem balanced_tags (tree : Tree) {rest : List Tag} (after : Balanced rest) :
    Balanced (tags tree ++ rest) := by
  cases tree with
  | void tag attributes => exact .void after
  | element tag attributes text content =>
    simp only [tags, List.cons_append, List.append_assoc, List.nil_append]
    have inside := balanced_allTags content .nil
    rw [List.append_nil] at inside
    exact .element inside after

theorem balanced_allTags (trees : List Tree) {rest : List Tag} (after : Balanced rest) :
    Balanced (allTags trees ++ rest) := by
  cases trees with
  | nil => exact after
  | cons tree trees =>
    rw [allTags, List.append_assoc]
    exact balanced_tags tree (balanced_allTags trees after)

end

/-- Markup written with escaping on is read back as the normal form of its node by one reader, which knows
nothing of the options. So its tags are balanced, an index that is shown stands in just one attribute of
its name, and nodes with the same markup have the same normal form. -/
theorem parse_write {options : MarkupOptions} {root : Node} {markup : String}
    (escaping : options.escape = true) (written : write options root = .ok markup) :
    parse markup = some (normalForms options root.nodes) ∧
      (∃ list, readTags markup.toList = some list ∧ Balanced list) ∧
      (∀ (name : String) (head : Head) (position : UInt64), options.indexAttribute = some name →
        head.index = some position →
        (normalAttributes options head).filter (fun written => written.1 = name) =
          [(name, some (Text.decimal position.toNat))]) ∧
      ∀ (others : MarkupOptions) (other : Node), others.escape = true →
        write others other = .ok markup →
        normalForms others other.nodes = normalForms options root.nodes := by
  have reads {options : MarkupOptions} {root : Node} (escaping : options.escape = true)
      (written : write options root = .ok markup) :
      parse markup = some (normalForms options root.nodes) := by
    obtain ⟨legal, rfl⟩ := write_ok written
    rw [normalForms_nodes, escaping]
    exact parse_print legal
  refine ⟨reads escaping written, ?_, ?_, ?_⟩
  · obtain ⟨legal, rfl⟩ := write_ok written
    have balanced := balanced_allTags (normalForm options root) .nil
    rw [List.append_nil] at balanced
    refine ⟨_, ?_, balanced⟩
    rw [String.toList_ofList, escaping]
    exact readTags_text legal
  · intro name head position shown indexed
    exact index_once shown indexed
  · intro others other unescaped same
    exact Option.some.inj ((reads unescaped same).symm.trans (reads escaping written))

theorem parse_write_item :
    let item : Node := .element
      ⟨"li", [("data-index", .text "x"), ("class", .text "a\"b"), ("hidden", .boolean false)],
        .text "1 < 2", some 3⟩
      [.fragment [.empty, .element ⟨"input", [("checked", .boolean true)], .text "lost", none⟩ []]]
    let markup := "<li data-index=\"3\" class=\"a&quot;b\">1 &lt; 2<input checked /></li>"
    write defaultOptions item = .ok markup ∧
      parse markup = some [.element "li" [("data-index", some "3"), ("class", some "a\"b")] "1 < 2"
        [.void "input" [("checked", none)]]] := by
  intro item markup
  have written : write defaultOptions item = .ok markup := rfl
  exact ⟨written, (parse_write rfl written).1⟩

end ViewTree.Markup
