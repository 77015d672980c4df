import Mathlib.Data.List.TakeWhile
import ViewTree.Proofs.Json.Depth
import ViewTree.Proofs.Json.Taking

namespace ViewTree.Json

open Reader

variable {text rest : List Char}

theorem Gap.skipSpace (text : List Char) : Gap text (skipSpace text) := by
  have gap : Gap (text.takeWhile isSpace ++ Reader.skipSpace text) (Reader.skipSpace text) :=
    .blank (fun _ member => List.mem_takeWhile_imp member) _
  rwa [Reader.skipSpace, List.takeWhile_append_dropWhile] at gap

theorem Gap.of_skipSpace {start : List Char} (found : Reader.skipSpace text = start) : Gap text start :=
  found ▸ .skipSpace text

theorem word_ok {letters : List Char} (read : word letters text = .ok rest) : text = letters ++ rest := by
  induction letters generalizing text with
  | nil =>
    cases read
    rfl
  | cons letter letters ih =>
    cases text with
    | nil => cases read
    | cons c text =>
      unfold word at read
      split at read
      · rename_i same
        rw [ih read, same]
        rfl
      · cases read

theorem colon_ok (read : colon text = .ok rest) : Gap text (':' :: rest) := by
  unfold colon at read
  split at read
  · cases read
  · rename_i found
    cases read
    exact .of_skipSpace found
  · cases read

theorem hexUnit_ok {value : Nat} (read : hexUnit text = .ok (value, rest)) :
    PieceBegins (.unit value) ('\\' :: 'u' :: text) rest := by
  unfold hexUnit at read
  split at read
  · split at read
    · rename_i first second third fourth
      cases read
      exact .unit first second third fourth _
    · cases read
  · split at read <;> cases read

def Stated (c : Char) (text rest : List Char) : Prop :=
  ∃ front, (∀ pieces tail, PiecesBegin pieces rest tail → PiecesBegin (front ++ pieces) text tail) ∧
    ∀ pieces, Piece.content (front ++ pieces) = (Piece.content pieces).map (c :: ·)

theorem PieceBegins.stated {c : Char} (begins : PieceBegins (.plain c) text rest) : Stated c text rest :=
  ⟨[.plain c], fun _ _ others => .piece begins others, fun _ => rfl⟩

theorem lowSurrogate_ok {high : Nat} {c : Char} {start : List Char} (isHigh : 0xD800 ≤ high ∧ high ≤ 0xDBFF)
    (first : PieceBegins (.unit high) start text) (read : lowSurrogate high text = .ok (c, rest)) :
    Stated c start rest := by
  unfold lowSurrogate at read
  split at read
  · cases read
  · cases read
  · obtain ⟨⟨low, text⟩, unit, read⟩ := bind_eq_ok.1 read
    by_cases isLow : 0xDC00 ≤ low ∧ low ≤ 0xDFFF
    · simp only [if_pos isLow] at read
      obtain ⟨rfl, rfl⟩ := Prod.mk.inj (Except.ok.inj read)
      have second := hexUnit_ok unit
      refine ⟨[.unit high, .unit low], fun _ _ others => .piece first (.piece second others), fun pieces => ?_⟩
      have notLow : ¬ (0xDC00 ≤ high ∧ high ≤ 0xDFFF) := by omega
      simp only [List.cons_append, List.nil_append, Piece.content, if_neg notLow, if_pos isHigh, if_pos isLow]
    · simp only [if_neg isLow] at read
      cases read
  · cases read
  · cases read

theorem escapedUnit_ok {c : Char} (read : escapedUnit text = .ok (c, rest)) :
    Stated c ('\\' :: 'u' :: text) rest := by
  obtain ⟨⟨unit, text⟩, digits, read⟩ := bind_eq_ok.1 read
  have begins := hexUnit_ok digits
  dsimp only at read
  split at read
  · cases read
  · rename_i notLow
    split at read
    · rename_i isHigh
      exact lowSurrogate_ok isHigh begins read
    · rename_i notHigh
      cases read
      exact ⟨[.unit unit], fun _ _ others => .piece begins others, fun _ => Piece.content_unit notLow notHigh⟩

theorem escaped_ok {c : Char} (read : escaped text = .ok (c, rest)) : Stated c ('\\' :: text) rest := by
  unfold escaped at read
  split at read
  case h_10 => exact escapedUnit_ok read
  case h_1 | h_11 => cases read
  all_goals
    cases read
    exact (PieceBegins.short (by decide) _).stated

theorem charactersWithin_ok {bound content : List Char}
    (read : charactersWithin bound text = .ok (content, rest)) :
    ∃ pieces, PiecesBegin pieces text rest ∧ Piece.content pieces = some content := by
  induction bound generalizing text content with
  | nil => cases read
  | cons first bound ih =>
    cases text with
    | nil => cases read
    | cons c text =>
      unfold charactersWithin at read
      split at read
      · rename_i quote
        cases read
        exact ⟨[], quote ▸ .close _, rfl⟩
      have goesOn {c : Char} {start next content : List Char} (stated : Stated c start next)
          (later : ∃ pieces, PiecesBegin pieces next rest ∧ Piece.content pieces = some content) :
          ∃ pieces, PiecesBegin pieces start rest ∧ Piece.content pieces = some (c :: content) := by
        obtain ⟨front, begins, stands⟩ := stated
        obtain ⟨pieces, others, said⟩ := later
        exact ⟨front ++ pieces, begins _ _ others, by rw [stands, said, Option.map_some]⟩
      split at read
      · rename_i backslash
        obtain ⟨⟨c, text⟩, stated, read⟩ := bind_eq_ok.1 read
        obtain ⟨⟨content, text⟩, later, read⟩ := bind_eq_ok.1 read
        cases read
        exact goesOn (backslash ▸ escaped_ok stated) (ih later)
      split at read
      · cases read
      · rename_i notQuote notBackslash printable
        obtain ⟨⟨content, text⟩, later, read⟩ := bind_eq_ok.1 read
        cases read
        exact goesOn (PieceBegins.plain notQuote notBackslash printable _).stated (ih later)

theorem characters_ok {content : String} (read : characters text = .ok (content, rest)) :
    Quoted (some content) ('"' :: text) rest := by
  obtain ⟨⟨characters, text⟩, inner, read⟩ := bind_eq_ok.1 read
  cases read
  obtain ⟨pieces, begins, said⟩ := charactersWithin_ok inner
  have quoted := Quoted.quote begins
  rwa [said] at quoted

theorem digits_ok {c : Char} (digit : c.isDigit = true) (text : List Char) :
    Numeral.Digits (c :: text.takeWhile Char.isDigit) := by
  refine ⟨nofun, ?_⟩
  rw [List.forall_mem_cons]
  exact ⟨digit, fun _ member => List.mem_takeWhile_imp member⟩

theorem wholeDigits_ok {ending : Flaw} {whole : List Char} (read : wholeDigits ending text = .ok (whole, rest)) :
    Numeral.WholeSpelled whole ∧ text = whole ++ rest := by
  unfold wholeDigits at read
  split at read
  · cases read
  · split at read
    · cases read
    · cases read
      exact ⟨.zero, rfl⟩
  · rename_i notZero
    split at read
    · rename_i c text digit
      cases read
      refine ⟨.digits notZero (digits_ok digit _).2, ?_⟩
      rw [List.cons_append, List.takeWhile_append_dropWhile]
    · cases read

theorem fractionDigits_ok {ending : Flaw} {fraction : List Char}
    (read : fractionDigits ending text = .ok (fraction, rest)) :
    ∃ point, Numeral.FractionSpelled fraction point ∧ text = point ++ rest := by
  unfold fractionDigits at read
  split at read
  · split at read
    · cases read
    · split at read
      · rename_i digit
        cases read
        refine ⟨_, .point (digits_ok digit _), ?_⟩
        rw [List.cons_append, List.cons_append, List.takeWhile_append_dropWhile]
      · cases read
  · cases read
    exact ⟨[], .absent, rfl⟩

theorem exponentDigits_ok {ending : Flaw} {digits : List Char}
    (read : exponentDigits ending text = .ok (digits, rest)) : Numeral.Digits digits ∧ text = digits ++ rest := by
  unfold exponentDigits at read
  split at read
  · cases read
  · split at read
    · rename_i digit
      cases read
      refine ⟨digits_ok digit _, ?_⟩
      rw [List.cons_append, List.takeWhile_append_dropWhile]
    · cases read

theorem exponentPart_ok {ending : Flaw} {exponent : Option (Bool × List Char)}
    (read : exponentPart ending text = .ok (exponent, rest)) :
    ∃ power, Numeral.ExponentSpelled exponent power ∧ text = power ++ rest := by
  unfold exponentPart at read
  split at read
  case h_3 =>
    cases read
    exact ⟨[], .absent, rfl⟩
  all_goals
    split at read
    rename_i signed
    obtain ⟨⟨digits, text⟩, inner, read⟩ := bind_eq_ok.1 read
    cases read
    obtain ⟨given, rfl⟩ := exponentDigits_ok inner
    split at signed <;> cases signed
    · exact ⟨_, .down (by decide) given, rfl⟩
    · exact ⟨_, .up (by decide) given, rfl⟩
    · exact ⟨_, .plain (by decide) given, rfl⟩

theorem unsigned_ok {ending : Flaw} {negative : Bool} {numeral : Numeral}
    (read : unsigned ending negative text = .ok (numeral, rest)) :
    ∃ whole fraction point exponent power, Numeral.WholeSpelled whole ∧ Numeral.FractionSpelled fraction point ∧
      Numeral.ExponentSpelled exponent power ∧ numeral = ⟨negative, whole, fraction, exponent⟩ ∧
      text = whole ++ (point ++ power) ++ rest := by
  obtain ⟨⟨whole, text⟩, wholes, read⟩ := bind_eq_ok.1 read
  obtain ⟨⟨fraction, text⟩, fractions, read⟩ := bind_eq_ok.1 read
  obtain ⟨⟨exponent, text⟩, exponents, read⟩ := bind_eq_ok.1 read
  cases read
  obtain ⟨first, rfl⟩ := wholeDigits_ok wholes
  obtain ⟨point, second, rfl⟩ := fractionDigits_ok fractions
  obtain ⟨power, third, rfl⟩ := exponentPart_ok exponents
  exact ⟨whole, fraction, point, exponent, power, first, second, third, rfl, by simp only [List.append_assoc]⟩

theorem numeral_ok {ending : Flaw} {n : Numeral} (read : numeral ending text = .ok (n, rest)) :
    ∃ front, n.Spelled front ∧ text = front ++ rest := by
  unfold numeral at read
  split at read
  · obtain ⟨_, _, _, _, _, first, second, third, rfl, rfl⟩ := unsigned_ok read
    exact ⟨_, .negative first second third, rfl⟩
  · obtain ⟨_, _, _, _, _, first, second, third, rfl, rfl⟩ := unsigned_ok read
    exact ⟨_, .positive first second third, rfl⟩

theorem number_ok {value : Number} (read : Reader.number text = .ok (value, rest)) :
    Begins (.number (some value)) text rest := by
  obtain ⟨⟨n, text⟩, inner, made⟩ := bind_eq_ok.1 read
  obtain ⟨front, spelled, rfl⟩ := numeral_ok inner
  have begins := Begins.number spelled text
  cases taken : n.value with
  | ok value =>
    simp only [taken] at made
    cases made
    rwa [taken] at begins
  | error unread =>
    simp only [taken] at made
    cases made

theorem Gap.trans {middle : List Char} (before : Gap text middle) (after : Gap middle rest) : Gap text rest := by
  cases before with
  | blank spaces =>
    cases after with
    | blank spaces' =>
      rw [← List.append_assoc]
      refine .blank (fun c member => ?_) _
      exact (List.mem_append.1 member).elim (spaces c) (spaces' c)

theorem Separated.trans {first : Bool} {middle : List Char} (separated : Separated first text middle)
    (gap : Gap middle rest) : Separated first text rest := by
  cases separated with
  | first before => exact .first (before.trans gap)
  | next before after => exact .next before (after.trans gap)

theorem nextItem_ok {first more : Bool} (read : nextItem first text = .ok (more, rest)) :
    (more = false ∧ Gap text rest) ∨ (more = true ∧ Separated first text rest) := by
  unfold nextItem at read
  split at read
  · cases read
  · rename_i found
    cases read
    exact .inl ⟨rfl, .of_skipSpace found⟩
  · rename_i found
    split at read
    · rename_i isFirst
      subst isFirst
      cases read
      exact .inr ⟨rfl, .first (.of_skipSpace found)⟩
    split at read
    · rename_i notFirst comma
      simp only [Bool.not_eq_true] at notFirst
      subst notFirst comma
      split at read
      · cases read
      · cases read
      · rename_i found'
        cases read
        exact .inr ⟨rfl, .next (.of_skipSpace found) (.of_skipSpace rfl)⟩
    · cases read

theorem key_ok {name : String} (read : key text = .ok (name, rest)) : Quoted (some name) text rest := by
  unfold key at read
  split at read
  · exact characters_ok read
  · cases read

theorem nextKey_ok {first : Bool} {name : Option String} (read : nextKey first text = .ok (name, rest)) :
    (name = none ∧ Gap text rest) ∨
      ∃ key start, name = some key ∧ Separated first text start ∧ Quoted (some key) start rest := by
  unfold nextKey at read
  split at read
  · cases read
  · rename_i found
    cases read
    exact .inl ⟨rfl, .of_skipSpace found⟩
  · rename_i found
    split at read
    · rename_i isFirst
      subst isFirst
      obtain ⟨⟨name, _⟩, quoted, read⟩ := bind_eq_ok.1 read
      cases read
      exact .inr ⟨name, _, rfl, .first (.of_skipSpace found), key_ok quoted⟩
    split at read
    · rename_i notFirst comma
      simp only [Bool.not_eq_true] at notFirst
      subst notFirst comma
      split at read
      · cases read
      · cases read
      · obtain ⟨⟨name, _⟩, quoted, read⟩ := bind_eq_ok.1 read
        cases read
        exact .inr ⟨name, _, rfl, .next (.of_skipSpace found) (.of_skipSpace rfl), key_ok quoted⟩
    · cases read

theorem endOfList_ok (read : endOfList text = .ok rest) : Gap text (']' :: rest) := by
  unfold endOfList at read
  split at read
  · cases read
  · rename_i found
    cases read
    exact .of_skipSpace found
  · split at read <;> cases read
  · cases read

theorem endOfObject_ok (read : endOfObject text = .ok rest) : Gap text ('}' :: rest) := by
  unfold endOfObject at read
  split at read
  · cases read
  · rename_i found
    cases read
    exact .of_skipSpace found
  · cases read
  · cases read

/-- What stands where a token is read: all of a scalar, or the bracket of a list or an object. -/
inductive TokenBegins : Token → List Char → List Char → Prop
  | null {text rest : List Char} (begins : Begins .null text rest) : TokenBegins .null text rest
  | boolean {value : Bool} {text rest : List Char} (begins : Begins (.boolean value) text rest) :
    TokenBegins (.boolean value) text rest
  | number {value : Number} {text rest : List Char} (begins : Begins (.number (some value)) text rest) :
    TokenBegins (.number value) text rest
  | string {value : String} {text rest : List Char} (begins : Begins (.string (some value)) text rest) :
    TokenBegins (.string value) text rest
  | list (inner : List Char) : TokenBegins .list ('[' :: inner) ('[' :: inner)
  | object (inner : List Char) : TokenBegins .object ('{' :: inner) ('{' :: inner)

theorem startOfValue_ok {token : Token} (read : startOfValue text = .ok (token, rest)) :
    ∃ start, Gap text start ∧ TokenBegins token start rest := by
  unfold startOfValue at read
  refine ⟨_, .skipSpace text, ?_⟩
  split at read <;> rename_i found
  · cases read
  · obtain ⟨_, letters, read⟩ := bind_eq_ok.1 read
    cases read
    rw [found, word_ok letters]
    exact .null (.null _)
  · obtain ⟨_, letters, read⟩ := bind_eq_ok.1 read
    cases read
    rw [found, word_ok letters]
    exact .boolean (.yes _)
  · obtain ⟨_, letters, read⟩ := bind_eq_ok.1 read
    cases read
    rw [found, word_ok letters]
    exact .boolean (.no _)
  · obtain ⟨⟨_, _⟩, content, read⟩ := bind_eq_ok.1 read
    cases read
    rw [found]
    exact .string (.string (characters_ok content))
  · cases read
    rw [found]
    exact .list _
  · cases read
    rw [found]
    exact .object _
  · split at read
    · obtain ⟨⟨_, _⟩, number, read⟩ := bind_eq_ok.1 read
      cases read
      rw [found]
      exact .number (number_ok number)
    · cases read

/-- What the reader gives is what is meant by a value that stands at the start of the text. -/
def Spelled {α : Type} (reader : Reader α) (means : α → Written → Prop) : Prop :=
  ∀ {text rest : List Char} {value : α}, reader text = .ok (value, rest) →
    ∃ written start, Gap text start ∧ Begins written start rest ∧ means value written

theorem itemsWithin_ok {α : Type} {item : Reader α} {means : α → Written → Prop} (each : Spelled item means)
    {bound : List Char} {first : Bool} {values : List α}
    (read : itemsWithin item bound first text = .ok (values, rest)) :
    ∃ items, List.Forall₂ means values items ∧
      ∀ out, Gap rest (']' :: out) → ItemsBegin first items text out := by
  induction bound generalizing first text values with
  | nil => cases read
  | cons _ bound ih =>
    obtain ⟨⟨more, text⟩, next, read⟩ := bind_eq_ok.1 read
    rcases nextItem_ok next with ⟨rfl, gap⟩ | ⟨rfl, separated⟩
    · cases read
      exact ⟨[], .nil, fun out closing => .close (gap.trans closing)⟩
    · obtain ⟨⟨value, text⟩, head, read⟩ := bind_eq_ok.1 read
      obtain ⟨⟨values, text⟩, tail, read⟩ := bind_eq_ok.1 read
      cases read
      obtain ⟨written, start, gap, begins, said⟩ := each head
      obtain ⟨items, mean, others⟩ := ih tail
      exact ⟨written :: items, .cons said mean,
        fun out closing => .item (separated.trans gap) begins (others out closing)⟩

theorem membersWithin_ok {reader : Reader Json}
    (each : Spelled reader fun value written => written.value? = some value)
    {bound : List Char} {first : Bool} {before after : List (String × Json)}
    (read : membersWithin (member reader) bound first before text = .ok (after, rest)) :
    ∃ entries values, Written.MembersMean entries values ∧ after = values.reverse ++ before ∧
      ∀ out, Gap rest ('}' :: out) → MembersBegin first (Written.named entries) text out := by
  induction bound generalizing first before text with
  | nil => cases read
  | cons _ bound ih =>
    obtain ⟨⟨name, text⟩, next, read⟩ := bind_eq_ok.1 read
    rcases nextKey_ok next with ⟨rfl, gap⟩ | ⟨key, start, rfl, separated, quoted⟩
    · cases read
      exact ⟨[], [], .nil, rfl, fun out closing => .close (gap.trans closing)⟩
    · obtain ⟨⟨state, text⟩, step, read⟩ := bind_eq_ok.1 read
      obtain ⟨_, colon, step⟩ := bind_eq_ok.1 step
      obtain ⟨⟨value, _⟩, held, step⟩ := bind_eq_ok.1 step
      cases step
      obtain ⟨written, start', gap, begins, said⟩ := each held
      obtain ⟨entries, values, mean, rfl, others⟩ := ih read
      refine ⟨(key, written) :: entries, (key, value) :: values, .cons ⟨rfl, said⟩ mean, by simp, ?_⟩
      intro out closing
      exact .member separated quoted (colon_ok colon) gap begins (others out closing)

theorem value_ok (depth : Nat) : Spelled (value depth) fun value written => written.value? = some value := by
  intro text rest result read
  rw [value] at read
  obtain ⟨⟨token, text⟩, found, read⟩ := bind_eq_ok.1 read
  obtain ⟨start, gap, begins⟩ := startOfValue_ok found
  cases begins with
  | null begins | boolean begins | number begins | string begins =>
    cases read
    exact ⟨_, start, gap, begins, rfl⟩
  | list inner =>
    cases depth with
    | zero => cases read
    | succ depth =>
      obtain ⟨⟨values, _⟩, inside, read⟩ := bind_eq_ok.1 read
      cases read
      obtain ⟨tail, content, ending⟩ := insideList_ok inside
      obtain ⟨items, mean, all⟩ := itemsWithin_ok (value_ok depth) content
      refine ⟨.list items, _, gap, .list (all _ (endOfList_ok ending)), ?_⟩
      exact Option.map_eq_some_iff.2 ⟨values, Written.values?_eq_some.2 mean, rfl⟩
  | object inner =>
    cases depth with
    | zero => cases read
    | succ depth =>
      obtain ⟨⟨reversed, _⟩, inside, read⟩ := bind_eq_ok.1 read
      cases read
      obtain ⟨tail, content, ending⟩ := insideObject_ok inside
      obtain ⟨entries, values, mean, rfl, all⟩ := membersWithin_ok (value_ok depth) content
      refine ⟨.object (Written.named entries), _, gap, .object (all _ (endOfObject_ok ending)), ?_⟩
      refine Option.map_eq_some_iff.2 ⟨values, Written.members?_named.2 mean, ?_⟩
      rw [List.append_nil, List.reverse_reverse]

namespace Written

mutual

theorem depth_value (written : Written) {value : Json} (means : written.value? = some value) :
    value.depth = written.depth := by
  match written with
  | .null | .boolean _ | .number (some _) | .string (some _) =>
    cases means
    rfl
  | .number none | .string none => cases means
  | .list items =>
    obtain ⟨values, each, rfl⟩ := Option.map_eq_some_iff.1 means
    exact congrArg (· + 1) (depth_values items each)
  | .object members =>
    obtain ⟨values, each, rfl⟩ := Option.map_eq_some_iff.1 means
    exact congrArg (· + 1) (depth_members members each)

theorem depth_values (items : List Written) {values : List Json} (means : values? items = some values) :
    Json.depthItems values = depthItems items := by
  match items with
  | [] =>
    cases means
    rfl
  | item :: items =>
    obtain ⟨value, first, means⟩ := Option.bind_eq_some_iff.1 means
    obtain ⟨values, others, rfl⟩ := Option.map_eq_some_iff.1 means
    rw [Json.depthItems, depthItems, depth_value item first, depth_values items others]

theorem depth_members (members : List (Option String × Written)) {values : List (String × Json)}
    (means : members? members = some values) : Json.depthMembers values = depthMembers members := by
  match members with
  | [] =>
    cases means
    rfl
  | (key, written) :: members =>
    obtain ⟨key, -, means⟩ := Option.bind_eq_some_iff.1 means
    obtain ⟨value, first, means⟩ := Option.bind_eq_some_iff.1 means
    obtain ⟨values, others, rfl⟩ := Option.map_eq_some_iff.1 means
    rw [Json.depthMembers, depthMembers, depth_value written first, depth_members members others]

end

end Written

theorem blank_of_skipSpace (none : skipSpace text = []) : Blank text :=
  List.dropWhile_eq_nil_iff.1 none

/-- The texts that are parsed are those that spell something with a meaning that does not nest too deep. -/
theorem parse_iff_spells {text : String} {value : Json} :
    parse text = .ok value ↔
      ∃ written : Written, written.Spells text ∧ written.depth ≤ depthLimit ∧ written.value? = some value := by
  constructor
  · intro parsed
    have shallow := depth_of_parse parsed
    unfold parse whole at parsed
    split at parsed
    · cases parsed
    · rename_i result rest read
      split at parsed
      · rename_i none
        cases parsed
        obtain ⟨written, start, gap, begins, said⟩ := value_ok depthLimit read
        rw [written.depth_value said] at shallow
        exact ⟨written, ⟨start, rest, gap, begins, blank_of_skipSpace none⟩, shallow, said⟩
      · cases parsed
  · rintro ⟨written, spells, fits, means⟩
    exact spells.complete written.value_takes fits means

theorem spells_numeral {numeral : Numeral} {text : List Char} (spelled : numeral.Spelled text) :
    Written.Spells (.number numeral.value.toOption) (String.ofList text) := by
  refine ⟨text, [], ?_, ?_, Reader.blank_nil⟩
  · rw [String.toList_ofList]
    exact .refl text
  · have begins := Begins.number spelled []
    rw [List.append_nil] at begins
    exact begins

theorem parse_numeral {numeral : Numeral} {text : List Char} (spelled : numeral.Spelled text) {value : Json} :
    parse (String.ofList text) = .ok value ↔ ∃ number, numeral.value = .ok number ∧ value = .number number := by
  have spells := spells_numeral spelled
  constructor
  · intro parsed
    have means : Written.value? (.number numeral.value.toOption) = some value :=
      spells.sound (Written.value_takes _) parsed
    cases stands : numeral.value with
    | error unread =>
      rw [stands] at means
      cases means
    | ok number =>
      rw [stands] at means
      cases means
      exact ⟨number, rfl, rfl⟩
  · rintro ⟨number, stands, rfl⟩
    rw [stands] at spells
    exact parse_iff_spells.2 ⟨_, spells, Nat.zero_le _, rfl⟩

end ViewTree.Json
