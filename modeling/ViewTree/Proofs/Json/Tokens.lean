import ViewTree.Json.Reader.Skip
import ViewTree.Proofs.Json.Grammar
import ViewTree.Proofs.Outcome

namespace ViewTree.Json.Reader

variable {α β : Type} {fits : Prop} {rest rest' : List Char} {meaning : α → Prop}

/-- The outcome of reading a value behind which `rest` stands: nothing but a value with that meaning, and each
such value as long as it fits. -/
structure Gives (fits : Prop) (outcome : Except Fault (α × List Char)) (rest : List Char)
    (meaning : α → Prop) : Prop where
  sound : ∀ {value after}, outcome = .ok (value, after) → after = rest ∧ meaning value
  complete : ∀ {value}, fits → meaning value → outcome = .ok (value, rest)

namespace Gives

variable {outcome : Except Fault (α × List Char)}

theorem done (fits : Prop) (value : α) (rest : List Char) :
    Gives fits (.ok (value, rest)) rest (value = ·) where
  sound := by
    intro other after same
    cases same
    exact ⟨rfl, rfl⟩
  complete := by
    intro other _ same
    rw [same]

theorem fails (fits : Prop) (fault : Fault) (rest : List Char) :
    Gives fits (.error fault : Except Fault (α × List Char)) rest fun _ => False where
  sound := nofun
  complete := fun _ => False.elim

theorem none (fits : Prop) (fault : Fault) (rest : List Char) :
    Gives fits (.error fault : Except Fault (α × List Char)) rest (Option.none = some ·) where
  sound := nofun
  complete := by
    intro value _ means
    cases means

/-- A reading that fails because the value does not fit says nothing about its meaning. -/
theorem refused (deep : ¬ fits) (fault : Fault) (rest : List Char) (meaning : α → Prop) :
    Gives fits (.error fault) rest meaning where
  sound := nofun
  complete := fun enough => absurd enough deep

theorem congr {meaning' : α → Prop} (gives : Gives fits outcome rest meaning)
    (same : ∀ value, meaning value ↔ meaning' value) : Gives fits outcome rest meaning' where
  sound := by
    intro value after read
    rw [← same]
    exact gives.sound read
  complete := by
    intro value enough means
    rw [← same] at means
    exact gives.complete enough means

theorem within {fits' : Prop} (gives : Gives fits outcome rest meaning) (enough : fits' → fits) :
    Gives fits' outcome rest meaning where
  sound := gives.sound
  complete := fun room => gives.complete (enough room)

theorem bind {next : α × List Char → Except Fault (β × List Char)} {meaning' : α → β → Prop}
    (first : Gives fits outcome rest meaning)
    (second : ∀ value, meaning value → Gives fits (next (value, rest)) rest' (meaning' value)) :
    Gives fits (outcome >>= next) rest' fun result => ∃ value, meaning value ∧ meaning' value result where
  sound := by
    intro result after read
    obtain ⟨⟨value, text⟩, head, tail⟩ := bind_eq_ok.1 read
    obtain ⟨rfl, means⟩ := first.sound head
    obtain ⟨left, means'⟩ := (second value means).sound tail
    exact ⟨left, value, means, means'⟩
  complete := by
    intro result enough means
    obtain ⟨value, means, means'⟩ := means
    exact bind_eq_ok.2 ⟨_, first.complete enough means, (second value means).complete enough means'⟩

theorem map {next : α × List Char → Except Fault (β × List Char)} (f : α → β)
    (first : Gives fits outcome rest meaning) (second : ∀ value, next (value, rest) = .ok (f value, rest')) :
    Gives fits (outcome >>= next) rest' fun result => ∃ value, meaning value ∧ f value = result := by
  apply first.bind
  intro value _
  rw [second]
  exact .done fits (f value) rest'

theorem eq_error (gives : Gives fits outcome rest (Option.none = some ·)) :
    ∃ fault, outcome = .error fault := by
  cases outcome with
  | error fault => exact ⟨fault, rfl⟩
  | ok read =>
    obtain ⟨-, means⟩ := gives.sound rfl
    cases means

end Gives

end ViewTree.Json.Reader

namespace ViewTree.Json

open Reader

variable {text rest : List Char}

namespace Gap

theorem skipSpace_eq (gap : Gap text rest) : skipSpace text = skipSpace rest := by
  cases gap with
  | blank spaces => exact skipSpace_blank spaces rest

theorem skipSpace_cons {c : Char} (gap : Gap text (c :: rest)) (dark : isSpace c = false) :
    skipSpace text = c :: rest := by
  rw [gap.skipSpace_eq, Reader.skipSpace_cons dark]

theorem startOfValue_eq (gap : Gap text rest) : startOfValue text = startOfValue rest := by
  rw [startOfValue, startOfValue, gap.skipSpace_eq]

theorem skipToken_eq (gap : Gap text rest) : skipToken text = skipToken rest := by
  rw [skipToken, skipToken, gap.skipSpace_eq]

theorem colon_eq (gap : Gap text (':' :: rest)) : colon text = .ok rest := by
  simp only [colon, gap.skipSpace_cons rfl]

theorem ends {c : Char} (gap : Gap text (c :: rest)) (closing : c = ',' ∨ c = ']' ∨ c = '}') : Ends text := by
  cases gap with
  | @blank blank spaces =>
    cases blank with
    | nil =>
      intro first member
      cases member
      exact .inr closing
    | cons space blank =>
      intro first member
      cases member
      exact .inl (spaces _ List.mem_cons_self)

end Gap

theorem PieceBegins.unit_digits {value : Nat} (begins : PieceBegins (.unit value) text rest) :
    ∃ digits, text = '\\' :: 'u' :: digits ∧ hexUnit digits = .ok (value, rest) := by
  cases begins with
  | unit first second third fourth =>
    refine ⟨_, rfl, ?_⟩
    simp only [hexUnit, first, second, third, fourth]

theorem escaped_short {letter c : Char} (stands : (letter, c) ∈ shortEscapes) (rest : List Char) :
    escaped (letter :: rest) = .ok (c, rest) := by
  simp only [shortEscapes, List.mem_cons, List.not_mem_nil, or_false, Prod.mk.injEq] at stands
  rcases stands with ⟨rfl, rfl⟩ | ⟨rfl, rfl⟩ | ⟨rfl, rfl⟩ | ⟨rfl, rfl⟩ | ⟨rfl, rfl⟩ | ⟨rfl, rfl⟩ |
    ⟨rfl, rfl⟩ | ⟨rfl, rfl⟩ <;> rfl

theorem lowSurrogate_of_plain {pieces : List Piece} (begins : PiecesBegin pieces text rest)
    (plain : ∀ low more, pieces ≠ .unit low :: more) (high : Nat) :
    ∃ fault, lowSurrogate high text = .error fault := by
  cases begins with
  | close => exact ⟨_, rfl⟩
  | @piece piece pieces _ next _ first others =>
    cases first with
    | @plain c notQuote notBackslash printable =>
      unfold lowSurrogate
      split
      · exact ⟨_, rfl⟩
      · exact ⟨_, rfl⟩
      · rename_i same
        exact absurd (List.cons.inj same).1 notBackslash
      · exact ⟨_, rfl⟩
      · exact ⟨_, rfl⟩
    | @short letter c stands =>
      have notUnit : letter ≠ 'u' := by
        intro same
        subst same
        simp [shortEscapes] at stands
      unfold lowSurrogate
      split
      · exact ⟨_, rfl⟩
      · exact ⟨_, rfl⟩
      · rename_i same
        exact absurd (List.cons.inj (List.cons.inj same).2).1 notUnit
      · exact ⟨_, rfl⟩
      · exact ⟨_, rfl⟩
    | unit => exact absurd rfl (plain _ _)

namespace Piece

variable {high : Nat} {pieces : List Piece}

theorem content_low (isLow : 0xDC00 ≤ high ∧ high ≤ 0xDFFF) : content (.unit high :: pieces) = none := by
  unfold content
  exact if_pos isLow

theorem content_lone (isHigh : 0xD800 ≤ high ∧ high ≤ 0xDBFF)
    (lone : ∀ low more, pieces ≠ .unit low :: more) : content (.unit high :: pieces) = none := by
  have notLow : ¬ (0xDC00 ≤ high ∧ high ≤ 0xDFFF) := by omega
  rw [content.eq_def]
  simp only [if_neg notLow, if_pos isHigh]

theorem content_unit (notLow : ¬ (0xDC00 ≤ high ∧ high ≤ 0xDFFF))
    (notHigh : ¬ (0xD800 ≤ high ∧ high ≤ 0xDBFF)) :
    content (.unit high :: pieces) = (content pieces).map (Char.ofNat high :: ·) := by
  rw [content.eq_def]
  simp only [if_neg notLow, if_neg notHigh]

end Piece

theorem Reader.Gives.character {bound : List Char} {pieces : List Piece}
    (later : Gives True (charactersWithin bound text) rest (Piece.content pieces = some ·)) (c : Char) :
    Gives True (do
        let (content, text) ← charactersWithin bound text
        .ok (c :: content, text)) rest ((Piece.content pieces).map (c :: ·) = some ·) :=
  (later.map (c :: ·) fun _ => rfl).congr fun content => by simp

theorem charactersWithin_gives {pieces : List Piece} {text rest bound : List Char}
    (begins : PiecesBegin pieces text rest) (enough : pieces.length < bound.length) :
    Gives True (charactersWithin bound text) rest (Piece.content pieces = some ·) := by
  obtain ⟨first, bound, rfl⟩ := List.exists_cons_of_length_pos (Nat.zero_lt_of_lt enough)
  match pieces, begins with
  | [], .close _ => exact (Gives.done True [] rest).congr fun content => by simp [Piece.content]
  | .plain c :: pieces, .piece begins others =>
    have later := charactersWithin_gives others (Nat.lt_of_succ_lt_succ enough)
    cases begins with
    | plain notQuote notBackslash printable =>
      simp only [charactersWithin, if_neg notQuote, if_neg notBackslash, if_neg printable]
      exact later.character c
    | short stands =>
      simp only [charactersWithin, Char.reduceEq, if_false, if_true, escaped_short stands]
      exact later.character c
  | .unit high :: pieces, .piece begins others =>
    obtain ⟨digits, rfl, unit⟩ := begins.unit_digits
    simp only [charactersWithin, Char.reduceEq, if_false, if_true, escaped, escapedUnit, unit, bind, Except.bind]
    by_cases isLow : 0xDC00 ≤ high ∧ high ≤ 0xDFFF
    · rw [if_pos isLow, Piece.content_low isLow]
      exact .none True _ rest
    by_cases isHigh : 0xD800 ≤ high ∧ high ≤ 0xDBFF
    · rw [if_neg isLow, if_pos isHigh]
      by_cases paired : ∃ low more, pieces = .unit low :: more
      · obtain ⟨low, more, rfl⟩ := paired
        cases others with
        | piece begins others =>
          obtain ⟨digits', rfl, unit'⟩ := begins.unit_digits
          have shorter : more.length < bound.length := Nat.lt_of_succ_lt (Nat.lt_of_succ_lt_succ enough)
          have later := charactersWithin_gives others shorter
          simp only [Piece.content, lowSurrogate, unit', if_neg isLow, if_pos isHigh, bind, Except.bind]
          by_cases isLow' : 0xDC00 ≤ low ∧ low ≤ 0xDFFF
          · simp only [if_pos isLow']
            exact later.character _
          · simp only [if_neg isLow']
            exact .none True _ rest
      · have lone : ∀ low more, pieces ≠ .unit low :: more := fun low more same => paired ⟨low, more, same⟩
        obtain ⟨fault, failed⟩ := lowSurrogate_of_plain others lone high
        rw [failed, Piece.content_lone isHigh lone]
        exact .none True fault rest
    · have later := charactersWithin_gives others (Nat.lt_of_succ_lt_succ enough)
      rw [if_neg isLow, if_neg isHigh, Piece.content_unit isLow isHigh]
      exact later.character _

theorem skipStringWithin_pieces {pieces : List Piece} {bound : List Char}
    (begins : PiecesBegin pieces text rest) (enough : pieces.length < bound.length) :
    skipStringWithin bound text = .ok rest := by
  induction begins generalizing bound with
  | close =>
    obtain ⟨_, bound, rfl⟩ := List.exists_cons_of_length_pos enough
    rfl
  | piece first _ ih =>
    obtain ⟨_, bound, rfl⟩ := List.exists_cons_of_length_pos (Nat.zero_lt_of_lt enough)
    have later := ih (Nat.lt_of_succ_lt_succ enough)
    cases first with
    | plain notQuote notBackslash printable =>
      simp only [skipStringWithin, if_neg notQuote, if_neg notBackslash, if_neg printable]
      exact later
    | short stands =>
      simp only [shortEscapes, List.mem_cons, List.not_mem_nil, or_false, Prod.mk.injEq] at stands
      rcases stands with ⟨rfl, rfl⟩ | ⟨rfl, rfl⟩ | ⟨rfl, rfl⟩ | ⟨rfl, rfl⟩ | ⟨rfl, rfl⟩ | ⟨rfl, rfl⟩ |
        ⟨rfl, rfl⟩ | ⟨rfl, rfl⟩ <;> exact later
    | unit first second third fourth =>
      simp only [skipStringWithin, Char.reduceEq, if_false, if_true, hexUnit, first, second, third, fourth, bind,
        Except.bind]
      exact later

namespace Quoted

variable {content : Option String}

theorem characters_gives (quoted : Quoted content ('"' :: text) rest) :
    Gives True (characters text) rest (content = some ·) := by
  cases quoted with
  | quote begins =>
    have enough := length_pieces begins
    have gives := charactersWithin_gives begins (Nat.lt_of_le_of_lt (Nat.le_add_right ..) enough)
    exact (gives.map String.ofList fun _ => rfl).congr fun content => by simp

theorem skipString_eq (quoted : Quoted content ('"' :: text) rest) : skipString text = .ok rest := by
  cases quoted with
  | quote begins =>
    have enough := length_pieces begins
    exact skipStringWithin_pieces begins (by omega)

end Quoted

def Stops (text : List Char) : Prop := ∀ c ∈ text.head?, c.isDigit = false ∧ c ≠ '.'

theorem stops_of_ends (ends : Ends rest) : Stops rest := by
  intro c first
  cases rest with
  | nil => cases first
  | cons c rest =>
    cases first
    obtain ⟨notDigit, notPoint, -⟩ := ends_cons ends
    exact ⟨notDigit, notPoint⟩

theorem digits_stop {digits : List Char} (all : ∀ c ∈ digits, c.isDigit = true)
    (stop : ∀ c ∈ rest.head?, c.isDigit = false) :
    (digits ++ rest).takeWhile Char.isDigit = digits ∧ (digits ++ rest).dropWhile Char.isDigit = rest := by
  rw [List.takeWhile_append_of_pos all, List.dropWhile_append_of_pos all]
  cases rest with
  | nil => simp
  | cons c rest =>
    have notDigit := stop c rfl
    simp [notDigit]

theorem wholeDigits_spelled {whole : List Char} (spelled : Numeral.WholeSpelled whole)
    (stop : ∀ c ∈ rest.head?, c.isDigit = false) (ending : Flaw) :
    wholeDigits ending (whole ++ rest) = .ok (whole, rest) := by
  cases spelled with
  | zero =>
    have none : ¬ rest.head?.any Char.isDigit = true := by
      cases rest with
      | nil => nofun
      | cons c rest => simp [stop c rfl]
    simp only [List.cons_append, List.nil_append, wholeDigits, if_neg none]
  | @digits c digits notZero all =>
    rw [List.forall_mem_cons] at all
    obtain ⟨taken, dropped⟩ := digits_stop all.2 stop
    rw [List.cons_append]
    unfold wholeDigits
    split
    · rename_i same
      cases same
    · rename_i same
      exact absurd (List.cons.inj same).1 notZero
    · rename_i same
      cases same
      rw [if_pos all.1, taken, dropped]

theorem fractionDigits_spelled {fraction point : List Char} (spelled : Numeral.FractionSpelled fraction point)
    (stop : Stops rest) (ending : Flaw) :
    fractionDigits ending (point ++ rest) = .ok (fraction, rest) := by
  cases spelled with
  | absent =>
    rw [List.nil_append]
    unfold fractionDigits
    split
    · exact absurd rfl (stop '.' rfl).2
    · rfl
  | point some =>
    obtain ⟨c, digits, rfl⟩ := List.exists_cons_of_ne_nil some.1
    have all := some.2
    rw [List.forall_mem_cons] at all
    obtain ⟨taken, dropped⟩ := digits_stop all.2 fun c first => (stop c first).1
    simp only [List.cons_append, fractionDigits, if_pos all.1, taken, dropped]

theorem exponentDigits_spelled {digits : List Char} (some : Numeral.Digits digits) (ends : Ends rest)
    (ending : Flaw) : exponentDigits ending (digits ++ rest) = .ok (digits, rest) := by
  obtain ⟨c, digits, rfl⟩ := List.exists_cons_of_ne_nil some.1
  have all := some.2
  rw [List.forall_mem_cons] at all
  obtain ⟨taken, dropped⟩ := digits_stop all.2 fun c first => (stops_of_ends ends c first).1
  simp only [List.cons_append, exponentDigits, if_pos all.1, taken, dropped]

theorem exponentPart_spelled {exponent : Option (Bool × List Char)} {power : List Char}
    (spelled : Numeral.ExponentSpelled exponent power) (ends : Ends rest) (ending : Flaw) :
    exponentPart ending (power ++ rest) = .ok (exponent, rest) := by
  cases spelled with
  | absent => exact exponentPart_ends ends ending
  | plain marked some =>
    have read := exponentDigits_spelled some ends ending
    obtain ⟨c, digits, rfl⟩ := List.exists_cons_of_ne_nil some.1
    have digit := some.2 c List.mem_cons_self
    -- A digit is no sign, so nothing is taken off before the digits.
    have unsigned : ∀ sign : Char, sign.isDigit = false → c ≠ sign := by
      intro sign notDigit same
      rw [same, notDigit] at digit
      cases digit
    have minus := unsigned '-' rfl
    have plus := unsigned '+' rfl
    rw [List.cons_append] at read
    rcases marked with rfl | rfl <;>
      simp only [List.cons_append, exponentPart, List.cons.injEq, minus, plus, false_and, imp_self, implies_true,
        read, bind, Except.bind]
  | up marked some | down marked some =>
    have read := exponentDigits_spelled some ends ending
    rcases marked with rfl | rfl <;> simp only [List.cons_append, exponentPart, read, bind, Except.bind]

theorem stops_exponent {exponent : Option (Bool × List Char)} {power : List Char}
    (spelled : Numeral.ExponentSpelled exponent power) (ends : Ends rest) : Stops (power ++ rest) := by
  have marks : ∀ mark : Char, mark = 'e' ∨ mark = 'E' → mark.isDigit = false ∧ mark ≠ '.' := by
    rintro mark (rfl | rfl) <;> decide
  intro c first
  cases spelled with
  | absent => exact stops_of_ends ends c first
  | plain marked | up marked | down marked =>
    cases first
    exact marks _ marked

theorem fraction_stops {fraction point : List Char} (spelled : Numeral.FractionSpelled fraction point)
    (stop : Stops rest) : ∀ c ∈ (point ++ rest).head?, c.isDigit = false := by
  intro c first
  cases spelled with
  | absent => exact (stop c first).1
  | point =>
    cases first
    rfl

theorem unsigned_spelled {whole fraction point power : List Char} {exponent : Option (Bool × List Char)}
    (first : Numeral.WholeSpelled whole) (second : Numeral.FractionSpelled fraction point)
    (third : Numeral.ExponentSpelled exponent power) (ends : Ends rest) (ending : Flaw) (negative : Bool) :
    unsigned ending negative (whole ++ (point ++ power) ++ rest) =
      .ok (⟨negative, whole, fraction, exponent⟩, rest) := by
  have stop := stops_exponent third ends
  have wholes := wholeDigits_spelled first (fraction_stops second stop) ending
  have fractions := fractionDigits_spelled second stop ending
  have exponents := exponentPart_spelled third ends ending
  simp only [unsigned, List.append_assoc, wholes, fractions, exponents, bind, Except.bind]

theorem numeral_spelled {n : Numeral} {text : List Char} (spelled : n.Spelled text) (ends : Ends rest)
    (ending : Flaw) : numeral ending (text ++ rest) = .ok (n, rest) := by
  cases spelled with
  | negative first second third => exact unsigned_spelled first second third ends ending true
  | positive first second third =>
    have read := unsigned_spelled first second third ends ending false
    obtain ⟨c, digits, rfl, digit⟩ := first.cons
    unfold numeral
    split
    · rename_i same
      have dash : ('-' : Char).isDigit = true := (List.cons.inj same).1 ▸ digit
      exact absurd dash (by decide)
    · exact read

theorem number_gives {n : Numeral} {text : List Char} (spelled : n.Spelled text) (ends : Ends rest) :
    Gives True (Reader.number (text ++ rest)) rest (n.value.toOption = some ·) := by
  simp only [Reader.number, numeral_spelled spelled ends, bind, Except.bind]
  cases n.value with
  | ok value => exact (Gives.done True value rest).congr fun number => by simp [Except.toOption]
  | error unread => exact .none True _ rest

end ViewTree.Json
