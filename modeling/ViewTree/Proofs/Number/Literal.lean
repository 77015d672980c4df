import ViewTree.Proofs.Json.Tokens

namespace ViewTree

section

variable {c : Char} {digits : List Char} {start : Nat}

theorem digit_lt_ten (digit : c.isDigit = true) : c.toNat - '0'.toNat < 10 := by
  have bounds := Char.isDigit_iff_toNat.1 digit
  have zero : '0'.toNat = 48 := rfl
  have nine : '9'.toNat = 57 := rfl
  omega

theorem digitChar_digit (digit : c.isDigit = true) : Nat.digitChar (c.toNat - '0'.toNat) = c := by
  have bounds := Char.isDigit_iff_toNat.1 digit
  have zero : '0'.toNat = 48 := rfl
  apply Char.toNat_inj.1
  rw [Nat.toNat_digitChar_of_lt_ten (digit_lt_ten digit)]
  omega

theorem toDigits_ofDigitChars (positive : 0 < start) (all : ∀ c ∈ digits, c.isDigit = true) :
    Nat.toDigits 10 (Nat.ofDigitChars 10 digits start) = Nat.toDigits 10 start ++ digits := by
  induction digits generalizing start with
  | nil => rw [Nat.ofDigitChars_nil, List.append_nil]
  | cons c digits ih =>
    rw [List.forall_mem_cons] at all
    have small := digit_lt_ten all.1
    calc Nat.toDigits 10 (Nat.ofDigitChars 10 (c :: digits) start)
        = Nat.toDigits 10 (10 * start + (c.toNat - '0'.toNat)) ++ digits := by
          rw [Nat.ofDigitChars_cons, ih (by omega) all.2]
      _ = (Nat.toDigits 10 start ++ Nat.toDigits 10 (c.toNat - '0'.toNat)) ++ digits := by
          rw [Nat.toDigits_append_toDigits (by decide) positive small]
      _ = Nat.toDigits 10 start ++ c :: digits := by
          rw [Nat.toDigits_of_lt_base small, digitChar_digit all.1, List.append_assoc, List.singleton_append]

end

namespace Numeral.WholeSpelled

theorem toDigits_value {whole : List Char} (spelled : WholeSpelled whole) :
    Nat.toDigits 10 (Nat.ofDigitChars 10 whole 0) = whole := by
  cases spelled with
  | zero => rfl
  | @digits c digits notZero all =>
    rw [List.forall_mem_cons] at all
    have rebuilt := digitChar_digit all.1
    have positive : 0 < c.toNat - '0'.toNat := by
      apply Nat.pos_of_ne_zero
      intro zero
      rw [zero] at rebuilt
      exact notZero rebuilt.symm
    rw [Nat.ofDigitChars_cons, Nat.mul_zero, Nat.zero_add, toDigits_ofDigitChars positive all.2,
      Nat.toDigits_of_lt_base (digit_lt_ten all.1), rebuilt, List.singleton_append]

theorem of_toDigits (n : Nat) : WholeSpelled (Nat.toDigits 10 n) := by
  rcases Nat.eq_zero_or_pos n with rfl | positive
  · exact .zero
  · obtain ⟨c, digits, written, notZero⟩ := toDigits_cons_of_pos positive
    have all := toDigits_isDigit (n := n)
    rw [written] at all ⊢
    exact .digits notZero all

theorem isDigit {whole : List Char} (spelled : WholeSpelled whole) : ∀ c ∈ whole, c.isDigit = true := by
  cases spelled with
  | zero => exact List.forall_mem_singleton.2 rfl
  | digits _ all => exact all

end Numeral.WholeSpelled

/-- A written integer: a minus or none, and digits that start with a zero only if it is alone. -/
structure IntegerLiteral where
  negative : Bool
  digits : List Char
  spelled : Numeral.WholeSpelled digits

namespace IntegerLiteral

def chars (literal : IntegerLiteral) : List Char :=
  if literal.negative then '-' :: literal.digits else literal.digits

def text (literal : IntegerLiteral) : String := String.ofList literal.chars

def value (literal : IntegerLiteral) : Int :=
  if literal.negative then -Nat.ofDigitChars 10 literal.digits 0 else Nat.ofDigitChars 10 literal.digits 0

def numeral (literal : IntegerLiteral) : Numeral := ⟨literal.negative, literal.digits, [], none⟩

def ofInt (value : Int) : IntegerLiteral :=
  ⟨decide (value < 0), Nat.toDigits 10 value.natAbs, .of_toDigits value.natAbs⟩

theorem chars_ofInt (value : Int) : (ofInt value).chars = Number.intText value := by
  simp only [ofInt, chars, Number.intText, decide_eq_true_eq]

theorem value_ofInt (value : Int) : (ofInt value).value = value := by
  have same : Nat.ofDigitChars 10 (Nat.toDigits 10 value.natAbs) 0 = value.natAbs := Nat.ofDigitChars_ten_toDigits
  simp only [ofInt, IntegerLiteral.value, same, decide_eq_true_eq]
  split <;> omega

theorem numeral_spelled (literal : IntegerLiteral) : literal.numeral.Spelled literal.chars := by
  obtain ⟨negative, digits, spelled⟩ := literal
  have whole : digits = digits ++ ([] ++ []) := by rw [List.append_nil, List.append_nil]
  cases negative with
  | false =>
    have positive := Numeral.Spelled.positive spelled .absent .absent
    rw [← whole] at positive
    exact positive
  | true =>
    have negative := Numeral.Spelled.negative spelled .absent .absent
    rw [← whole] at negative
    exact negative

theorem chars_injective {first second : IntegerLiteral} (same : first.chars = second.chars) : first = second := by
  have unsigned {digits others : List Char} (spelled : Numeral.WholeSpelled digits) : digits ≠ '-' :: others := by
    rintro rfl
    exact absurd (spelled.isDigit '-' List.mem_cons_self) (by decide)
  obtain ⟨sign, digits, spelled⟩ := first
  obtain ⟨sign', digits', spelled'⟩ := second
  cases sign <;> cases sign'
  case false.false => cases (same : digits = digits'); rfl
  case false.true => exact absurd same (unsigned spelled)
  case true.false => exact absurd same.symm (unsigned spelled')
  case true.true => cases (List.cons.inj same).2; rfl

theorem ofInt_ne_signed_zero (value : Int) : (ofInt value).text ≠ "-0" := by
  intro same
  have chars : (ofInt value).chars = (⟨true, ['0'], .zero⟩ : IntegerLiteral).chars := String.ofList_inj.1 same
  have zero := chars_injective chars
  have restored := value_ofInt value
  rw [zero] at restored
  cases restored
  exact absurd (congrArg negative zero) (by decide)

theorem ofInt_value {literal : IntegerLiteral} (unsigned : literal.text ≠ "-0") : ofInt literal.value = literal := by
  obtain ⟨negative, digits, spelled⟩ := literal
  have same := spelled.toDigits_value
  apply chars_injective
  rw [chars_ofInt, Number.intText]
  cases negative with
  | false =>
    have least : ¬ (Nat.ofDigitChars 10 digits 0 : Int) < 0 := by omega
    simp only [value, chars, Bool.false_eq_true, if_false, if_neg least, Int.natAbs_natCast, same]
  | true =>
    have positive : Nat.ofDigitChars 10 digits 0 ≠ 0 := by
      intro zero
      rw [zero] at same
      cases same
      exact unsigned rfl
    have less : -(Nat.ofDigitChars 10 digits 0 : Int) < 0 := by omega
    simp only [value, chars, if_true, if_pos less, Int.natAbs_neg, Int.natAbs_natCast, same]

theorem ofInt_eq_iff {literal : IntegerLiteral} {value : Int} :
    ofInt value = literal ↔ value = literal.value ∧ literal.text ≠ "-0" := by
  constructor
  · rintro rfl
    exact ⟨(value_ofInt value).symm, ofInt_ne_signed_zero value⟩
  · rintro ⟨rfl, unsigned⟩
    exact ofInt_value unsigned

theorem chars_plain (literal : IntegerLiteral) : '.' ∉ literal.chars ∧ 'e' ∉ literal.chars := by
  have all : ∀ c ∈ literal.chars, c = '-' ∨ c.isDigit = true := by
    intro c member
    unfold chars at member
    split at member
    · rcases List.mem_cons.1 member with sign | digit
      · exact .inl sign
      · exact .inr (literal.spelled.isDigit c digit)
    · exact .inr (literal.spelled.isDigit c member)
  exact ⟨fun member => absurd (all _ member) (by decide), fun member => absurd (all _ member) (by decide)⟩

end IntegerLiteral

namespace Number

/-- An integer of 64 bits is read back from its digits, whatever ends them. -/
theorem integer_readsBack (value : Int) (within : -0x8000000000000000 ≤ value ∧ value < 0x10000000000000000) :
    ReadsBack (.integer value within) := by
  intro rest ends
  have spelled := (IntegerLiteral.ofInt value).numeral_spelled
  rw [IntegerLiteral.chars_ofInt] at spelled
  have stands : (IntegerLiteral.ofInt value).numeral.value = .ok (.integer value within) := value_digits within
  simp only [Json.Reader.number, text, Json.numeral_spelled spelled ends, stands, bind, Except.bind]

theorem point_or_power_mem_decimalText (d : Decimal) : '.' ∈ decimalText d ∨ 'e' ∈ decimalText d := by
  simp only [decimalText]
  split
  · left
    split
    · simp
    · split <;> simp
  · right
    simp

theorem point_or_power_mem_text (negative : Bool) (m : Magnitude) :
    '.' ∈ (Number.float negative m).text ∨ 'e' ∈ (Number.float negative m).text := by
  have unsigned : '.' ∈ magnitudeText m ∨ 'e' ∈ magnitudeText m := by
    unfold magnitudeText
    split
    · exact .inl (by decide)
    · exact point_or_power_mem_decimalText m.shortest
  rw [text]
  split
  · exact unsigned.imp (List.mem_cons_of_mem _) (List.mem_cons_of_mem _)
  · exact unsigned

/-- A number has the text of a written integer only if it is the integer that is written. -/
theorem text_eq_iff {number : Number} {literal : IntegerLiteral} :
    number.text = literal.chars ↔ (∃ within, number = .integer literal.value within) ∧ literal.text ≠ "-0" := by
  cases number with
  | integer value within =>
    have same : (Number.integer value within).text = literal.chars ↔ IntegerLiteral.ofInt value = literal := by
      rw [text, ← IntegerLiteral.chars_ofInt]
      exact ⟨IntegerLiteral.chars_injective, congrArg IntegerLiteral.chars⟩
    rw [same, IntegerLiteral.ofInt_eq_iff]
    refine and_congr_left' ⟨?_, ?_⟩
    · rintro rfl
      exact ⟨within, rfl⟩
    · rintro ⟨_, same⟩
      injection same
  | float negative m =>
    have plain := literal.chars_plain
    constructor
    · intro same
      have marked := point_or_power_mem_text negative m
      rw [same] at marked
      exact absurd marked (not_or.2 plain)
    · rintro ⟨⟨_, same⟩, -⟩
      cases same

end Number

end ViewTree
