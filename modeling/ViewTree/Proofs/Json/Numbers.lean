import ViewTree.Proofs.Json.Scanning

namespace ViewTree

namespace Json.Reader

/-- What may follow a number: nothing, a blank, a comma or a closing bracket. -/
def Ends (text : List Char) : Prop :=
  ∀ c ∈ text.head?, isSpace c = true ∨ c = ',' ∨ c = ']' ∨ c = '}'

theorem isSpace_of_numeral {c : Char} (first : c = '-' ∨ c.isDigit = true) : isSpace c = false := by
  rcases first with rfl | digit
  · rfl
  · by_contra space
    simp only [isSpace, Bool.or_eq_true, decide_eq_true_eq, Bool.not_eq_false] at space
    rcases space with (((rfl | rfl) | rfl) | rfl) <;> cases digit

theorem ends_nil : Ends [] := by
  intro c member
  cases member

theorem ends_cons {c : Char} {text : List Char} (ends : Ends (c :: text)) :
    c.isDigit = false ∧ c ≠ '.' ∧ c ≠ 'e' ∧ c ≠ 'E' := by
  have first := ends c rfl
  simp only [isSpace, Bool.or_eq_true, decide_eq_true_eq] at first
  rcases first with ((((rfl | rfl) | rfl) | rfl) | rfl | rfl | rfl) <;> decide

theorem exponentPart_ends {text : List Char} (ends : Ends text) (ending : Flaw) :
    exponentPart ending text = .ok (none, text) := by
  cases text with
  | nil => rfl
  | cons c text =>
    obtain ⟨_, _, notLower, notUpper⟩ := ends_cons ends
    unfold exponentPart
    split
    · rename_i same
      exact absurd (List.cons.inj same).1 notLower
    · rename_i same
      exact absurd (List.cons.inj same).1 notUpper
    · rfl

end Json.Reader

theorem toDigits_isDigit {n : Nat} : ∀ c ∈ Nat.toDigits 10 n, c.isDigit = true :=
  fun _ member => Nat.isDigit_of_mem_toDigits (by decide) (by decide) member

theorem toDigits_cons (n : Nat) :
    ∃ c digits, Nat.toDigits 10 n = c :: digits ∧ c.isDigit = true := by
  obtain ⟨c, digits, written⟩ := List.exists_cons_of_ne_nil (Nat.toDigits_ne_nil (n := n) (b := 10))
  have all := toDigits_isDigit (n := n)
  rw [written, List.forall_mem_cons] at all
  exact ⟨c, digits, written, all.1⟩

theorem toDigits_cons_of_pos {n : Nat} (positive : 0 < n) :
    ∃ c digits, Nat.toDigits 10 n = c :: digits ∧ c ≠ '0' := by
  -- The leading digit of a number is that of its tenth.
  induction n using Nat.strongRecOn with
  | _ n ih =>
    by_cases small : n < 10
    · have leading : ∀ digit < 10, 0 < digit → Nat.digitChar digit ≠ '0' := by decide
      exact ⟨_, [], Nat.toDigits_of_lt_base small, leading n small positive⟩
    · obtain ⟨c, digits, written, notZero⟩ := ih (n / 10) (by omega) (by omega)
      refine ⟨c, digits ++ [Nat.digitChar (n % 10)], ?_, notZero⟩
      rw [Nat.toDigits_of_base_le (by decide) (by omega), written, List.cons_append]

namespace Numeral

theorem le_ofDigitChars (digits : List Char) (significand : Nat) :
    significand ≤ Nat.ofDigitChars 10 digits significand := by
  rw [Nat.ofDigitChars_eq_ofDigitChars_zero]
  have positive : 0 < 10 ^ digits.length := Nat.pow_pos (by decide)
  have grown := Nat.le_mul_of_pos_left significand positive
  omega

theorem accumulate_fits (digits : List Char) (significand : Nat)
    (fits : Nat.ofDigitChars 10 digits significand < 0x10000000000000000) :
    accumulate significand digits = (Nat.ofDigitChars 10 digits significand, []) := by
  induction digits generalizing significand with
  | nil => simp [accumulate]
  | cons c digits ih =>
    have step : Nat.ofDigitChars 10 (c :: digits) significand =
        Nat.ofDigitChars 10 digits (significand * 10 + digit c) := by
      rw [Nat.ofDigitChars_cons, digit, Nat.mul_comm 10]
    rw [step] at fits ⊢
    have next : significand * 10 + digit c < 0x10000000000000000 :=
      Nat.lt_of_le_of_lt (le_ofDigitChars digits _) fits
    rw [accumulate, if_pos next, ih _ fits]

end Numeral

namespace Number

open Json.Reader

/-- The number is read from its own text. -/
def ReadsBack (number : Number) : Prop :=
  ∀ rest, Ends rest → Json.Reader.number (number.text ++ rest) = .ok (number, rest)

theorem magnitudeText_cons (m : Magnitude) :
    ∃ c text, magnitudeText m = c :: text ∧ c.isDigit = true := by
  have zero : '0'.isDigit = true := rfl
  unfold magnitudeText
  split
  · exact ⟨_, _, rfl, zero⟩
  · obtain ⟨c, digits, written, digit⟩ := toDigits_cons m.shortest.digits
    simp only [decimalText, written]
    split
    · split
      · exact ⟨_, _, rfl, zero⟩
      · split
        · exact ⟨_, _, rfl, digit⟩
        · exact ⟨_, _, rfl, digit⟩
    · exact ⟨_, _, rfl, digit⟩

theorem text_cons (number : Number) :
    ∃ c text, number.text = c :: text ∧ (c = '-' ∨ c.isDigit = true) := by
  cases number with
  | integer value within =>
    simp only [text, intText]
    split
    · exact ⟨_, _, rfl, .inl rfl⟩
    · obtain ⟨c, digits, written, digit⟩ := toDigits_cons value.natAbs
      exact ⟨c, digits, written, .inr digit⟩
  | float negative m =>
    simp only [text]
    split
    · exact ⟨_, _, rfl, .inl rfl⟩
    · obtain ⟨c, digits, written, digit⟩ := magnitudeText_cons m
      exact ⟨c, digits, written, .inr digit⟩

theorem accumulate_toDigits {n : Nat} (fits : n < 0x10000000000000000) :
    Numeral.accumulate 0 (Nat.toDigits 10 n) = (n, []) := by
  have same : Nat.ofDigitChars 10 (Nat.toDigits 10 n) 0 = n := Nat.ofDigitChars_ten_toDigits
  have read := Numeral.accumulate_fits (Nat.toDigits 10 n) 0 (by rw [same]; exact fits)
  rw [read, same]

theorem ofInt_of_within {value : Int} (within : -0x8000000000000000 ≤ value ∧ value < 0x10000000000000000) :
    ofInt value = some (.integer value within) := dif_pos within

theorem value_digits {value : Int} (within : -0x8000000000000000 ≤ value ∧ value < 0x10000000000000000) :
    Numeral.value ⟨decide (value < 0), Nat.toDigits 10 value.natAbs, [], none⟩ =
      .ok (.integer value within) := by
  have fits : value.natAbs < 0x10000000000000000 := by omega
  simp only [Numeral.value, Numeral.integerValue, accumulate_toDigits fits]
  by_cases negative : value < 0
  · have nonzero : value.natAbs ≠ 0 := by omega
    have restored : -(value.natAbs : Int) = value := by omega
    simp only [decide_eq_true negative, if_true, if_neg nonzero, restored, ofInt_of_within within]
  · have restored : (value.natAbs : Int) = value := by omega
    simp only [decide_eq_false negative, Bool.false_eq_true, if_false, restored, ofInt_of_within within]

end Number

namespace Json.Reader

theorem plain_of_numeral {c : Char} (first : c = '-' ∨ c.isDigit = true) :
    ∀ letter ∈ ['n', 't', 'f', '"', '[', '{'], c ≠ letter := by
  rintro letter member rfl
  rcases first with rfl | digit
  · exact absurd member (by decide)
  · revert digit
    revert member
    simp only [List.mem_cons, List.not_mem_nil, or_false]
    rintro (rfl | rfl | rfl | rfl | rfl | rfl) <;> decide

theorem startOfValue_numeral {c : Char} (first : c = '-' ∨ c.isDigit = true) (text : List Char) :
    startOfValue (c :: text) = (do
      let (value, text) ← number (c :: text)
      .ok (.number value, text)) := by
  have plain := plain_of_numeral first
  rw [startOfValue, skipSpace_cons (isSpace_of_numeral first)]
  split
  · rename_i same
    cases same
  iterate 6
    · rename_i same
      exact absurd (List.cons.inj same).1 (plain _ (by decide))
  · rename_i same
    cases same
    rw [if_pos first]

theorem startOfValue_number {value : Number} (readsBack : value.ReadsBack) {rest : List Char}
    (ends : Ends rest) : startOfValue (value.text ++ rest) = .ok (.number value, rest) := by
  have read := readsBack rest ends
  obtain ⟨c, text, written, first⟩ := value.text_cons
  rw [written, List.cons_append] at read ⊢
  rw [startOfValue_numeral first, read]
  rfl

end Json.Reader

end ViewTree
