import ViewTree.Proofs.Json.Spelling
import ViewTree.Proofs.Number.Shortest

namespace ViewTree

/-- The significand and the power of ten that are read from the text of a decimal. -/
def Decimal.written (d : Decimal) : Decimal :=
  if 0 ≤ d.exponent ∧ Number.isPositional (d.exponent + (Nat.toDigits 10 d.digits).length - 1) then
    ⟨d.digits * 10 ^ (d.exponent.toNat + 1), -1⟩
  else d

theorem Decimal.written_value (d : Decimal) : d.written.value = d.value := by
  unfold written
  split
  · rename_i whole
    obtain ⟨places, same⟩ := Int.eq_ofNat_of_zero_le whole.1
    simp only [value, same, Int.toNat_natCast, zpow_natCast, zpow_neg_one]
    push_cast
    rw [pow_succ]
    field_simp
  · rfl

theorem Decimal.written_digits {d : Decimal} (positive : 0 < d.digits) (fits : d.digits < 10 ^ 17) :
    0 < d.written.digits ∧ d.written.digits < 10 ^ 17 := by
  unfold written
  split
  · rename_i whole
    obtain ⟨some, positional⟩ := whole
    rw [Number.isPositional, Bool.and_eq_true, decide_eq_true_eq, decide_eq_true_eq] at positional
    have under := (Nat.length_toDigits_le_iff (by decide) Nat.length_toDigits_pos).1
      (Nat.le_refl (Nat.toDigits 10 d.digits).length)
    refine ⟨Nat.mul_pos positive (Nat.pow_pos (by decide)), ?_⟩
    calc d.digits * 10 ^ (d.exponent.toNat + 1)
        < 10 ^ (Nat.toDigits 10 d.digits).length * 10 ^ (d.exponent.toNat + 1) :=
          Nat.mul_lt_mul_of_pos_right under (Nat.pow_pos (by decide))
      _ = 10 ^ ((Nat.toDigits 10 d.digits).length + (d.exponent.toNat + 1)) := (Nat.pow_add ..).symm
      _ ≤ 10 ^ 17 := Nat.pow_le_pow_right (by decide) (by omega)
  · exact ⟨positive, fits⟩

namespace Numeral

theorem parts_eq {n : Numeral} {digits : Nat} (read : Nat.ofDigitChars 10 (n.whole ++ n.fraction) 0 = digits)
    (fits : digits < 10 ^ 17) : n.parts = (digits, -(n.fraction.length : Int)) := by
  rw [Nat.ofDigitChars_append] at read
  have whole := le_ofDigitChars n.fraction (Nat.ofDigitChars 10 n.whole 0)
  have first := accumulate_fits n.whole 0 (by omega)
  have second := accumulate_fits n.fraction (Nat.ofDigitChars 10 n.whole 0) (by omega)
  simp only [parts, first, second, read, List.length_nil]
  simp

theorem exponentValue_fits (digits : List Char) (value : Nat)
    (fits : Nat.ofDigitChars 10 digits value < 0x80000000) :
    exponentValue value digits = .ok (Nat.ofDigitChars 10 digits value) := by
  induction digits generalizing value with
  | nil => simp [exponentValue]
  | cons c digits ih =>
    have step : Nat.ofDigitChars 10 (c :: digits) value = Nat.ofDigitChars 10 digits (value * 10 + digit c) := by
      rw [Nat.ofDigitChars_cons, digit, Nat.mul_comm 10]
    rw [step] at fits ⊢
    have next : value * 10 + digit c < 0x80000000 := Nat.lt_of_le_of_lt (le_ofDigitChars digits _) fits
    rw [exponentValue, if_pos next, ih _ fits]

theorem exponentValue_toDigits {places : Nat} (fits : places < 0x80000000) :
    exponentValue 0 (Nat.toDigits 10 places) = .ok places := by
  have same : Nat.ofDigitChars 10 (Nat.toDigits 10 places) 0 = places := Nat.ofDigitChars_ten_toDigits
  have read := exponentValue_fits (Nat.toDigits 10 places) 0 (by rw [same]; exact fits)
  rw [read, same]

section

variable {n : Numeral} {digits : Nat} {power : Int} {read : Magnitude}

-- What scales the significand is only named here: no proof is to compute with it.
theorem floatValue_plain (taken : n.parts = (digits, power)) (plain : n.exponent = none)
    (scaling : scaled digits power = some read) : n.floatValue = .ok (.float n.negative read) := by
  obtain ⟨scale, same⟩ : ∃ scale, scale = scaled := ⟨_, rfl⟩
  rw [← same] at scaling
  rw [floatValue, taken, plain, ← same]
  dsimp only
  rw [scaling]

theorem floatValue_scientific {down : Bool} {exponent : List Char} {places : Nat} (taken : n.parts = (digits, power))
    (scientific : n.exponent = some (down, exponent)) (value : exponentValue 0 exponent = .ok places)
    (scaling : scaled digits (if down then power - places else power + places) = some read) :
    n.floatValue = .ok (.float n.negative read) := by
  obtain ⟨scale, same⟩ : ∃ scale, scale = scaled := ⟨_, rfl⟩
  rw [← same] at scaling
  rw [floatValue, taken, scientific, ← same]
  dsimp only
  rw [value]
  dsimp only
  rw [scaling]

end

theorem value_eq_floatValue {n : Numeral} (float : n.fraction ≠ [] ∨ n.exponent ≠ none) : n.value = n.floatValue := by
  unfold value
  split
  · rename_i noFraction noExponent
    rcases float with some | some
    · exact absurd noFraction some
    · exact absurd noExponent some
  · rfl

def power (n : Numeral) : Int :=
  match n.exponent with
  | none => 0
  | some (down, digits) =>
    if down then -(Nat.ofDigitChars 10 digits 0 : Int) else Nat.ofDigitChars 10 digits 0

/-- The decimal that a numeral writes, its sign left aside. -/
def decimal (n : Numeral) : Decimal :=
  ⟨Nat.ofDigitChars 10 (n.whole ++ n.fraction) 0, n.power - n.fraction.length⟩

/-- The text, which has no sign, writes a decimal and is read as it. -/
def Says (text : List Char) (d : Decimal) : Prop :=
  ∃ whole fraction exponent point power, WholeSpelled whole ∧ FractionSpelled fraction point ∧
    ExponentSpelled exponent power ∧ whole ++ (point ++ power) = text ∧
    (∀ negative, decimal ⟨negative, whole, fraction, exponent⟩ = d) ∧
    ∀ negative read, scaled d.digits d.exponent = some read →
      value ⟨negative, whole, fraction, exponent⟩ = .ok (.float negative read)

theorem says_plain {whole fraction : List Char} {digits : Nat} (first : WholeSpelled whole) (second : Digits fraction)
    (value : Nat.ofDigitChars 10 (whole ++ fraction) 0 = digits) (fits : digits < 10 ^ 17) :
    Says (whole ++ '.' :: fraction) ⟨digits, -(fraction.length : Int)⟩ := by
  refine ⟨whole, fraction, none, '.' :: fraction, [], first, .point second, .absent, ?_, ?_, ?_⟩
  · rw [List.append_nil]
  · intro negative
    simp only [decimal, power, value, zero_sub]
  · intro negative read scaling
    rw [value_eq_floatValue (.inl second.1)]
    exact floatValue_plain (parts_eq value fits) rfl scaling

theorem power_toDigits {negative : Bool} {whole fraction : List Char} (exponent : Int) :
    power ⟨negative, whole, fraction, some (decide (exponent < 0), Nat.toDigits 10 exponent.natAbs)⟩ = exponent := by
  have same : Nat.ofDigitChars 10 (Nat.toDigits 10 exponent.natAbs) 0 = exponent.natAbs := Nat.ofDigitChars_ten_toDigits
  simp only [power, same, decide_eq_true_eq]
  split <;> omega

theorem says_scientific {whole fraction point : List Char} {digits : Nat} (exponent : Int) (first : WholeSpelled whole)
    (second : FractionSpelled fraction point) (value : Nat.ofDigitChars 10 (whole ++ fraction) 0 = digits)
    (fits : digits < 10 ^ 17) (range : exponent.natAbs < 0x80000000) :
    Says (whole ++ (point ++ 'e' :: (if exponent < 0 then '-' else '+') :: Nat.toDigits 10 exponent.natAbs))
      ⟨digits, exponent - fraction.length⟩ := by
  have spelled : ExponentSpelled (some (decide (exponent < 0), Nat.toDigits 10 exponent.natAbs))
      ('e' :: (if exponent < 0 then '-' else '+') :: Nat.toDigits 10 exponent.natAbs) := by
    have some : Digits (Nat.toDigits 10 exponent.natAbs) := ⟨Nat.toDigits_ne_nil, toDigits_isDigit⟩
    by_cases down : exponent < 0
    · rw [if_pos down, decide_eq_true down]
      exact .down (.inl rfl) some
    · rw [if_neg down, decide_eq_false down]
      exact .up (.inl rfl) some
  refine ⟨whole, fraction, _, point, _, first, second, spelled, rfl, ?_, ?_⟩
  · intro negative
    rw [decimal, value, power_toDigits]
  · intro negative read scaling
    rw [value_eq_floatValue (.inr (Option.some_ne_none _))]
    refine floatValue_scientific (parts_eq value fits) rfl (exponentValue_toDigits range) ?_
    have total : (if decide (exponent < 0) = true then -(fraction.length : Int) - exponent.natAbs
        else -(fraction.length : Int) + exponent.natAbs) = exponent - fraction.length := by
      by_cases down : exponent < 0
      · rw [if_pos (decide_eq_true down)]
        omega
      · rw [decide_eq_false down, if_neg Bool.false_ne_true]
        omega
    rw [total]
    exact scaling

section

variable {c : Char} {more : List Char} {value : Nat}

theorem zeros_isDigit (count : Nat) : ∀ d ∈ List.replicate count '0', d.isDigit = true := by
  intro d member
  rw [List.eq_of_mem_replicate member]
  rfl

theorem says_small (all : ∀ d ∈ c :: more, d.isDigit = true) (written : Nat.ofDigitChars 10 (c :: more) 0 = value)
    (fits : value < 10 ^ 17) (count : Nat) :
    Says (['0', '.'] ++ List.replicate count '0' ++ c :: more) ⟨value, -((count + (more.length + 1) : Nat) : Int)⟩ := by
  have digits : Digits (List.replicate count '0' ++ c :: more) :=
    ⟨by simp, List.forall_mem_append.2 ⟨zeros_isDigit count, all⟩⟩
  have total : Nat.ofDigitChars 10 (List.replicate (count + 1) '0' ++ c :: more) 0 = value := by
    rw [Nat.ofDigitChars_append, Nat.ofDigitChars_replicate_zero, Nat.mul_zero, written]
  have said := says_plain .zero digits total fits
  rw [List.length_append, List.length_replicate, List.length_cons] at said
  exact said

theorem says_whole (notZero : c ≠ '0') (all : ∀ d ∈ c :: more, d.isDigit = true)
    (written : Nat.ofDigitChars 10 (c :: more) 0 = value) (count : Nat) (fits : value * 10 ^ (count + 1) < 10 ^ 17) :
    Says (c :: more ++ List.replicate count '0' ++ ['.', '0']) ⟨value * 10 ^ (count + 1), -1⟩ := by
  have first : WholeSpelled (c :: (more ++ List.replicate count '0')) :=
    .digits notZero (List.forall_mem_append.2 ⟨all, zeros_isDigit count⟩)
  have total : Nat.ofDigitChars 10 (c :: more ++ (List.replicate count '0' ++ ['0'])) 0 = value * 10 ^ (count + 1) := by
    rw [← List.replicate_succ', Nat.ofDigitChars_append, written, Nat.ofDigitChars_replicate_zero, Nat.mul_comm]
  rw [← List.append_assoc] at total
  exact says_plain first ⟨nofun, zeros_isDigit 1⟩ total fits

theorem says_point (notZero : c ≠ '0') (all : ∀ d ∈ c :: more, d.isDigit = true)
    (written : Nat.ofDigitChars 10 (c :: more) 0 = value) (fits : value < 10 ^ 17) (count : Nat)
    (less : count < more.length) :
    Says ((c :: more).take (count + 1) ++ ['.'] ++ (c :: more).drop (count + 1))
      ⟨value, -((more.length - count : Nat) : Int)⟩ := by
  rw [List.forall_mem_cons] at all
  have first : WholeSpelled (c :: more.take count) :=
    .digits notZero (List.forall_mem_cons.2 ⟨all.1, fun d member => all.2 d (List.mem_of_mem_take member)⟩)
  have second : Digits (more.drop count) := by
    refine ⟨?_, fun d member => all.2 d (List.mem_of_mem_drop member)⟩
    rw [ne_eq, List.drop_eq_nil_iff]
    omega
  have total : Nat.ofDigitChars 10 (c :: more.take count ++ more.drop count) 0 = value := by
    rw [List.cons_append, List.take_append_drop, written]
  have said := says_plain first second total fits
  rw [List.length_drop] at said
  rw [List.append_assoc]
  exact said

theorem says_exponent (notZero : c ≠ '0') (all : ∀ d ∈ c :: more, d.isDigit = true)
    (written : Nat.ofDigitChars 10 (c :: more) 0 = value) (fits : value < 10 ^ 17) (place : Int)
    (range : place.natAbs < 0x80000000) :
    Says ((c :: more).take 1 ++ (if more.length + 1 = 1 then [] else ['.']) ++ (c :: more).drop 1 ++
      ['e', if place < 0 then '-' else '+'] ++ Nat.toDigits 10 place.natAbs) ⟨value, place - more.length⟩ := by
  rw [List.forall_mem_cons] at all
  have first : WholeSpelled [c] := .digits notZero (List.forall_mem_singleton.2 all.1)
  have second : FractionSpelled more ((if more.length + 1 = 1 then [] else ['.']) ++ more) := by
    cases more with
    | nil => exact .absent
    | cons d more => exact .point ⟨nofun, all.2⟩
  have said := says_scientific place first second written fits range
  simp only [List.append_assoc] at said ⊢
  exact said

end

end Numeral

namespace Number

open Numeral

theorem decimalText_says {d : Decimal} (positive : 0 < d.digits) (fits : d.digits < 10 ^ 17)
    (range : -341 ≤ d.exponent ∧ d.exponent ≤ 308) : Says (decimalText d) d.written := by
  have fits' := (Decimal.written_digits positive fits).2
  have length := (Nat.length_toDigits_le_iff (by decide) (by decide)).2 fits
  obtain ⟨c, more, text, notZero⟩ := toDigits_cons_of_pos positive
  have all := toDigits_isDigit (n := d.digits)
  have value : Nat.ofDigitChars 10 (Nat.toDigits 10 d.digits) 0 = d.digits := Nat.ofDigitChars_ten_toDigits
  obtain ⟨digits, exponent⟩ := d
  simp only [decimalText, Decimal.written, text, List.length_cons] at positive fits range fits' length all value ⊢
  have leading : exponent + ((more.length + 1 : Nat) : Int) - 1 = exponent + more.length := by omega
  rw [leading] at fits' ⊢
  by_cases whole : 0 ≤ exponent ∧ isPositional (exponent + more.length) = true
  · have said := says_whole notZero all value exponent.toNat
    rw [if_pos whole] at fits' ⊢
    rw [if_pos whole.2, if_neg (by omega), if_pos (by omega),
      show (exponent + more.length).toNat + 1 - (more.length + 1) = exponent.toNat by omega]
    exact said fits'
  rw [if_neg whole]
  by_cases positional : isPositional (exponent + more.length) = true
  · have notWhole : exponent < 0 := by
      by_contra nonnegative
      exact whole ⟨by omega, positional⟩
    rw [if_pos positional]
    by_cases small : exponent + more.length < 0
    · have said := says_small all value fits (-(exponent + more.length) - 1).toNat
      rw [show -(((-(exponent + more.length) - 1).toNat + (more.length + 1) : Nat) : Int) = exponent by omega] at said
      rw [if_pos small]
      exact said
    · have said := says_point notZero all value fits (exponent + more.length).toNat (by omega)
      rw [show -((more.length - (exponent + more.length).toNat : Nat) : Int) = exponent by omega] at said
      rw [if_neg small, if_neg (by omega)]
      exact said
  · have said := says_exponent notZero all value fits (exponent + more.length) (by omega)
    rw [show exponent + (more.length : Int) - more.length = exponent by omega] at said
    rw [if_neg positional]
    exact said

end Number

namespace Magnitude

/-- The significand and the power of ten that are read from the text of a double. -/
def written (m : Magnitude) : Decimal := if m.isZero then ⟨0, -1⟩ else m.shortest.written

theorem says_magnitudeText (m : Magnitude) : Numeral.Says (Number.magnitudeText m) m.written := by
  unfold Number.magnitudeText written
  by_cases zero : m.isZero = true
  · rw [if_pos zero, if_pos zero]
    have fraction : Numeral.Digits ['0'] := ⟨nofun, Numeral.zeros_isDigit 1⟩
    exact Numeral.says_plain .zero fraction rfl (by decide)
  · have positive := Bool.eq_false_of_not_eq_true zero
    obtain ⟨some, fits, -⟩ := shortest_fits positive
    rw [if_neg zero, if_neg zero]
    exact Number.decimalText_says some fits (shortest_exponent positive)

theorem exponent_written (m : Magnitude) : -341 ≤ m.written.exponent ∧ m.written.exponent ≤ 308 := by
  unfold written Decimal.written
  split
  · decide
  · rename_i zero
    split
    · exact (by decide : (-341 : Int) ≤ -1 ∧ (-1 : Int) ≤ 308)
    · exact shortest_exponent (Bool.eq_false_of_not_eq_true zero)

theorem digits_written {m : Magnitude} (positive : m.isZero = false) :
    0 < m.written.digits ∧ m.written.digits < 10 ^ 17 := by
  obtain ⟨some, fits, -⟩ := shortest_fits positive
  rw [written, if_neg (by rw [positive]; exact Bool.false_ne_true)]
  exact Decimal.written_digits some fits

/-- What is read from the text of a double, if it were read exactly, is rounded to the double. -/
theorem written_rounds {m : Magnitude} (positive : m.isZero = false) : Rounds (m.written.value * perOne) m := by
  rw [written, if_neg (by rw [positive]; exact Bool.false_ne_true), Decimal.written_value]
  exact shortest_rounds positive

theorem digits_written_pos {m : Magnitude} : 0 < m.written.digits ↔ m.isZero = false := by
  constructor
  · intro some
    by_contra nothing
    rw [eq_zero nothing] at some
    exact absurd some (by decide)
  · exact fun positive => (digits_written positive).1

/-- No two doubles are written as the same decimal. -/
theorem written_injective : Function.Injective written := by
  intro m n same
  have zeros : m.isZero = false ↔ n.isZero = false := by
    rw [← digits_written_pos, ← digits_written_pos, same]
  by_cases positive : m.isZero = false
  · have rounds := written_rounds positive
    rw [same] at rounds
    exact rounds.unique (written_rounds (zeros.1 positive))
  · rw [eq_zero positive, eq_zero (mt zeros.2 positive)]

end Magnitude

namespace Number

open Numeral

/-- The text of a double spells a numeral with the sign of the double, which writes its decimal and is read as what
that is scaled to. -/
theorem exists_numeral (negative : Bool) (m : Magnitude) :
    ∃ n : Numeral, n.Spelled (Number.float negative m).text ∧ n.negative = negative ∧ n.decimal = m.written ∧
      ∀ read, scaled m.written.digits m.written.exponent = some read → n.value = .ok (.float negative read) := by
  obtain ⟨whole, fraction, exponent, point, power, first, second, third, text, written, value⟩ := m.says_magnitudeText
  refine ⟨⟨negative, whole, fraction, exponent⟩, ?_, rfl, written negative, value negative⟩
  rw [Number.text, ← text]
  cases negative with
  | false => exact .positive first second third
  | true => exact .negative first second third

end Number

/-- The text of a double is parsed to what its significand is scaled to. -/
theorem Json.parse_double (negative : Bool) {m read : Magnitude}
    (scaling : Numeral.scaled m.written.digits m.written.exponent = some read) :
    Json.parse (String.ofList (Number.float negative m).text) = .ok (.number (.float negative read)) := by
  obtain ⟨n, spelled, -, -, value⟩ := Number.exists_numeral negative m
  exact (Json.parse_numeral spelled).2 ⟨_, value read scaling, rfl⟩

end ViewTree
