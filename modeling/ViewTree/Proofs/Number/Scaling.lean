import ViewTree.Number.Numeral
import ViewTree.Proofs.Number.Rounding

namespace ViewTree

/-- A number stands within some share of another. -/
structure Within (share x y : ℚ) : Prop where
  low : (1 - share) * y ≤ x
  high : x ≤ (1 + share) * y

namespace Within

variable {r s t x y z x' y' : ℚ}

theorem trans (first : Within s x y) (second : Within t y z) (positive : 0 ≤ z) (nonneg : 0 ≤ s) (proper : s ≤ 1)
    (below : 1 - r ≤ (1 - s) * (1 - t)) (above : (1 + s) * (1 + t) ≤ 1 + r) : Within r x z where
  low := calc
    (1 - r) * z ≤ (1 - s) * (1 - t) * z := mul_le_mul_of_nonneg_right below positive
    _ = (1 - s) * ((1 - t) * z) := mul_assoc ..
    _ ≤ (1 - s) * y := mul_le_mul_of_nonneg_left second.low (by linarith)
    _ ≤ x := first.low
  high := calc
    x ≤ (1 + s) * y := first.high
    _ ≤ (1 + s) * ((1 + t) * z) := mul_le_mul_of_nonneg_left second.high (by linarith)
    _ = (1 + s) * (1 + t) * z := (mul_assoc ..).symm
    _ ≤ (1 + r) * z := mul_le_mul_of_nonneg_right above positive

theorem nonneg (within : Within s x y) (positive : 0 ≤ y) (proper : s ≤ 1) : 0 ≤ x :=
  (mul_nonneg (by linarith) positive).trans within.low

theorem pos (within : Within s x y) (positive : 0 < y) (proper : s < 1) : 0 < x :=
  (mul_pos (by linarith) positive).trans_le within.low

theorem near (within : Within s x y) : |x - y| ≤ s * y := by
  have low := within.low
  have high := within.high
  exact abs_le.2 ⟨by linarith, by linarith⟩

theorem mul_right (within : Within s x y) (factor : 0 ≤ z) : Within s (x * z) (y * z) where
  low := by
    rw [← mul_assoc]
    exact mul_le_mul_of_nonneg_right within.low factor
  high := by
    rw [← mul_assoc]
    exact mul_le_mul_of_nonneg_right within.high factor

theorem mul (first : Within s x y) (second : Within t x' y') (positive : 0 ≤ y) (positive' : 0 ≤ y') (nonneg : 0 ≤ s)
    (proper : s ≤ 1) (proper' : t ≤ 1) (below : 1 - r ≤ (1 - s) * (1 - t)) (above : (1 + s) * (1 + t) ≤ 1 + r) :
    Within r (x * x') (y * y') := by
  have left := first.mul_right (second.nonneg positive' proper')
  have right := second.mul_right positive
  rw [mul_comm x', mul_comm y'] at right
  exact left.trans right (mul_nonneg positive positive') nonneg proper below above

theorem inv (within : Within t x y) (positive : 0 < y) (proper : t < 1) (nonneg : 0 ≤ s) (proper' : s ≤ 1)
    (below : (1 - s) * (1 + t) ≤ 1) (above : 1 ≤ (1 + s) * (1 - t)) : Within s x⁻¹ y⁻¹ := by
  have positive' := within.pos positive proper
  constructor
  · rw [← div_eq_mul_inv, ← one_div, div_le_div_iff₀ positive positive']
    calc
      (1 - s) * x ≤ (1 - s) * ((1 + t) * y) := mul_le_mul_of_nonneg_left within.high (by linarith)
      _ = (1 - s) * (1 + t) * y := (mul_assoc ..).symm
      _ ≤ 1 * y := mul_le_mul_of_nonneg_right below positive.le
  · rw [← div_eq_mul_inv, ← one_div, div_le_div_iff₀ positive' positive]
    calc
      1 * y ≤ (1 + s) * (1 - t) * y := mul_le_mul_of_nonneg_right above positive.le
      _ = (1 + s) * ((1 - t) * y) := mul_assoc ..
      _ ≤ (1 + s) * x := mul_le_mul_of_nonneg_left within.low (by linarith)

theorem quotient {a b one : ℚ} (first : Within (1 / 2 ^ 53) x (a * one)) (second : Within (t / 2 ^ 53) x' (b * one))
    (dividend : 0 < a) (divisor : 0 < b) (some : 0 < one) (nonneg : 0 ≤ t) (proper : t ≤ 1) :
    Within ((101 / 100 + t) / 2 ^ 53) (x / x' * one) (a * b⁻¹ * one) := by
  have square := mul_nonneg nonneg nonneg
  have square' := mul_le_mul_of_nonneg_left proper nonneg
  have reciprocal : Within ((1 / 1000 + t) / 2 ^ 53) x'⁻¹ (b * one)⁻¹ :=
    second.inv (mul_pos divisor some) (by linarith) (by positivity) (by linarith) (by linarith) (by linarith)
  have product : Within ((101 / 100 + t) / 2 ^ 53) (x * x'⁻¹) (a * one * (b * one)⁻¹) :=
    first.mul reciprocal (by positivity) (by positivity) (by norm_num) (by norm_num) (by linarith) (by linarith)
      (by linarith)
  have total : a * one * (b * one)⁻¹ * one = a * b⁻¹ * one := by field_simp
  have share := product.mul_right some.le
  rw [total, ← div_eq_mul_inv] at share
  exact share

end Within

namespace Magnitude

theorem Rounds.within {q : ℚ} {m : Magnitude} (rounds : Rounds q m) (large : 2 ^ 52 ≤ q) :
    Within (1 / 2 ^ 53) m.units q := by
  have near : |m.units - q| ≤ q / 2 ^ 53 := by
    rcases rounds.relative with small | relative
    · exact small.trans (by linarith)
    · exact relative
  obtain ⟨low, high⟩ := abs_le.1 near
  exact ⟨by linarith, by linarith⟩

theorem nearest_natural {n k : Nat} (digits : n ≤ 10 ^ k) (small : k ≤ 308) :
    ∃ m, nearest n 1 = some m ∧ Rounds (n * perOne) m := by
  have outcome := nearest_outcome n Nat.one_pos
  rw [Nat.cast_one, div_one] at outcome
  have powers : ∀ k ≤ 308, 10 ^ k * Nat.pow 2 1074 ≤ greatest.units := by decide +kernel
  have within : (n * perOne : ℚ) ≤ greatest.units := by
    rw [perOne, ← Nat.cast_mul]
    exact Nat.cast_le.2 (Nat.le_trans (Nat.mul_le_mul_right _ digits) (powers k small))
  obtain ⟨m, rounded⟩ := outcome.isSome within
  exact ⟨m, rounded, outcome.eq_some.1 rounded⟩

theorem div_eq_div_square_mul {n one : Nat} (positive : (0 : ℚ) < one) :
    (n / one : ℚ) = n / (one * one : Nat) * one := by
  have nonzero := positive.ne'
  push_cast
  field_simp

theorem times_outcome (a b : Magnitude) : Outcome (a.units * b.units / perOne) (a.times b) := by
  rw [← Nat.cast_mul, perOne, div_eq_div_square_mul perOne_pos]
  refine nearest_outcome _ ?_
  generalize 1074 = places
  exact Nat.mul_pos (Nat.two_pow_pos places) (Nat.two_pow_pos places)

theorem dividedBy_outcome (a : Magnitude) {b : Magnitude} (positive : 0 < b.units) :
    Outcome (a.units / b.units * perOne) (a.dividedBy b) := nearest_outcome a.units positive

/-- The double that is taken for a whole number. -/
structure Takes (n : Nat) (m : Magnitude) : Prop where
  within : Within (1 / 2 ^ 53) m.units (n * perOne)
  exact : ∀ k places, n = k * 2 ^ places → k ≤ 2 ^ 53 → (m.units : ℚ) = n * perOne

theorem exists_perOne_eq : ∃ places : Nat, perOne = 2 ^ places := by
  refine ⟨1074, ?_⟩
  unfold perOne
  generalize 1074 = places
  exact Nat.cast_pow 2 places

theorem perOne_large : 2 ^ 52 ≤ perOne := by
  unfold perOne
  have many : 52 ≤ 1074 := by decide
  generalize 1074 = places at many
  have powers := Nat.pow_le_pow_right Nat.two_pos many
  exact_mod_cast powers

theorem exists_takes {n k : Nat} (positive : 0 < n) (digits : n ≤ 10 ^ k) (small : k ≤ 308) :
    ∃ m, nearest n 1 = some m ∧ Takes n m := by
  obtain ⟨m, rounded, rounds⟩ := nearest_natural digits small
  refine ⟨m, rounded, rounds.within ?_, ?_⟩
  · have some : (1 : ℚ) ≤ n := by exact_mod_cast positive
    have units := le_mul_of_one_le_left perOne_pos.le some
    exact perOne_large.trans units
  · intro k places written few
    obtain ⟨more, one⟩ := exists_perOne_eq
    have same : (n * perOne : ℚ) = k * 2 ^ (places + more) := by
      rw [written, one, pow_add]
      push_cast
      ring
    rw [same] at rounds ⊢
    exact rounds.exact few

theorem exists_powerOfTen {k : Nat} (small : k ≤ 308) :
    ∃ m, powerOfTen k = some m ∧ 0 < m.units ∧ Within (1 / 2 ^ 53) m.units (10 ^ k * perOne) ∧
      (k ≤ 22 → (m.units : ℚ) = 10 ^ k * perOne) := by
  obtain ⟨m, rounded, takes⟩ := exists_takes (Nat.pow_pos (by decide)) (Nat.le_refl (10 ^ k)) small
  have within := takes.within
  rw [Nat.cast_pow, Nat.cast_ofNat] at within
  have units := within.pos (mul_pos (by positivity) perOne_pos) (by norm_num)
  refine ⟨m, rounded, Nat.cast_pos.1 units, within, ?_⟩
  intro few
  have odd : 5 ^ k ≤ 2 ^ 53 := Nat.le_trans (Nat.pow_le_pow_right (by decide) few) (by decide)
  have exactly := takes.exact (5 ^ k) k (by rw [← Nat.mul_pow]) odd
  rw [Nat.cast_pow, Nat.cast_ofNat] at exactly
  exact exactly

/-- The double taken for `10 ^ 308` is nearer to it than rounding assures. -/
theorem powerOfTen_near {most : Nat} (limit : most = 308) {m : Magnitude} (power : powerOfTen most = some m) :
    Within (1 / 10 / 2 ^ 53) m.units (Nat.pow 10 most * perOne) := by
  have near : ∀ m ∈ powerOfTen most,
      10 * 2 ^ 53 * (Nat.pow 10 most * Nat.pow 2 1074) ≤ 10 * 2 ^ 53 * m.units + Nat.pow 10 most * Nat.pow 2 1074 ∧
        10 * 2 ^ 53 * m.units ≤ 10 * 2 ^ 53 * (Nat.pow 10 most * Nat.pow 2 1074) +
          Nat.pow 10 most * Nat.pow 2 1074 := by
    subst limit
    decide +kernel
  obtain ⟨low, high⟩ := near m power
  unfold perOne
  generalize Nat.pow 10 most = ten at low high ⊢
  generalize Nat.pow 2 1074 = one at low high ⊢
  have low' : (10 * 2 ^ 53 * (ten * one) : ℚ) ≤ 10 * 2 ^ 53 * m.units + ten * one := by exact_mod_cast low
  have high' : (10 * 2 ^ 53 * m.units : ℚ) ≤ 10 * 2 ^ 53 * (ten * one) + ten * one := by exact_mod_cast high
  exact ⟨by linarith, by linarith⟩

end Magnitude

namespace Numeral

open Magnitude

theorem scaled_up {digits k : Nat} {f p : Magnitude} (first : nearest digits 1 = some f)
    (power : powerOfTen k = some p) (small : k ≤ 308) : scaled digits k = f.times p := by
  have small' : (k : Int) ≤ 308 := by omega
  rw [scaled, first, Option.bind_eq_bind, Option.bind_some, if_pos (Int.natCast_nonneg k), if_pos small',
    Int.toNat_natCast, power, Option.bind_some]

theorem scaled_down {digits k : Nat} {f p : Magnitude} (first : nearest digits 1 = some f)
    (power : powerOfTen k = some p) (some : 0 < k) (small : k ≤ 308) : scaled digits (-k) = f.dividedBy p := by
  have negative : ¬ 0 ≤ -(k : Int) := by omega
  rw [scaled, first, Option.bind_eq_bind, Option.bind_some, if_neg negative, Int.natAbs_neg, Int.natAbs_natCast,
    divideByPower, if_pos small, power, Option.bind_eq_bind, Option.bind_some]

theorem scaled_deep {digits k : Nat} {f p r q : Magnitude} (first : nearest digits 1 = some f)
    (power : powerOfTen 308 = some p) (reduced : f.dividedBy p = some r) (power' : powerOfTen k = some q)
    (some : 0 < k) (small : k ≤ 308) : scaled digits (-(308 + k : Nat)) = r.dividedBy q := by
  have negative : ¬ 0 ≤ -((308 + k : Nat) : Int) := by omega
  have large : ¬ 308 + k ≤ 308 := by omega
  have twice : 308 + k ≤ 616 := by omega
  rw [scaled, first, Option.bind_eq_bind, Option.bind_some, if_neg negative, Int.natAbs_neg, Int.natAbs_natCast,
    divideByPower, if_neg large, power, Option.bind_eq_bind, Option.bind_some, reduced, Option.bind_some,
    if_pos twice, Nat.add_sub_cancel_left, power', Option.bind_some]

/-- What is rounded last when a significand is scaled, and how far it may be from the scaled value, both counted in
units. -/
structure Scales (digits : Nat) (power : Int) (z : ℚ) : Prop where
  outcome : Outcome z (scaled digits power)
  near : |z - digits * 10 ^ power * perOne| ≤ 11 / 5 / 2 ^ 53 * (digits * 10 ^ power * perOne) + 3 / 50
  exact : digits ≤ 2 ^ 53 → power.natAbs ≤ 22 → z = digits * 10 ^ power * perOne

section

variable {digits k : Nat}

theorem scales_up (positive : 0 < digits) (fits : digits ≤ 10 ^ 17) (small : k ≤ 308) :
    ∃ z, Scales digits k z := by
  obtain ⟨f, first, takes⟩ := exists_takes positive fits (by decide)
  obtain ⟨p, power, -, within, exactly⟩ := exists_powerOfTen small
  have one := perOne_pos
  have total : ∀ t : ℚ, digits * perOne * (t * perOne) / perOne = digits * t * perOne := by
    intro t
    field_simp
  have outcome := times_outcome f p
  rw [← scaled_up first power small] at outcome
  refine ⟨_, outcome, ?_, ?_⟩
  · have product : Within (11 / 5 / 2 ^ 53) (f.units * p.units) (digits * perOne * (10 ^ k * perOne)) :=
      takes.within.mul within (by positivity) (by positivity) (by norm_num) (by norm_num) (by norm_num)
        (by norm_num) (by norm_num)
    have near := (product.mul_right (inv_nonneg.2 one.le)).near
    rw [← div_eq_mul_inv, ← div_eq_mul_inv, total] at near
    rw [zpow_natCast]
    linarith
  · intro few short
    rw [zpow_natCast, takes.exact digits 0 (by rw [Nat.pow_zero, Nat.mul_one]) few, exactly short, total]

theorem scales_down (positive : 0 < digits) (fits : digits ≤ 10 ^ 17) (some : 0 < k) (small : k ≤ 308) :
    ∃ z, Scales digits (-k) z := by
  obtain ⟨f, first, takes⟩ := exists_takes positive fits (by decide)
  obtain ⟨p, power, units, within, exactly⟩ := exists_powerOfTen small
  have one := perOne_pos
  have digits_pos : (0 : ℚ) < digits := Nat.cast_pos.2 positive
  have outcome := dividedBy_outcome f units
  rw [← scaled_down first power some small] at outcome
  refine ⟨_, outcome, ?_, ?_⟩
  · have share := (takes.within.quotient within digits_pos (by positivity) one (by norm_num) (le_refl _)).near
    have scaled_pos : 0 < digits * ((10 : ℚ) ^ k)⁻¹ * perOne := by positivity
    rw [zpow_neg, zpow_natCast]
    linarith
  · intro few short
    rw [Int.natAbs_neg] at short
    rw [zpow_neg, zpow_natCast, takes.exact digits 0 (by rw [Nat.pow_zero, Nat.mul_one]) few, exactly short]
    field_simp

/-- What is left of a significand after the first of two divisions, which is rounded. -/
theorem exists_reduced {most : Nat} (limit : most = 308) (positive : 0 < digits) (fits : digits ≤ 10 ^ 17) :
    ∃ f p r, nearest digits 1 = some f ∧ powerOfTen 308 = some p ∧ f.dividedBy p = some r ∧
      |r.units - digits * (Nat.pow 10 most : ℚ)⁻¹ * perOne| ≤
        43 / 20 / 2 ^ 53 * (digits * (Nat.pow 10 most : ℚ)⁻¹ * perOne) + 1 / 2 := by
  obtain ⟨f, first, takes⟩ := exists_takes positive fits (by decide)
  obtain ⟨p, power, units, -⟩ := exists_powerOfTen (Nat.le_refl 308)
  have within := powerOfTen_near limit (by rw [limit]; exact power)
  have twice : (2 : ℚ) ≤ Nat.pow 10 most := by
    have least : 2 ≤ Nat.pow 10 most := by
      subst limit
      decide +kernel
    exact Nat.cast_le.2 least
  generalize (Nat.pow 10 most : ℚ) = ten at *
  have one := perOne_pos
  have digits_pos : (0 : ℚ) < digits := Nat.cast_pos.2 positive
  have ten_pos : 0 < ten := by linarith
  have share := takes.within.quotient within digits_pos ten_pos one (by norm_num) (by norm_num)
  have outcome := dividedBy_outcome f units
  have below : (f.units / p.units * perOne : ℚ) ≤ greatest.units := by
    have divisor : perOne ≤ p.units := by
      have more := mul_le_mul_of_nonneg_right twice one.le
      have low := within.low
      linarith
    have shrunk : (f.units / p.units * perOne : ℚ) ≤ f.units := by
      rw [div_mul_eq_mul_div, div_le_iff₀ (Nat.cast_pos.2 units)]
      exact mul_le_mul_of_nonneg_left divisor (Nat.cast_nonneg _)
    exact shrunk.trans (Nat.cast_le.2 f.units_le_greatest)
  obtain ⟨r, reduced⟩ := outcome.isSome below
  have rounds := outcome.eq_some.1 reduced
  refine ⟨f, p, r, first, power, reduced, ?_⟩
  have left_pos : 0 < digits * ten⁻¹ * perOne := by positivity
  generalize (f.units / p.units * perOne : ℚ) = exactly at share rounds
  generalize digits * ten⁻¹ * perOne = left at share left_pos ⊢
  obtain ⟨low, high⟩ := abs_le.1 share.near
  have near : |r.units - exactly| ≤ 1 / 2 + left / 2 ^ 53 * (1 + 2 / 2 ^ 53) := by
    rcases rounds.relative with half | part
    · exact half.trans (by linarith)
    · exact part.trans (by linarith)
  obtain ⟨low', high'⟩ := abs_le.1 near
  exact abs_le.2 ⟨by linarith, by linarith⟩

theorem divided_twice (digits a k : Nat) : (digits * 10 ^ (-((a + k : Nat) : Int)) * perOne : ℚ) =
    digits * (Nat.pow 10 a : ℚ)⁻¹ * perOne * (10 ^ k)⁻¹ := by
  rw [zpow_neg, zpow_natCast, pow_add, mul_inv, Nat.pow_eq, Nat.cast_pow, Nat.cast_ofNat]
  ring

/-- The second of two divisions is by a power of ten that is a double, or by one that leaves little. -/
theorem divided_near {r one ten left divisor : ℚ} (one_pos : 0 < one) (ten_le : 10 ≤ ten) (left_pos : 0 < left)
    (nonneg : 0 ≤ r) (near : |r - left| ≤ 43 / 20 / 2 ^ 53 * left + 1 / 2)
    (within : Within (1 / 2 ^ 53) divisor (ten * one))
    (known : divisor = ten * one ∨ left * ten⁻¹ ≤ 2 ^ 35) :
    |r / divisor * one - left * ten⁻¹| ≤ 11 / 5 / 2 ^ 53 * (left * ten⁻¹) + 3 / 50 := by
  have ten_pos : 0 < ten := by linarith
  have reciprocal := inv_pos.2 ten_pos
  have small : ten⁻¹ ≤ 1 / 10 := by
    rw [← one_div]
    exact one_div_le_one_div_of_le (by norm_num) ten_le
  have quotient_pos := mul_pos left_pos reciprocal
  obtain ⟨low, high⟩ := abs_le.1 near
  have low' := mul_le_mul_of_nonneg_right low reciprocal.le
  have high' := mul_le_mul_of_nonneg_right high reciprocal.le
  have last : |r / divisor * one - r * ten⁻¹| ≤ 1 / 100 := by
    rcases known with same | little
    · have exactly : r / (ten * one) * one = r * ten⁻¹ := by field_simp
      rw [same, exactly, sub_self, abs_zero]
      norm_num
    · have inverse : Within (11 / 10 / 2 ^ 53) divisor⁻¹ (ten * one)⁻¹ :=
        within.inv (by positivity) (by norm_num) (by norm_num) (by norm_num) (by norm_num) (by norm_num)
      have share := (inverse.mul_right (mul_nonneg one_pos.le nonneg)).near
      have divided : divisor⁻¹ * (one * r) = r / divisor * one := by ring
      have exactly : (ten * one)⁻¹ * (one * r) = r * ten⁻¹ := by field_simp
      rw [divided, exactly] at share
      linarith
  obtain ⟨low'', high''⟩ := abs_le.1 last
  exact abs_le.2 ⟨by linarith, by linarith⟩

theorem little_left {most : Nat} (limit : most = 308) (fits : digits ≤ 10 ^ 17) (many : 23 ≤ k) :
    (digits * (Nat.pow 10 most : ℚ)⁻¹ * perOne) * (10 ^ k)⁻¹ ≤ 2 ^ 35 := by
  have least : Nat.pow 10 17 * Nat.pow 2 1074 ≤ 2 ^ 35 * (Nat.pow 10 most * Nat.pow 10 23) := by
    subst limit
    decide +kernel
  have positive : 0 < Nat.pow 10 most := Nat.pow_pos (by decide)
  unfold perOne
  generalize Nat.pow 10 most = divisor at *
  generalize Nat.pow 2 1074 = one at *
  have within : digits * one ≤ 2 ^ 35 * (divisor * 10 ^ k) := by
    calc digits * one ≤ 10 ^ 17 * one := Nat.mul_le_mul_right _ fits
      _ ≤ 2 ^ 35 * (divisor * 10 ^ 23) := least
      _ ≤ 2 ^ 35 * (divisor * 10 ^ k) :=
        Nat.mul_le_mul_left _ (Nat.mul_le_mul_left _ (Nat.pow_le_pow_right (by decide) many))
  have within' : (digits * one : ℚ) ≤ 2 ^ 35 * (divisor * 10 ^ k) := by exact_mod_cast within
  have divisor_pos : (0 : ℚ) < divisor := Nat.cast_pos.2 positive
  have same : (digits * (divisor : ℚ)⁻¹ * one) * (10 ^ k)⁻¹ = digits * one / (divisor * 10 ^ k) := by field_simp
  rw [same, div_le_iff₀ (by positivity)]
  exact within'

theorem scales_deep (positive : 0 < digits) (fits : digits ≤ 10 ^ 17) (some : 0 < k) (small : k ≤ 308) :
    ∃ z, Scales digits (-(308 + k : Nat)) z := by
  -- The greatest divisor is only named here: nothing is to compute with it.
  obtain ⟨most, limit⟩ : ∃ most, most = 308 := ⟨_, rfl⟩
  obtain ⟨f, p, r, first, power, reduced, near⟩ := exists_reduced limit positive fits
  obtain ⟨q, power', units, within, exactly⟩ := exists_powerOfTen small
  have outcome := dividedBy_outcome r units
  rw [← scaled_deep first power reduced power' some small, ← limit] at outcome
  rw [← limit]
  refine ⟨_, outcome, ?_, ?_⟩
  · have ten : (10 : ℚ) ≤ 10 ^ k := le_self_pow₀ (by norm_num) (by omega)
    have divisor : (0 : ℚ) < Nat.pow 10 most := Nat.cast_pos.2 (Nat.pow_pos (by decide))
    have left : 0 < digits * (Nat.pow 10 most : ℚ)⁻¹ * perOne :=
      mul_pos (mul_pos (Nat.cast_pos.2 positive) (inv_pos.2 divisor)) perOne_pos
    have known : (q.units : ℚ) = 10 ^ k * perOne ∨
        (digits * (Nat.pow 10 most : ℚ)⁻¹ * perOne) * (10 ^ k)⁻¹ ≤ 2 ^ 35 := by
      rcases Nat.lt_or_ge 22 k with many | few
      · exact .inr (little_left limit fits many)
      · exact .inl (exactly few)
    rw [divided_twice]
    exact divided_near perOne_pos ten left (Nat.cast_nonneg _) near within known
  · intro _ short
    rw [Int.natAbs_neg, Int.natAbs_natCast] at short
    omega

end

/-- A significand is scaled to within the rounding of two or three operations, and to within less if it and the
power of ten are doubles. -/
theorem exists_scales {digits : Nat} {power : Int} (positive : 0 < digits) (fits : digits ≤ 10 ^ 17)
    (range : -341 ≤ power ∧ power ≤ 308) : ∃ z, Scales digits power z := by
  rcases Int.le_total 0 power with up | down
  · obtain ⟨k, rfl⟩ := Int.eq_ofNat_of_zero_le up
    exact scales_up positive fits (by omega)
  · obtain ⟨k, rfl⟩ := Int.exists_eq_neg_ofNat down
    rcases Nat.eq_zero_or_pos k with rfl | some
    · exact scales_up (k := 0) positive fits (by decide)
    · rcases Nat.lt_or_ge 308 k with large | small
      · obtain ⟨more, rfl⟩ := Nat.exists_eq_add_of_lt large
        exact scales_deep positive fits (Nat.succ_pos more) (by omega)
      · exact scales_down positive fits some small

end Numeral

end ViewTree
