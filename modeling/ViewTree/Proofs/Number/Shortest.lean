import Mathlib.Data.Nat.Digits.Defs
import ViewTree.Number.Decimal
import ViewTree.Proofs.Number.Rounding

namespace ViewTree

def Decimal.value (d : Decimal) : ℚ := d.digits * 10 ^ d.exponent

namespace Interval

/-- The value lies inside, and no nearer to either end than one part in `2 ^ 54`. -/
structure Wide (i : Interval) : Prop where
  value_pos : 0 < i.value
  unit_pos : 0 < i.unit
  low_pos : 0 < i.low
  below : i.value + 2 ^ 54 * i.low ≤ 2 ^ 54 * i.value
  above : i.value + 2 ^ 54 * i.value ≤ 2 ^ 54 * i.high

variable {i : Interval}

theorem holds_of_nearestMultiple {step multiplier : Nat} (found : i.nearestMultiple step = some multiplier) :
    i.holds (multiplier * step) = true ∧ multiplier ≤ i.value / step + 1 := by
  unfold nearestMultiple at found
  dsimp only at found
  split at found
  · cases found
  · rename_i held _
    cases found
    exact ⟨held, Nat.le_succ _⟩
  · rename_i held
    cases found
    exact ⟨held, Nat.le_refl _⟩
  · rename_i heldBelow heldAbove
    split at found
    · cases found
      exact ⟨heldBelow, Nat.le_succ _⟩
    · cases found
      exact ⟨heldAbove, Nat.le_refl _⟩

theorem holds_of_lt {n : Nat} (low : i.low < n) (high : n < i.high) : i.holds n = true := by
  unfold holds
  split
  · exact Bool.and_eq_true_iff.2 ⟨decide_eq_true low.le, decide_eq_true high.le⟩
  · exact Bool.and_eq_true_iff.2 ⟨decide_eq_true low, decide_eq_true high⟩

theorem le_of_holds {n : Nat} (held : i.holds n = true) : i.low ≤ n ∧ n ≤ i.high := by
  unfold holds at held
  split at held <;> rw [Bool.and_eq_true_iff, decide_eq_true_eq, decide_eq_true_eq] at held
  · exact held
  · exact ⟨held.1.le, held.2.le⟩

/-- Multiples of a step of at most one part in `10 ^ 16` stand close enough for one to lie in the interval. -/
theorem Wide.nearestMultiple_isSome (wide : i.Wide) {step : Nat} (positive : 0 < step)
    (fine : step * 10 ^ 16 ≤ i.value) : ∃ multiplier, i.nearestMultiple step = some multiplier := by
  have under := Nat.div_mul_le_self i.value step
  have next := Nat.lt_mul_div_succ i.value positive
  obtain ⟨valuePos, -, -, below, above⟩ := wide
  unfold nearestMultiple
  dsimp only
  split
  · rename_i outBelow outAbove
    rw [Nat.mul_comm, Nat.succ_mul] at next
    rw [Nat.succ_mul] at outAbove
    generalize i.value / step * step = multiple at under next outBelow outAbove
    have lower : multiple ≤ i.low := by
      by_contra inside
      rw [holds_of_lt (by omega) (by omega)] at outBelow
      cases outBelow
    have upper : i.high ≤ multiple + step := by
      by_contra inside
      rw [holds_of_lt (by omega) (by omega)] at outAbove
      cases outAbove
    omega
  · exact ⟨_, rfl⟩
  · exact ⟨_, rfl⟩
  · split <;> exact ⟨_, rfl⟩

end Interval

namespace Magnitude

/-- A decimal of at most seventeen digits that lies in an interval. -/
structure Fits (i : Interval) (d : Decimal) : Prop where
  digits_pos : 0 < d.digits
  digits_lt : d.digits < 10 ^ 17
  holds : ∃ shift : Nat, d.exponent = shift - lift ∧ i.holds (d.digits * (i.unit * 10 ^ shift)) = true

theorem shortestFrom_fits {i : Interval} (wide : i.Wide) {places : Nat} (under : i.value < i.unit * 10 ^ places)
    (reaches : i.unit * 10 ^ (places - 1) ≤ i.value) (many : 17 < places) (tries count : Nat) (total : tries + count = 18)
    (some : 0 < count) (left : 0 < tries) : Fits i (shortestFrom i places tries count) := by
  induction tries generalizing count with
  | zero => cases left
  | succ tries ih =>
    have positive : 0 < i.unit * 10 ^ (places - count) := Nat.mul_pos wide.unit_pos (Nat.pow_pos (by decide))
    have powers : 10 ^ (places - count) * 10 ^ count = 10 ^ places := by
      rw [← Nat.pow_add]
      congr 1
      omega
    rw [shortestFrom]
    split
    · rename_i none
      refine ih (count + 1) (by omega) (Nat.succ_pos count) ?_
      -- The last step is fine enough.
      by_contra last
      have fine : i.unit * 10 ^ (places - count) * 10 ^ 16 ≤ i.value := by
        refine Nat.le_trans (Nat.le_of_eq ?_) reaches
        rw [Nat.mul_assoc, ← Nat.pow_add]
        congr 2
        omega
      obtain ⟨multiplier, found⟩ := wide.nearestMultiple_isSome positive fine
      exact absurd (none.symm.trans found) nofun
    · rename_i digits found
      obtain ⟨held, bound⟩ := Interval.holds_of_nearestMultiple found
      have most : digits ≤ 10 ^ count := by
        have quotient : i.value / (i.unit * 10 ^ (places - count)) < 10 ^ count := by
          rw [Nat.div_lt_iff_lt_mul positive, Nat.mul_left_comm, Nat.mul_comm (10 ^ count), powers]
          exact under
        exact Nat.le_trans bound quotient
      split
      · rename_i power
        refine ⟨Nat.one_pos, (by decide : 1 < 10 ^ 17), places, rfl, ?_⟩
        have same : 1 * (i.unit * 10 ^ places) = digits * (i.unit * 10 ^ (places - count)) := by
          rw [power, Nat.pow_eq, Nat.one_mul, Nat.mul_left_comm, Nat.mul_comm (10 ^ count), powers]
        rw [same]
        exact held
      · rename_i less
        have nonzero : 0 < digits := by
          have positive' := Nat.lt_of_lt_of_le wide.low_pos (Interval.le_of_holds held).1
          exact Nat.pos_of_mul_pos_right positive'
        refine ⟨nonzero, ?_, places - count, ?_, held⟩
        · have within : 10 ^ count ≤ 10 ^ 17 := Nat.pow_le_pow_right (by decide) (by omega)
          exact Nat.lt_of_lt_of_le (Nat.lt_of_le_of_ne most less) within
        · dsimp only
          omega

theorem tenPower_pos (exponent : Nat) : 0 < Nat.pow 10 exponent := Nat.pow_pos (by decide)

theorem interval_unit (m : Magnitude) : m.interval.unit = 4 * Nat.pow 2 1074 := by rw [interval]

theorem interval_unit_pos (m : Magnitude) : 0 < m.interval.unit := by
  rw [interval_unit]
  generalize 1074 = places
  exact Nat.mul_pos (by decide) (Nat.two_pow_pos places)

theorem exists_quarters (m : Magnitude) : ∃ quarters : Nat, quarters = 4 * m.margin ∧
    m.interval.low = (4 * m.units - quarters) * Nat.pow 10 lift ∧ quarters ≤ 2 * 2 ^ m.scale ∧
    2 * m.units ≤ 2 ^ 53 * quarters := by
  have digits : m.significand ≤ 2 ^ 53 := m.significand_lt.le
  have units : m.units = m.significand * 2 ^ m.scale := rfl
  have most := Nat.mul_le_mul_right (2 ^ m.scale) digits
  by_cases least : m.significand = 2 ^ 52 ∧ 0 < m.scale
  · refine ⟨2 ^ m.scale, ?_, ?_, by omega, ?_⟩
    · rw [margin, if_pos least]
      push_cast
      ring
    · have gap : (if m.significand = Nat.pow 2 52 ∧ 0 < m.scale then 2 * Nat.pow 2 m.scale / 2
          else 2 * Nat.pow 2 m.scale) = 2 ^ m.scale :=
        (if_pos least).trans (Nat.mul_div_cancel_left _ Nat.two_pos)
      exact congrArg (fun gap => (4 * m.units - gap) * Nat.pow 10 lift) gap
    · rw [units, least.1]
      omega
  · refine ⟨2 * 2 ^ m.scale, ?_, ?_, by omega, by omega⟩
    · rw [margin, if_neg least]
      push_cast
      ring
    · exact congrArg (fun gap => (4 * m.units - gap) * Nat.pow 10 lift) (if_neg least)

theorem le_units {m : Magnitude} (positive : m.isZero = false) : 2 ^ m.scale ≤ m.units :=
  Nat.le_mul_of_pos_left _ (Nat.pos_of_ne_zero (of_decide_eq_false positive))

theorem interval_wide {m : Magnitude} (positive : m.isZero = false) : m.interval.Wide := by
  obtain ⟨quarters, -, low, most, least⟩ := m.exists_quarters
  have units := le_units positive
  have power : 0 < 2 ^ m.scale := Nat.two_pow_pos _
  have fine : m.units ≤ 2 ^ 53 * 2 ^ m.scale := Nat.mul_le_mul_right _ m.significand_lt.le
  have lifted := tenPower_pos lift
  have value : m.interval.value = 4 * m.units * Nat.pow 10 lift := rfl
  have high : m.interval.high = (4 * m.units + 2 * 2 ^ m.scale) * Nat.pow 10 lift := rfl
  have below : 4 * m.units + 2 ^ 54 * (4 * m.units - quarters) ≤ 2 ^ 54 * (4 * m.units) := by omega
  have above : 4 * m.units + 2 ^ 54 * (4 * m.units) ≤ 2 ^ 54 * (4 * m.units + 2 * 2 ^ m.scale) := by omega
  have below' := Nat.mul_le_mul_right (Nat.pow 10 lift) below
  have above' := Nat.mul_le_mul_right (Nat.pow 10 lift) above
  rw [Nat.add_mul, Nat.mul_assoc (2 ^ 54), Nat.mul_assoc (2 ^ 54)] at below' above'
  refine ⟨?_, m.interval_unit_pos, ?_, ?_, ?_⟩
  · rw [value]
    exact Nat.mul_pos (by omega) lifted
  · rw [low]
    exact Nat.mul_pos (by omega) lifted
  · rw [value, low]
    exact below'
  · rw [value, high]
    exact above'

theorem rounds_of_holds {m : Magnitude} (positive : m.isZero = false) {n : Nat} (held : m.interval.holds n = true) :
    Rounds (n / (4 * Nat.pow 10 lift)) m := by
  obtain ⟨quarters, margin, low, most, -⟩ := m.exists_quarters
  have units := le_units positive
  have lifted : (0 : ℚ) < Nat.pow 10 lift := Nat.cast_pos.2 (tenPower_pos lift)
  have low' : (m.interval.low : ℚ) = (m.units - m.margin) * (4 * Nat.pow 10 lift) := by
    rw [low, Nat.cast_mul, Nat.cast_sub (by omega), Nat.cast_mul, margin]
    push_cast
    ring
  have high' : (m.interval.high : ℚ) = (m.units + 2 ^ m.scale / 2) * (4 * Nat.pow 10 lift) := by
    have high : m.interval.high = (4 * m.units + 2 * 2 ^ m.scale) * Nat.pow 10 lift := rfl
    rw [high]
    push_cast
    ring
  have positive' : (0 : ℚ) < 4 * Nat.pow 10 lift := by linarith
  obtain ⟨under, within⟩ := Interval.le_of_holds held
  refine ⟨?_, ?_, ?_⟩
  · rw [le_div_iff₀ positive', ← low']
    exact_mod_cast under
  · rw [div_le_iff₀ positive', ← high']
    exact_mod_cast within
  · intro odd
    have openEnds : m.interval.closed = false := decide_eq_false (by omega)
    rw [Interval.holds, openEnds] at held
    simp only [Bool.false_eq_true, if_false, Bool.and_eq_true, decide_eq_true_eq] at held
    rw [ne_eq, eq_div_iff positive'.ne', ← low', ne_eq, div_eq_iff positive'.ne', ← high', Nat.cast_inj, Nat.cast_inj]
    omega

theorem shortest_fits {m : Magnitude} (positive : m.isZero = false) : Fits m.interval m.shortest := by
  have wide := interval_wide positive
  have magnified : 10 ^ 17 ≤ m.interval.value / m.interval.unit := by
    have lifted : 10 ^ 17 * Nat.pow 2 1074 ≤ Nat.pow 10 lift := by decide +kernel
    have least : Nat.pow 10 lift ≤ m.units * Nat.pow 10 lift :=
      Nat.le_mul_of_pos_left _ (Nat.lt_of_lt_of_le (Nat.two_pow_pos _) (le_units positive))
    have value : m.interval.value = 4 * m.units * Nat.pow 10 lift := rfl
    have unit := m.interval_unit
    rw [Nat.le_div_iff_mul_le wide.unit_pos, value, unit, Nat.mul_assoc]
    omega
  have length : ∀ count, 0 < count → ((Nat.toDigits 10 (m.interval.value / m.interval.unit)).length ≤ count ↔
      m.interval.value / m.interval.unit < 10 ^ count) := fun _ => Nat.length_toDigits_le_iff (by decide)
  unfold shortest
  dsimp only
  generalize (Nat.toDigits 10 (m.interval.value / m.interval.unit)).length = places at length
  have many : 17 < places := by
    by_contra few
    have small := (length 17 (by decide)).1 (by omega)
    omega
  have under := (length places (by omega)).1 (Nat.le_refl _)
  have reaches : 10 ^ (places - 1) ≤ m.interval.value / m.interval.unit := by
    by_contra small
    have less := (length (places - 1) (by omega)).2 (by omega)
    omega
  refine shortestFrom_fits wide ?_ ?_ many 17 1 rfl (by decide) (by decide)
  · rw [Nat.div_lt_iff_lt_mul wide.unit_pos, Nat.mul_comm] at under
    exact under
  · rw [Nat.le_div_iff_mul_le wide.unit_pos, Nat.mul_comm] at reaches
    exact reaches

theorem interval_high_le (m : Magnitude) {top : Nat} (within : 53 + m.scale ≤ top) :
    m.interval.high ≤ 4 * (Nat.pow 2 top * Nat.pow 10 lift) := by
  have places : 2 ^ (53 + m.scale) ≤ Nat.pow 2 top := Nat.pow_le_pow_right (by decide) within
  have units : m.units = m.significand * 2 ^ m.scale := rfl
  have high : m.interval.high = (4 * m.units + 2 * 2 ^ m.scale) * Nat.pow 10 lift := rfl
  have digits := Nat.mul_le_mul_right (2 ^ m.scale) (Nat.succ_le_of_lt m.significand_lt)
  have more : (m.significand + 1) * 2 ^ m.scale ≤ 2 ^ (53 + m.scale) := by
    rw [Nat.pow_add]
    exact digits
  rw [Nat.succ_mul] at more
  rw [high, units, ← Nat.mul_assoc 4 (Nat.pow 2 top)]
  exact Nat.mul_le_mul_right _ (by omega)

theorem shift_lt_of_holds {m : Magnitude} {digits shift : Nat} (one top limit : Nat) (positive : 0 < digits)
    (held : m.interval.holds (digits * (m.interval.unit * 10 ^ shift)) = true) (unit : m.interval.unit = 4 * one)
    (within : 53 + m.scale ≤ top) (greatest : Nat.pow 2 top * Nat.pow 10 lift < one * Nat.pow 10 limit) :
    shift < limit := by
  by_contra more
  have powers : Nat.pow 10 limit ≤ digits * 10 ^ shift :=
    Nat.le_trans (Nat.pow_le_pow_right (by decide) (Nat.le_of_not_lt more)) (Nat.le_mul_of_pos_left _ positive)
  have least := Nat.mul_le_mul_left one powers
  have most := Nat.le_trans (Interval.le_of_holds held).2 (interval_high_le m within)
  rw [Nat.mul_left_comm, unit, Nat.mul_assoc] at most
  omega

theorem shortest_exponent {m : Magnitude} (positive : m.isZero = false) :
    -341 ≤ m.shortest.exponent ∧ m.shortest.exponent ≤ 308 := by
  obtain ⟨digits, -, shift, exponent, held⟩ := shortest_fits positive
  have range := m.scale_le
  have shifted := shift_lt_of_holds (Nat.pow 2 1074) 2098 650 digits held m.interval_unit (by omega)
    (by decide +kernel)
  have magnified : (lift : Int) = 341 := rfl
  omega

/-- The shortest decimal of a double is rounded to it. -/
theorem shortest_rounds {m : Magnitude} (positive : m.isZero = false) : Rounds (m.shortest.value * perOne) m := by
  obtain ⟨-, -, shift, exponent, held⟩ := shortest_fits positive
  have same : m.shortest.value * perOne =
      (m.shortest.digits * (m.interval.unit * 10 ^ shift) : Nat) / (4 * Nat.pow 10 lift) := by
    rw [Decimal.value, exponent, interval_unit, perOne, zpow_sub₀ (by norm_num), zpow_natCast, zpow_natCast]
    generalize Nat.pow 2 1074 = one
    generalize lift = places
    rw [Nat.pow_eq]
    push_cast
    field_simp
  rw [same]
  exact rounds_of_holds positive held

end Magnitude

end ViewTree
