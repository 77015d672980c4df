import ViewTree.Proofs.Data.Kinds
import ViewTree.Proofs.Number.Scaling
import ViewTree.Proofs.Number.Written

namespace ViewTree

namespace Magnitude

variable {m read : Magnitude} {q z : ℚ}

theorem apart_of_coarse (coarse : m.scale ≤ read.scale) (near : |(read.units : ℚ) - m.units| < 4 * 2 ^ m.scale) :
    |(read.units : ℚ) - m.units| ≤ 3 * 2 ^ m.scale := by
  obtain ⟨more, next⟩ := Nat.exists_eq_add_of_le coarse
  have place : (0 : ℚ) < 2 ^ m.scale := by positivity
  have whole : (read.units : ℚ) - m.units = ((read.significand * 2 ^ more - m.significand : Int) : ℚ) * 2 ^ m.scale := by
    rw [units_eq, units_eq, next, pow_add]
    push_cast
    ring
  rw [whole, abs_mul, abs_of_pos place] at near ⊢
  have near' := lt_of_mul_lt_mul_right near place.le
  have near'' : |(read.significand * 2 ^ more - m.significand : Int)| < 4 := by exact_mod_cast near'
  have few : |(read.significand * 2 ^ more - m.significand : Int)| ≤ 3 := by omega
  have few' : |((read.significand * 2 ^ more - m.significand : Int) : ℚ)| ≤ 3 := by exact_mod_cast few
  exact mul_le_mul_of_nonneg_right few' place.le

theorem apart_of_near (exactly : Rounds q m) (rounds : Rounds z read)
    (near : |z - q| ≤ 11 / 5 / 2 ^ 53 * q + 3 / 50) : |(read.units : ℚ) - m.units| ≤ 3 * 2 ^ m.scale := by
  have place : (1 : ℚ) ≤ 2 ^ m.scale := one_le_pow₀ (by norm_num)
  have digits := m.units_le
  obtain ⟨low, high⟩ := abs_le.1 exactly.close
  obtain ⟨low', high'⟩ := abs_le.1 near
  rcases Nat.lt_or_ge read.scale m.scale with fine | coarse
  · have halved : (2 : ℚ) ^ read.scale * 2 ≤ 2 ^ m.scale := by
      rw [← pow_succ]
      exact pow_le_pow_right₀ (by norm_num) fine
    have place' : (1 : ℚ) ≤ 2 ^ read.scale := one_le_pow₀ (by norm_num)
    obtain ⟨low'', high''⟩ := abs_le.1 rounds.close
    exact abs_le.2 ⟨by linarith, by linarith⟩
  · have last : |(read.units : ℚ) - z| ≤ 101 / 100 * 2 ^ m.scale := by
      rcases rounds.relative with small | part
      · exact small.trans (by linarith)
      · exact part.trans (by linarith)
    obtain ⟨low'', high''⟩ := abs_le.1 last
    exact apart_of_coarse coarse (abs_lt.2 ⟨by linarith, by linarith⟩)

theorem last_of_beyond (exactly : Rounds q m) (near : |z - q| ≤ 11 / 5 / 2 ^ 53 * q + 3 / 50)
    (beyond : (greatest.units : ℚ) < z) : m.scale = greatest.scale ∧ 2 ^ 53 - 3 ≤ m.significand := by
  have place : (1 : ℚ) ≤ 2 ^ m.scale := one_le_pow₀ (by norm_num)
  have high := exactly.high
  have bound := m.units_le
  obtain ⟨-, high'⟩ := abs_le.1 near
  rw [greatest_units] at beyond
  have top : m.scale ≤ greatest.scale := m.scale_le
  rcases Nat.eq_or_lt_of_le top with same | less
  · refine ⟨same, ?_⟩
    rw [← same] at beyond
    rw [units_eq] at bound high
    have few : ((2 ^ 53 - 4 : Nat) : ℚ) * 2 ^ m.scale < m.significand * 2 ^ m.scale := by
      push_cast
      linarith
    have few' := lt_of_mul_lt_mul_right few (by linarith)
    have few'' : 2 ^ 53 - 4 < m.significand := by exact_mod_cast few'
    omega
  · have doubled : (2 : ℚ) ^ m.scale * 2 ≤ 2 ^ greatest.scale := by
      rw [← pow_succ]
      exact pow_le_pow_right₀ (by norm_num) less
    linarith

theorem last_read : ∀ less < 3, ∀ m ∈ ofFields (2 ^ 53 - 1 - less) 2045,
    (Numeral.scaled m.written.digits m.written.exponent).isSome = true := by
  decide +kernel

theorem scaled_written (m : Magnitude) :
    ∃ read, Numeral.scaled m.written.digits m.written.exponent = some read ∧
      |(read.units : ℚ) - m.units| ≤ 3 * 2 ^ m.scale ∧
      (m.written.digits ≤ 2 ^ 53 → m.written.exponent.natAbs ≤ 22 → read = m) := by
  by_cases positive : m.isZero = false
  · obtain ⟨some, fits⟩ := digits_written positive
    obtain ⟨z, outcome, near, same⟩ := Numeral.exists_scales some fits.le m.exponent_written
    have exactly : Rounds (m.written.digits * 10 ^ m.written.exponent * perOne) m := written_rounds positive
    have total : ∃ read, Numeral.scaled m.written.digits m.written.exponent = Option.some read := by
      rcases le_or_gt z greatest.units with within | beyond
      · exact outcome.isSome within
      · obtain ⟨top, digits⟩ := last_of_beyond exactly near beyond
        have last : m ∈ ofFields (2 ^ 53 - 1 - (2 ^ 53 - 1 - m.significand)) 2045 := by
          have most : m.significand < 2 ^ 53 := m.significand_lt
          exact ofFields_eq_some.2 ⟨by omega, top⟩
        exact Option.isSome_iff_exists.1 (last_read _ (by omega) m last)
    obtain ⟨read, scaling⟩ := total
    refine ⟨read, scaling, apart_of_near exactly (outcome.eq_some.1 scaling) near, ?_⟩
    intro few short
    rw [← same few short, ← outcome.eq_some, scaling] at exactly
    exact Option.some.inj exactly
  · obtain rfl := eq_zero positive
    refine ⟨zero, by decide +kernel, ?_, fun _ _ => rfl⟩
    rw [sub_self, abs_zero]
    positivity

end Magnitude

namespace Data

/-- A double that is stored is loaded as the double that its written digits are scaled to. That has the same sign, is
no more than three places of the last digit away, and is the stored double itself if the digits and the power of ten
that go with them are doubles. -/
theorem load_double (negative : Bool) (m : Magnitude) :
    ∃ read, load (text (.number (.float negative m))) = .ok (.number (.float negative read)) ∧
      Numeral.scaled m.written.digits m.written.exponent = some read ∧
      |(read.units : ℤ) - m.units| ≤ 3 * 2 ^ m.scale ∧
      (m.written.digits ≤ 2 ^ 53 → m.written.exponent.natAbs ≤ 22 → read = m) := by
  obtain ⟨read, scaling, near, same⟩ := m.scaled_written
  have near' : |(read.units : ℤ) - m.units| ≤ 3 * 2 ^ m.scale := by exact_mod_cast near
  exact ⟨read, load_eq_ok.2 ⟨_, Json.parse_double negative scaling, rfl⟩, scaling, near', same⟩

/-- The greatest odd whole number among the doubles is loaded as the even one below it. -/
theorem load_odd_double :
    let odd : Magnitude := ⟨2 ^ 53 - 1, 1074, by decide, by decide, by decide⟩
    let even : Magnitude := ⟨2 ^ 53 - 2, 1074, by decide, by decide, by decide⟩
    load (text (.number (.float false odd))) = .ok (.number (.float false even)) ∧
      load (text (.number (.float false odd))) ≠ .ok (.number (.float false odd)) := by
  intro odd even
  have scaling : Numeral.scaled odd.written.digits odd.written.exponent = some even := by decide +kernel
  have loaded : load (text (.number (.float false odd))) = .ok (.number (.float false even)) :=
    load_eq_ok.2 ⟨_, Json.parse_double false scaling, rfl⟩
  refine ⟨loaded, ?_⟩
  rw [loaded]
  intro same
  injection same with same
  injection same with same
  injection same with _ same
  exact absurd same (by decide)

end Data

end ViewTree
