import Mathlib.Data.Rat.Lemmas
import Mathlib.Tactic.FieldSimp
import Mathlib.Tactic.Linarith
import Mathlib.Tactic.Positivity
import Mathlib.Tactic.Ring
import ViewTree.Number.Magnitude

namespace ViewTree.Magnitude

/-- A whole number nearest to a rational one, the even one of two. -/
structure Nearby (q : ℚ) (k : Nat) : Prop where
  low : k - 1 / 2 ≤ q
  high : q ≤ k + 1 / 2
  tie : k % 2 = 1 → k - 1 / 2 ≠ q ∧ q ≠ k + 1 / 2

theorem Nearby.le {q : ℚ} {k l : Nat} (first : Nearby q k) (second : Nearby q l) : k ≤ l := by
  by_contra more
  have next : l + 1 ≤ k := by omega
  have apart : (l : ℚ) + 1 ≤ k := by exact_mod_cast next
  have low := first.low
  have high := second.high
  -- Two numbers that are both nearest are neighbours with the quotient halfway, and one of them is odd.
  have same : l + 1 = k := by
    have close : (k : ℚ) ≤ l + 1 := by linarith
    have close' : k ≤ l + 1 := by exact_mod_cast close
    omega
  have half : (l : ℚ) + 1 = k := by exact_mod_cast same
  rcases Nat.mod_two_eq_zero_or_one k with even | odd
  · have odd' : l % 2 = 1 := by omega
    exact (second.tie odd').2 (by linarith)
  · exact (first.tie odd).1 (by linarith)

theorem Nearby.unique {q : ℚ} {k l : Nat} (first : Nearby q k) (second : Nearby q l) : k = l :=
  Nat.le_antisymm (first.le second) (second.le first)

theorem nearby_natCast (k : Nat) : Nearby k k := ⟨by linarith, by linarith, fun _ => ⟨by linarith, by linarith⟩⟩

theorem roundQuotient_nearby (numerator : Nat) {denominator : Nat} (positive : 0 < denominator) :
    Nearby (numerator / denominator) (roundQuotient numerator denominator) := by
  have positive' : (0 : ℚ) < denominator := by exact_mod_cast positive
  have rest := Nat.mod_lt numerator positive
  have whole : (numerator : ℚ) = denominator * (numerator / denominator : Nat) + (numerator % denominator : Nat) := by
    exact_mod_cast (Nat.div_add_mod numerator denominator).symm
  have split : (numerator : ℚ) / denominator =
      (numerator / denominator : Nat) + (numerator % denominator : Nat) / denominator := by
    rw [whole]
    field_simp
  rw [split, roundQuotient]
  generalize numerator / denominator = floor
  generalize numerator % denominator = left at rest
  have small : (left : ℚ) / denominator < 1 := by
    rw [div_lt_one positive']
    exact_mod_cast rest
  have some : (0 : ℚ) ≤ (left : ℚ) / denominator := by positivity
  have halfway : (left : ℚ) / denominator = 1 / 2 → 2 * left = denominator := by
    intro same
    rw [div_eq_iff positive'.ne'] at same
    have twice : (2 : ℚ) * left = denominator := by linarith
    exact_mod_cast twice
  by_cases up : denominator < 2 * left ∨ (2 * left = denominator ∧ floor % 2 = 1)
  · have half : (1 : ℚ) / 2 ≤ left / denominator := by
      rw [le_div_iff₀ positive']
      have enough : denominator ≤ 2 * left := by omega
      have enough' : (denominator : ℚ) ≤ 2 * left := by exact_mod_cast enough
      linarith
    have next : ((floor + 1 : Nat) : ℚ) = floor + 1 := Nat.cast_succ floor
    rw [if_pos up]
    refine ⟨by linarith, by linarith, fun odd => ⟨fun same => ?_, fun same => by linarith⟩⟩
    have exactly := halfway (by linarith)
    omega
  · have half : (left : ℚ) / denominator ≤ 1 / 2 := by
      rw [div_le_iff₀ positive']
      have enough : 2 * left ≤ denominator := by omega
      have enough' : (2 : ℚ) * left ≤ denominator := by exact_mod_cast enough
      linarith
    rw [if_neg up]
    refine ⟨by linarith, by linarith, fun odd => ⟨fun same => by linarith, fun same => ?_⟩⟩
    have exactly := halfway (by linarith)
    omega

theorem nearby_div {q place : ℚ} {k : Nat} (positive : 0 < place) :
    Nearby (q / place) k ↔ k * place - place / 2 ≤ q ∧ q ≤ k * place + place / 2 ∧
      (k % 2 = 1 → k * place - place / 2 ≠ q ∧ q ≠ k * place + place / 2) := by
  have below : ((k : ℚ) - 1 / 2) * place = k * place - place / 2 := by ring
  have above : ((k : ℚ) + 1 / 2) * place = k * place + place / 2 := by ring
  rw [← below, ← above, ← le_div_iff₀ positive, ← div_le_iff₀ positive, ne_eq, ne_eq, ← eq_div_iff positive.ne',
    ← div_eq_iff positive.ne']
  exact ⟨fun near => ⟨near.low, near.high, near.tie⟩, fun ⟨low, high, tie⟩ => ⟨low, high, tie⟩⟩

def perOne : ℚ := Nat.pow 2 1074

theorem perOne_pos : 0 < perOne := by
  unfold perOne
  generalize 1074 = places
  exact Nat.cast_pos.2 (Nat.two_pow_pos places)

/-- How far below a double what is rounded to it may lie: half the gap, which is half as wide below a power of
two. -/
def margin (m : Magnitude) : ℚ :=
  if m.significand = 2 ^ 52 ∧ 0 < m.scale then 2 ^ m.scale / 4 else 2 ^ m.scale / 2

/-- A number of units that is rounded to a double. -/
structure Rounds (q : ℚ) (m : Magnitude) : Prop where
  low : m.units - m.margin ≤ q
  high : q ≤ m.units + 2 ^ m.scale / 2
  tie : m.significand % 2 = 1 → m.units - m.margin ≠ q ∧ q ≠ m.units + 2 ^ m.scale / 2

theorem units_eq (m : Magnitude) : (m.units : ℚ) = m.significand * 2 ^ m.scale := by
  rw [units, Nat.pow_eq]
  push_cast
  rfl

theorem units_le (m : Magnitude) : (m.units : ℚ) ≤ (2 ^ 53 - 1) * 2 ^ m.scale := by
  have most : m.significand + 1 ≤ 2 ^ 53 := m.significand_lt
  have most' : (m.significand : ℚ) + 1 ≤ 2 ^ 53 := by exact_mod_cast most
  rw [units_eq]
  exact mul_le_mul_of_nonneg_right (by linarith) (by positivity)

theorem ofFields_eq_some {significand scale : Nat} {m : Magnitude} :
    ofFields significand scale = some m ↔ m.significand = significand ∧ m.scale = scale := by
  unfold ofFields
  split
  · rename_i fits
    rw [Option.some.injEq]
    constructor
    · rintro rfl
      exact ⟨rfl, rfl⟩
    · rintro ⟨rfl, rfl⟩
      rfl
  · rename_i outside
    refine ⟨nofun, ?_⟩
    rintro ⟨rfl, rfl⟩
    exact absurd ⟨m.significand_lt, m.scale_le, m.normal⟩ outside

theorem eq_zero {m : Magnitude} (nothing : ¬ m.isZero = false) : m = zero := by
  have digits : m.significand = 0 := of_decide_eq_true (Bool.eq_true_of_not_eq_false nothing)
  have scale : m.scale = 0 := m.normal.resolve_right (by rw [digits]; decide)
  have fields : ofFields 0 0 = some m := ofFields_eq_some.2 ⟨digits, scale⟩
  exact (Option.some.inj fields).symm

/-- The place of the last digit of a rounded quotient: all the digits before it are less than `2 ^ 53`, and no
fewer than there may be. -/
theorem scale_bounds (numerator : Nat) {denominator : Nat} (positive : 0 < denominator) :
    let scale := (numerator / denominator).log2 - 52
    (numerator / denominator : ℚ) < 2 ^ (53 + scale) ∧
      (0 < scale → (2 : ℚ) ^ (52 + scale) ≤ numerator / denominator) := by
  intro scale
  have positive' : (0 : ℚ) < denominator := by exact_mod_cast positive
  constructor
  · rw [div_lt_iff₀ positive']
    have under : numerator / denominator < 2 ^ (53 + scale) := by
      refine Nat.lt_of_lt_of_le Nat.lt_log2_self (Nat.pow_le_pow_right (by decide) ?_)
      omega
    have under' := (Nat.div_lt_iff_lt_mul positive).1 under
    exact_mod_cast under'
  · intro some
    rw [le_div_iff₀ positive']
    have nonzero : numerator / denominator ≠ 0 := by
      intro none
      have still : scale = 0 := by
        simp only [scale, none, Nat.log2_zero, Nat.zero_sub]
      omega
    have reaches : 2 ^ (52 + scale) ≤ numerator / denominator := by
      refine Nat.le_trans (Nat.pow_le_pow_right (by decide) ?_) (Nat.log2_self_le nonzero)
      omega
    have reaches' := (Nat.le_div_iff_mul_le positive).1 reaches
    exact_mod_cast reaches'

/-- The double with the digits that a quotient is rounded to, which may be one more than can be. -/
def carried (significand scale : Nat) : Option Magnitude :=
  if significand = 2 ^ 53 then ofFields (2 ^ 52) (scale + 1) else ofFields significand scale

theorem rounds_of_carried {q : ℚ} {k scale : Nat} {m : Magnitude} (under : q < 2 ^ (53 + scale))
    (reaches : 0 < scale → (2 : ℚ) ^ (52 + scale) ≤ q) (near : Nearby (q / 2 ^ scale) k)
    (taken : carried k scale = some m) : Rounds q m := by
  have positive : (0 : ℚ) < 2 ^ scale := by positivity
  obtain ⟨low, high, tie⟩ := (nearby_div positive).1 near
  rw [pow_add] at under reaches
  unfold carried at taken
  split at taken
  · rename_i carry
    obtain ⟨significand, next⟩ := ofFields_eq_some.1 taken
    have units : (m.units : ℚ) = 2 ^ 53 * 2 ^ scale := by
      rw [units_eq, significand, next]
      push_cast
      ring
    have margin : m.margin = 2 ^ scale / 2 := by
      rw [Magnitude.margin, if_pos ⟨significand, next ▸ Nat.succ_pos scale⟩, next, pow_succ]
      ring
    rw [carry] at low
    push_cast at low
    refine ⟨by rw [units, margin]; exact low, ?_, ?_⟩
    · have more : (0 : ℚ) ≤ 2 ^ m.scale / 2 := by positivity
      rw [units]
      linarith
    · rw [significand]
      nofun
  · obtain ⟨rfl, rfl⟩ := ofFields_eq_some.1 taken
    rw [← units_eq] at low high tie
    by_cases least : m.significand = 2 ^ 52 ∧ 0 < m.scale
    · have exactly : m.units ≤ q := by
        rw [units_eq, least.1]
        exact_mod_cast reaches least.2
      have some : 0 ≤ m.margin := by
        rw [margin, if_pos least]
        positivity
      refine ⟨by linarith, high, ?_⟩
      rw [least.1]
      nofun
    · have margin : m.margin = 2 ^ m.scale / 2 := if_neg least
      exact ⟨by rw [margin]; exact low, high, by rw [margin]; exact tie⟩

theorem margin_le (m : Magnitude) : m.margin ≤ 2 ^ m.scale / 2 := by
  have positive : (0 : ℚ) < 2 ^ m.scale := by positivity
  unfold margin
  split <;> linarith

theorem margin_eq {m : Magnitude} (inside : m.significand ≠ 2 ^ 52) : m.margin = 2 ^ m.scale / 2 :=
  if_neg fun least => inside least.1

theorem Rounds.lt {q : ℚ} {m : Magnitude} (rounds : Rounds q m) : q < 2 ^ (53 + m.scale) := by
  have positive : (0 : ℚ) < 2 ^ m.scale := by positivity
  have digits := m.units_le
  have high := rounds.high
  rw [pow_add]
  linarith

theorem Rounds.nearby {q : ℚ} {m : Magnitude} (rounds : Rounds q m) : Nearby (q / 2 ^ m.scale) m.significand := by
  have positive : (0 : ℚ) < 2 ^ m.scale := by positivity
  rw [nearby_div positive, ← units_eq]
  have most := m.margin_le
  have low := rounds.low
  refine ⟨by linarith, rounds.high, ?_⟩
  intro odd
  have inside : m.significand ≠ 2 ^ 52 := by
    intro least
    rw [least] at odd
    cases odd
  have tie := rounds.tie odd
  rw [margin_eq inside] at tie
  exact tie

theorem Rounds.above_power {q : ℚ} {m : Magnitude} (rounds : Rounds q m) (some : 0 < m.scale)
    (inside : m.significand ≠ 2 ^ 52) : (2 ^ 52 + 1 / 2) * 2 ^ m.scale ≤ q := by
  have positive : (0 : ℚ) < 2 ^ m.scale := by positivity
  have normal : 2 ^ 52 ≤ m.significand := m.normal.resolve_left (by omega)
  have more : 2 ^ 52 + 1 ≤ m.significand := by omega
  have more' : (2 : ℚ) ^ 52 + 1 ≤ m.significand := by exact_mod_cast more
  have scaled := mul_le_mul_of_nonneg_right more' positive.le
  have low := rounds.low
  rw [margin_eq inside, units_eq] at low
  linarith

/-- What is rounded to a double may have one binary digit less than the double, and then the double is a power of
two. -/
theorem Rounds.nearby_carry {q : ℚ} {m : Magnitude} (rounds : Rounds q m) {scale : Nat} (less : scale < m.scale)
    (under : q < 2 ^ (53 + scale)) :
    m.significand = 2 ^ 52 ∧ m.scale = scale + 1 ∧ Nearby (q / 2 ^ scale) (2 ^ 53) := by
  have some : 0 < m.scale := by omega
  have positive : (0 : ℚ) < 2 ^ m.scale := by positivity
  have low := rounds.low
  have least : m.significand = 2 ^ 52 := by
    by_contra inside
    have above := rounds.above_power some inside
    have powers : (2 : ℚ) ^ (52 + m.scale) < 2 ^ (53 + scale) := by
      rw [pow_add]
      linarith
    rw [pow_lt_pow_iff_right₀ (by norm_num)] at powers
    omega
  have margin : m.margin = 2 ^ m.scale / 4 := if_pos ⟨least, some⟩
  rw [margin, units_eq, least] at low
  push_cast at low
  have next : m.scale = scale + 1 := by
    have powers : (2 : ℚ) ^ (51 + m.scale) < 2 ^ (53 + scale) := by
      rw [pow_add]
      linarith
    rw [pow_lt_pow_iff_right₀ (by norm_num)] at powers
    omega
  have place : (0 : ℚ) < 2 ^ scale := by positivity
  refine ⟨least, next, ?_⟩
  rw [next, pow_succ] at low
  rw [pow_add] at under
  rw [nearby_div place]
  push_cast
  exact ⟨by linarith, by linarith, nofun⟩

theorem Rounds.scale_le {q : ℚ} {m n : Magnitude} (first : Rounds q m) (second : Rounds q n) :
    n.scale ≤ m.scale := by
  by_contra less
  obtain ⟨-, -, near⟩ := second.nearby_carry (Nat.lt_of_not_le less) first.lt
  exact absurd (first.nearby.unique near) (Nat.ne_of_lt m.significand_lt)

theorem Rounds.unique {q : ℚ} {m n : Magnitude} (first : Rounds q m) (second : Rounds q n) : m = n := by
  have scale : m.scale = n.scale := Nat.le_antisymm (second.scale_le first) (first.scale_le second)
  have near := second.nearby
  rw [← scale] at near
  have fields : ofFields n.significand n.scale = some m := ofFields_eq_some.2 ⟨first.nearby.unique near, scale⟩
  have fields' : ofFields n.significand n.scale = some n := ofFields_eq_some.2 ⟨rfl, rfl⟩
  exact Option.some.inj (fields.symm.trans fields')

theorem carried_of_rounds {q : ℚ} {k scale : Nat} {m : Magnitude} (under : q < 2 ^ (53 + scale))
    (reaches : 0 < scale → (2 : ℚ) ^ (52 + scale) ≤ q) (near : Nearby (q / 2 ^ scale) k)
    (rounds : Rounds q m) : carried k scale = some m := by
  have notAbove : scale ≤ m.scale := by
    by_contra above
    have powers := lt_of_le_of_lt (reaches (by omega)) rounds.lt
    rw [pow_lt_pow_iff_right₀ (by norm_num)] at powers
    omega
  rcases Nat.eq_or_lt_of_le notAbove with rfl | less
  · rw [near.unique rounds.nearby, carried]
    refine (if_neg (Nat.ne_of_lt m.significand_lt)).trans ?_
    exact ofFields_eq_some.2 ⟨rfl, rfl⟩
  · obtain ⟨least, next, near'⟩ := rounds.nearby_carry less under
    rw [near.unique near', carried, if_pos rfl]
    exact ofFields_eq_some.2 ⟨least, next⟩

theorem nearest_carried (numerator : Nat) {denominator : Nat} (positive : 0 < denominator) :
    ∃ k scale, nearest numerator denominator = carried k scale ∧
      (numerator / denominator * perOne : ℚ) < 2 ^ (53 + scale) ∧
      (0 < scale → (2 : ℚ) ^ (52 + scale) ≤ numerator / denominator * perOne) ∧
      Nearby (numerator / denominator * perOne / 2 ^ scale) k := by
  have units : (numerator / denominator * perOne : ℚ) = (numerator * Nat.pow 2 1074 : Nat) / denominator := by
    rw [perOne, Nat.cast_mul, div_mul_eq_mul_div]
  rw [units, nearest]
  generalize numerator * Nat.pow 2 1074 = scaled
  obtain ⟨under, reaches⟩ := scale_bounds scaled positive
  generalize (scaled / denominator).log2 - 52 = scale at under reaches
  have near := roundQuotient_nearby scaled (Nat.mul_pos positive (Nat.two_pow_pos scale))
  push_cast at near
  rw [← div_div] at near
  exact ⟨_, scale, rfl, under, reaches, near⟩

theorem Rounds.close {q : ℚ} {m : Magnitude} (rounds : Rounds q m) : |m.units - q| ≤ 2 ^ m.scale / 2 := by
  have most := m.margin_le
  have low := rounds.low
  have high := rounds.high
  rw [abs_le]
  exact ⟨by linarith, by linarith⟩

/-- Rounding moves a number by half a unit at most, or by at most one part in `2 ^ 53`. -/
theorem Rounds.relative {q : ℚ} {m : Magnitude} (rounds : Rounds q m) :
    |m.units - q| ≤ 1 / 2 ∨ |m.units - q| ≤ q / 2 ^ 53 := by
  rcases Nat.eq_zero_or_pos m.scale with least | some
  · have close := rounds.close
    rw [least, pow_zero] at close
    exact .inl close
  · right
    have positive : (0 : ℚ) < 2 ^ m.scale := by positivity
    have low := rounds.low
    have high := rounds.high
    rw [units_eq] at low high ⊢
    rw [abs_le]
    by_cases power : m.significand = 2 ^ 52
    · have margin : m.margin = 2 ^ m.scale / 4 := if_pos ⟨power, some⟩
      rw [margin] at low
      rw [power] at low high ⊢
      push_cast at low high ⊢
      exact ⟨by linarith, by linarith⟩
    · have above := rounds.above_power some power
      rw [margin_eq power] at low
      exact ⟨by linarith, by linarith⟩

theorem Rounds.exact_of_lt {k places : Nat} {m : Magnitude} (rounds : Rounds (k * 2 ^ places) m) (few : k < 2 ^ 53) :
    (m.units : ℚ) = k * 2 ^ places := by
  by_cases fine : m.scale ≤ places
  · obtain ⟨more, rfl⟩ := Nat.exists_eq_add_of_le fine
    have positive : (2 : ℚ) ^ m.scale ≠ 0 := by positivity
    have whole : (k * 2 ^ (m.scale + more) : ℚ) / 2 ^ m.scale = (k * 2 ^ more : Nat) := by
      rw [pow_add]
      push_cast
      field_simp
    have near := rounds.nearby
    rw [whole] at near
    rw [units_eq, near.unique (nearby_natCast _), pow_add]
    push_cast
    ring
  · have positive : (0 : ℚ) < 2 ^ places := by positivity
    have few' : (k : ℚ) < 2 ^ 53 := by exact_mod_cast few
    have under : (k * 2 ^ places : ℚ) < 2 ^ (53 + places) := by
      rw [pow_add]
      exact mul_lt_mul_of_pos_right few' positive
    obtain ⟨-, -, near⟩ := rounds.nearby_carry (Nat.lt_of_not_le fine) under
    rw [mul_div_cancel_right₀ _ positive.ne'] at near
    exact absurd (near.unique (nearby_natCast k)) (Nat.ne_of_gt few)

/-- A number with few binary digits before its zeros is a double. -/
theorem Rounds.exact {k places : Nat} {m : Magnitude} (rounds : Rounds (k * 2 ^ places) m) (few : k ≤ 2 ^ 53) :
    (m.units : ℚ) = k * 2 ^ places := by
  rcases Nat.eq_or_lt_of_le few with rfl | few
  · have halved : (((2 ^ 53 : Nat) : ℚ) * 2 ^ places) = (2 ^ 52 : Nat) * 2 ^ (places + 1) := by
      rw [pow_succ]
      push_cast
      ring
    rw [halved] at rounds ⊢
    exact rounds.exact_of_lt (by decide)
  · exact rounds.exact_of_lt few

theorem ofFields_isSome {significand scale : Nat} (digits : significand < 2 ^ 53) (range : scale ≤ 2045)
    (normal : scale = 0 ∨ 2 ^ 52 ≤ significand) : ∃ m, ofFields significand scale = some m :=
  ⟨_, dif_pos ⟨digits, range, normal⟩⟩

theorem carried_isSome {q : ℚ} {k scale top : Nat} (under : q < 2 ^ (53 + scale))
    (reaches : 0 < scale → (2 : ℚ) ^ (52 + scale) ≤ q) (near : Nearby (q / 2 ^ scale) k)
    (within : q ≤ (2 ^ 53 - 1) * 2 ^ top) (greatest : top = 2045) : ∃ m, carried k scale = some m := by
  have positive : (0 : ℚ) < 2 ^ scale := by positivity
  obtain ⟨low, high, -⟩ := (nearby_div positive).1 near
  have notAbove : scale ≤ top := by
    by_contra above
    have place : (0 : ℚ) < 2 ^ top := by positivity
    have powers : (2 : ℚ) ^ (52 + scale) < 2 ^ (53 + top) := by
      refine lt_of_le_of_lt (reaches (by omega)) ?_
      rw [pow_add]
      linarith
    rw [pow_lt_pow_iff_right₀ (by norm_num)] at powers
    omega
  rw [pow_add] at under reaches
  have most : k ≤ 2 ^ 53 := by
    have bound : (k : ℚ) * 2 ^ scale < (2 ^ 53 + 1) * 2 ^ scale := by linarith
    have bound' : k < 2 ^ 53 + 1 := by exact_mod_cast lt_of_mul_lt_mul_right bound positive.le
    omega
  unfold carried
  split
  · rename_i carry
    have inside : scale ≠ top := by
      rintro rfl
      rw [carry] at low
      push_cast at low
      linarith
    exact ofFields_isSome (by decide) (by omega) (.inr (Nat.le_refl _))
  · rename_i inside
    refine ofFields_isSome (by omega) (by omega) ?_
    rcases Nat.eq_zero_or_pos scale with least | some
    · exact .inl least
    · have bound : (2 : ℚ) ^ 52 * 2 ^ scale < (k + 1) * 2 ^ scale := by linarith [reaches some]
      have bound' : 2 ^ 52 < k + 1 := by exact_mod_cast lt_of_mul_lt_mul_right bound positive.le
      exact .inr (by omega)

def greatest : Magnitude := ⟨2 ^ 53 - 1, 2045, by decide, by decide, by decide⟩

theorem greatest_units : (greatest.units : ℚ) = (2 ^ 53 - 1) * 2 ^ greatest.scale := by
  have digits : ((greatest.significand : Nat) : ℚ) = 2 ^ 53 - 1 := by norm_num [greatest]
  rw [units_eq, digits]

theorem units_mono {m n : Magnitude} (digits : m.significand ≤ n.significand) (scales : m.scale ≤ n.scale) :
    m.units ≤ n.units := Nat.mul_le_mul digits (Nat.pow_le_pow_right (by decide) scales)

theorem units_le_greatest (m : Magnitude) : m.units ≤ greatest.units :=
  units_mono (Nat.le_of_lt_succ m.significand_lt) m.scale_le

/-- The outcome of rounding a number of units: the double that it is rounded to, and none only if it is greater
than all doubles. -/
structure Outcome (q : ℚ) (outcome : Option Magnitude) : Prop where
  eq_some : ∀ {m}, outcome = some m ↔ Rounds q m
  isSome : q ≤ greatest.units → ∃ m, outcome = some m

theorem nearest_outcome (numerator : Nat) {denominator : Nat} (positive : 0 < denominator) :
    Outcome (numerator / denominator * perOne) (nearest numerator denominator) := by
  obtain ⟨k, scale, rounded, under, reaches, near⟩ := nearest_carried numerator positive
  rw [rounded]
  refine ⟨⟨rounds_of_carried under reaches near, carried_of_rounds under reaches near⟩, ?_⟩
  intro within
  rw [greatest_units] at within
  exact carried_isSome under reaches near within rfl

end ViewTree.Magnitude
