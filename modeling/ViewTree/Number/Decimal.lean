import ViewTree.Number.Magnitude

namespace ViewTree

/-- The decimal `digits * 10 ^ exponent`. -/
structure Decimal where
  digits : Nat
  exponent : Int
deriving DecidableEq

/-- The decimals that round to a double lie from `low` to `high`; the two ends do so exactly if
`closed`. All of them, and the double itself, are counted in units of `1 / unit`. -/
structure Interval where
  low : Nat
  value : Nat
  high : Nat
  closed : Bool
  unit : Nat

namespace Interval

def holds (i : Interval) (n : Nat) : Bool :=
  if i.closed then i.low ≤ n && n ≤ i.high else i.low < n && n < i.high

/-- The multiple of `step` in the interval that is nearest to its value, as a multiplier. Of two
equally near ones it is the even one. -/
def nearestMultiple (i : Interval) (step : Nat) : Option Nat :=
  let below := i.value / step
  let above := below + 1
  match i.holds (below * step), i.holds (above * step) with
  | false, false => none
  | true, false => some below
  | false, true => some above
  | true, true =>
    let down := i.value - below * step
    let up := above * step - i.value
    if down < up ∨ (down = up ∧ below % 2 = 0) then some below else some above

end Interval

namespace Magnitude

/-- Magnified by `10 ^ lift`, even the least double has 18 digits before the point. -/
def lift : Nat := 341

/-- Where the decimals lie that round to a double. The gap below a power of two is half as wide as
the gap above it. -/
def interval (m : Magnitude) : Interval :=
  let half := 2 * Nat.pow 2 m.scale
  let below := if m.significand = Nat.pow 2 52 ∧ 0 < m.scale then half / 2 else half
  let value := 4 * m.units
  { low := (value - below) * Nat.pow 10 lift
    value := value * Nat.pow 10 lift
    high := (value + half) * Nat.pow 10 lift
    closed := m.significand % 2 = 0
    unit := 4 * Nat.pow 2 1074 }

/-- The least number of digits, from `count` on, with which a decimal rounds to the double, and the
nearest such decimal; `places` is the number of digits that the double has before the point when it
is magnified. -/
def shortestFrom (i : Interval) (places : Nat) : (tries count : Nat) → Decimal
  | 0, _ => ⟨i.value / i.unit, -lift⟩
  | tries + 1, count =>
    match i.nearestMultiple (i.unit * Nat.pow 10 (places - count)) with
    | none => shortestFrom i places tries (count + 1)
    | some digits =>
      if digits = Nat.pow 10 count then ⟨1, (places : Int) - lift⟩
      else ⟨digits, (places : Int) - count - lift⟩

/-- The shortest decimal of a positive double. Seventeen digits always suffice. -/
def shortest (m : Magnitude) : Decimal :=
  let i := m.interval
  shortestFrom i (Nat.toDigits 10 (i.value / i.unit)).length 17 1

end Magnitude

end ViewTree
