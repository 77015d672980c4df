namespace ViewTree

/-- The finite double `significand * 2 ^ scale / 2 ^ 1074`. The fields determine the number and the
number determines the fields. -/
structure Magnitude where
  significand : Nat
  scale : Nat
  significand_lt : significand < Nat.pow 2 53
  scale_le : scale ≤ 2045
  normal : scale = 0 ∨ Nat.pow 2 52 ≤ significand
deriving DecidableEq

namespace Magnitude

def zero : Magnitude := ⟨0, 0, by decide, by decide, by decide⟩

instance : Inhabited Magnitude := ⟨zero⟩

def units (m : Magnitude) : Nat := m.significand * Nat.pow 2 m.scale

def isZero (m : Magnitude) : Bool := m.significand = 0

def ofFields (significand scale : Nat) : Option Magnitude :=
  if h : significand < Nat.pow 2 53 ∧ scale ≤ 2045 ∧ (scale = 0 ∨ Nat.pow 2 52 ≤ significand) then
    some ⟨significand, scale, h.1, h.2.1, h.2.2⟩
  else none

/-- The nearest whole number to a quotient, a half going to the even one. -/
def roundQuotient (numerator denominator : Nat) : Nat :=
  let floor := numerator / denominator
  let twice := 2 * (numerator % denominator)
  if denominator < twice ∨ (twice = denominator ∧ floor % 2 = 1) then floor + 1 else floor

/-- The nearest double to a quotient; none if it is beyond the greatest one. -/
def nearest (numerator denominator : Nat) : Option Magnitude :=
  let scaled := numerator * Nat.pow 2 1074
  let scale := (scaled / denominator).log2 - 52
  let significand := roundQuotient scaled (denominator * Nat.pow 2 scale)
  if significand = Nat.pow 2 53 then ofFields (Nat.pow 2 52) (scale + 1)
  else ofFields significand scale

def powerOfTen (exponent : Nat) : Option Magnitude := nearest (Nat.pow 10 exponent) 1

def times (a b : Magnitude) : Option Magnitude :=
  nearest (a.units * b.units) (Nat.pow 2 1074 * Nat.pow 2 1074)

def dividedBy (a b : Magnitude) : Option Magnitude := nearest a.units b.units

end Magnitude

end ViewTree
