import ViewTree.Number.Basic

namespace ViewTree

/-- The written parts of a numeral; `fraction` is empty if there is none. -/
structure Numeral where
  negative : Bool
  whole : List Char
  fraction : List Char
  exponent : Option (Bool × List Char)

namespace Numeral

def digit (c : Char) : Nat := c.toNat - '0'.toNat

/-- Appends digits to a significand for as long as it fits 64 bits; what is left did not fit. -/
def accumulate (significand : Nat) : List Char → Nat × List Char
  | [] => (significand, [])
  | c :: digits =>
    let next := significand * 10 + digit c
    if next < 0x10000000000000000 then accumulate next digits else (significand, c :: digits)

/-- The value of the digits of an exponent. Once it passes 31 bits the digits that follow are of no
account, and their number is returned instead. -/
def exponentValue (value : Nat) : List Char → Except Nat Nat
  | [] => .ok value
  | c :: digits =>
    let next := value * 10 + digit c
    if next < 0x80000000 then exponentValue next digits else .error digits.length

/-- A double divided by `10 ^ exponent`, at most 308 places at a time. Two steps reach zero from any
significand of 64 bits, so there is never a third. -/
def divideByPower (m : Magnitude) (exponent : Nat) : Option Magnitude := do
  if exponent ≤ 308 then
    m.dividedBy (← Magnitude.powerOfTen exponent)
  else
    let reduced ← m.dividedBy (← Magnitude.powerOfTen 308)
    if exponent ≤ 616 then reduced.dividedBy (← Magnitude.powerOfTen (exponent - 308))
    else some Magnitude.zero

/-- A significand times `10 ^ exponent`; none if that is beyond the greatest double. -/
def scaled (significand : Nat) (exponent : Int) : Option Magnitude := do
  let m ← Magnitude.nearest significand 1
  if 0 ≤ exponent then
    if exponent ≤ 308 then m.times (← Magnitude.powerOfTen exponent.toNat)
    else if m.isZero then some m
    else none
  else divideByPower m exponent.natAbs

/-- The significand of a numeral and the power of ten that goes with it, the written exponent left
aside. A digit before the point that does not fit raises the power; one after the point that fits
lowers it. -/
def parts (n : Numeral) : Nat × Int :=
  let (whole, dropped) := accumulate 0 n.whole
  let (significand, ignored) := accumulate whole n.fraction
  (significand, (dropped.length : Int) - (n.fraction.length - ignored.length : Nat))

def floatValue (n : Numeral) : Except Nat Number :=
  let (significand, power) := n.parts
  let finish (exponent : Int) : Except Nat Number :=
    match scaled significand exponent with
    | some m => .ok (.float n.negative m)
    | none => .error 0
  match n.exponent with
  | none => finish power
  | some (down, digits) =>
    match exponentValue 0 digits with
    | .ok exponent => finish (if down then power - exponent else power + exponent)
    | .error unread =>
      if significand = 0 ∨ down = true then .ok (.float n.negative Magnitude.zero)
      else .error unread

/-- The integer with a numeral's sign and digits. Zero has no sign among the integers, so `-0` is
none of them. -/
def integerValue (n : Numeral) : Option Number :=
  match accumulate 0 n.whole with
  | (_, _ :: _) => none
  | (value, []) =>
    if n.negative then if value = 0 then none else Number.ofInt (-value)
    else Number.ofInt value

/-- The number a numeral stands for. One out of range is refused, with how many of the characters
at its end do not matter for that. -/
def value (n : Numeral) : Except Nat Number :=
  match n.fraction, n.exponent with
  | [], none =>
    match n.integerValue with
    | some number => .ok number
    | none => n.floatValue
  | _, _ => n.floatValue

end Numeral

end ViewTree
