import ViewTree.Number.Decimal

namespace ViewTree

inductive Number where
  | integer (value : Int) (within : -0x8000000000000000 ≤ value ∧ value < 0x10000000000000000)
  | float (negative : Bool) (magnitude : Magnitude)
deriving DecidableEq

namespace Number

def zero : Number := .integer 0 (by decide)

instance : Inhabited Number := ⟨zero⟩

def ofInt (value : Int) : Option Number :=
  if h : -0x8000000000000000 ≤ value ∧ value < 0x10000000000000000 then some (.integer value h)
  else none

def ofInt64 (value : Int64) : Number :=
  .integer value.toInt (by
    have least := value.le_toInt
    have greatest := value.toInt_lt
    omega)

def ofUInt64 (value : UInt64) : Number :=
  .integer value.toNat (by
    have := value.toNat_lt
    omega)

/-- The number whose binary64 encoding is `bits`; none for an infinity or no number. -/
def ofBits (bits : Nat) : Option Number :=
  let negative := decide (bits / Nat.pow 2 63 % 2 = 1)
  let exponent := bits / Nat.pow 2 52 % Nat.pow 2 11
  let fraction := bits % Nat.pow 2 52
  if exponent = 0 then (Magnitude.ofFields fraction 0).map (.float negative)
  else (Magnitude.ofFields (Nat.pow 2 52 + fraction) (exponent - 1)).map (.float negative)

/-- Equality of values within a kind: the two zeros among the doubles are equal. -/
def equal : Number → Number → Bool
  | .integer a _, .integer b _ => a = b
  | .float s a, .float t b => a = b && (s = t || a.isZero)
  | _, _ => false

/-- Doubles from `10 ^ -5` up to, not including, `10 ^ 16` are written without an exponent. -/
def isPositional (exponent : Int) : Bool := -5 ≤ exponent && exponent < 16

/-- The text of a positive double: without an exponent it has at least one digit after the point,
with one it has a point only if there is more than one digit. -/
def decimalText (d : Decimal) : List Char :=
  let digits := Nat.toDigits 10 d.digits
  let exponent := d.exponent + digits.length - 1
  if isPositional exponent then
    if exponent < 0 then
      ['0', '.'] ++ List.replicate (-exponent - 1).toNat '0' ++ digits
    else
      let whole := exponent.toNat + 1
      if digits.length ≤ whole then
        digits ++ List.replicate (whole - digits.length) '0' ++ ['.', '0']
      else digits.take whole ++ ['.'] ++ digits.drop whole
  else
    let point := if digits.length = 1 then [] else ['.']
    let sign := if exponent < 0 then '-' else '+'
    digits.take 1 ++ point ++ digits.drop 1 ++ ['e', sign] ++ Nat.toDigits 10 exponent.natAbs

def magnitudeText (m : Magnitude) : List Char :=
  if m.isZero then ['0', '.', '0'] else decimalText m.shortest

def intText (value : Int) : List Char :=
  if value < 0 then '-' :: Nat.toDigits 10 value.natAbs else Nat.toDigits 10 value.natAbs

def text : Number → List Char
  | .integer value _ => intText value
  | .float negative m => if negative then '-' :: magnitudeText m else magnitudeText m

end Number

end ViewTree
