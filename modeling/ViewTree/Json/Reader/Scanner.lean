import ViewTree.Number.Numeral
import ViewTree.Json.Fault

namespace ViewTree.Json

abbrev Reader (α : Type) := List Char → Except Fault (α × List Char)

namespace Reader

def isSpace (c : Char) : Bool := c = ' ' || c = '\n' || c = '\r' || c = '\t'

def skipSpace (text : List Char) : List Char := text.dropWhile isSpace

def word : List Char → List Char → Except Fault (List Char)
  | [], text => .ok text
  | _ :: _, [] => .error (Flaw.endInValue.on [])
  | letter :: letters, c :: text =>
    if c = letter then word letters text else .error (Flaw.expectedWord.on (c :: text))

def hexValue (c : Char) : Option Nat :=
  if '0' ≤ c ∧ c ≤ '9' then some (c.toNat - '0'.toNat)
  else if 'a' ≤ c ∧ c ≤ 'f' then some (c.toNat - 'a'.toNat + 10)
  else if 'A' ≤ c ∧ c ≤ 'F' then some (c.toNat - 'A'.toNat + 10)
  else none

/-- Reads four hexadecimal digits. They are looked for in the next four bytes, all of which count as
read if they are no digits. -/
def hexUnit : Reader Nat
  | a :: b :: c :: d :: text =>
    match hexValue a, hexValue b, hexValue c, hexValue d with
    | some a, some b, some c, some d => .ok (((a * 16 + b) * 16 + c) * 16 + d, text)
    | _, _, _, _ =>
      .error (.placed (.malformed .invalidEscape) (Text.bytes (a :: b :: c :: d :: text) - 4))
  | text =>
    if Text.bytes text < 4 then .error (Flaw.endInString.on [])
    else .error (.placed (.malformed .invalidEscape) (Text.bytes text - 4))

/-- Reads what follows the escaped high half of a surrogate pair: the escaped low half. -/
def lowSurrogate (high : Nat) : Reader Char
  | [] => .error (Flaw.endInString.on [])
  | ['\\'] => .error (Flaw.endInString.on [])
  | '\\' :: 'u' :: text => do
    let (low, text) ← hexUnit text
    if 0xDC00 ≤ low ∧ low ≤ 0xDFFF then
      .ok (Char.ofNat (0x10000 + (high - 0xD800) * 0x400 + (low - 0xDC00)), text)
    else .error (Cause.before (.malformed .loneSurrogate) text)
  | '\\' :: text => .error (Flaw.endOfSurrogate.on text)
  | text => .error (Flaw.endOfSurrogate.on text)

def escapedUnit : Reader Char := fun text => do
  let (unit, text) ← hexUnit text
  if 0xDC00 ≤ unit ∧ unit ≤ 0xDFFF then .error (Cause.before (.malformed .loneSurrogate) text)
  else if 0xD800 ≤ unit ∧ unit ≤ 0xDBFF then lowSurrogate unit text
  else .ok (Char.ofNat unit, text)

def escaped : Reader Char
  | [] => .error (Flaw.endInString.on [])
  | '"' :: text => .ok ('"', text)
  | '\\' :: text => .ok ('\\', text)
  | '/' :: text => .ok ('/', text)
  | 'b' :: text => .ok ('\x08', text)
  | 'f' :: text => .ok ('\x0c', text)
  | 'n' :: text => .ok ('\n', text)
  | 'r' :: text => .ok ('\r', text)
  | 't' :: text => .ok ('\t', text)
  | 'u' :: text => escapedUnit text
  | text => .error (Flaw.invalidEscape.on text)

/-- Reads a string up to the closing quote. Each step takes at least one character, so a string has at
most as many as `bound`, the text itself. -/
def charactersWithin : (bound : List Char) → Reader (List Char)
  | [], _ => .error (Flaw.endInString.on [])
  | _ :: _, [] => .error (Flaw.endInString.on [])
  | _ :: bound, c :: text =>
    if c = '"' then .ok ([], text)
    else if c = '\\' then do
      let (c, text) ← escaped text
      let (characters, text) ← charactersWithin bound text
      .ok (c :: characters, text)
    else if c.toNat < 0x20 then .error (Flaw.controlCharacter.on (c :: text))
    else do
      let (characters, text) ← charactersWithin bound text
      .ok (c :: characters, text)

def characters : Reader String := fun text => do
  let (characters, text) ← charactersWithin text text
  .ok (.ofList characters, text)

def wholeDigits (ending : Flaw) : Reader (List Char)
  | [] => .error (ending.on [])
  | '0' :: text =>
    if (text.head?.any Char.isDigit) then .error (Flaw.invalidNumber.on text) else .ok (['0'], text)
  | c :: text =>
    if c.isDigit then .ok (c :: text.takeWhile Char.isDigit, text.dropWhile Char.isDigit)
    else .error (Flaw.invalidNumber.on (c :: text))

def fractionDigits (ending : Flaw) : Reader (List Char)
  | '.' :: text =>
    match text with
    | [] => .error (ending.on [])
    | c :: rest =>
      if c.isDigit then .ok (c :: rest.takeWhile Char.isDigit, rest.dropWhile Char.isDigit)
      else .error (Flaw.invalidNumber.on (c :: rest))
  | text => .ok ([], text)

def exponentDigits (ending : Flaw) : Reader (List Char)
  | [] => .error (ending.on [])
  | c :: text =>
    if c.isDigit then .ok (c :: text.takeWhile Char.isDigit, text.dropWhile Char.isDigit)
    else .error (Flaw.invalidNumber.on (c :: text))

def exponentPart (ending : Flaw) : Reader (Option (Bool × List Char))
  | 'e' :: text | 'E' :: text => do
    let (down, text) := match text with
      | '-' :: text => (true, text)
      | '+' :: text => (false, text)
      | text => (false, text)
    let (digits, text) ← exponentDigits ending text
    .ok (some (down, digits), text)
  | text => .ok (none, text)

def unsigned (ending : Flaw) (negative : Bool) : Reader Numeral := fun text => do
  let (whole, text) ← wholeDigits ending text
  let (fraction, text) ← fractionDigits ending text
  let (exponent, text) ← exponentPart ending text
  .ok (⟨negative, whole, fraction, exponent⟩, text)

def numeral (ending : Flaw) : Reader Numeral
  | '-' :: text => unsigned ending true text
  | text => unsigned ending false text

def number : Reader Number := fun text => do
  let (numeral, text) ← numeral .endInValue text
  match numeral.value with
  | .ok value => .ok (value, text)
  | .error unread => .error (.placed (.malformed .numberOutOfRange) (Text.bytes text + unread))

/-- Reads the token at the start of a value. An opening bracket stays in the text. -/
def startOfValue : Reader Token := fun text =>
  match skipSpace text with
  | [] => .error (Flaw.endInValue.on [])
  | 'n' :: text => do .ok (.null, ← word ['u', 'l', 'l'] text)
  | 't' :: text => do .ok (.boolean true, ← word ['r', 'u', 'e'] text)
  | 'f' :: text => do .ok (.boolean false, ← word ['a', 'l', 's', 'e'] text)
  | '"' :: text => do
    let (value, text) ← characters text
    .ok (.string value, text)
  | '[' :: text => .ok (.list, '[' :: text)
  | '{' :: text => .ok (.object, '{' :: text)
  | c :: text =>
    if c = '-' ∨ c.isDigit then do
      let (value, text) ← number (c :: text)
      .ok (.number value, text)
    else .error (Flaw.expectedValue.on (c :: text))

end Reader

end ViewTree.Json
