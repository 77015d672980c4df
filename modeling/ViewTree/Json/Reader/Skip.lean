import ViewTree.Json.Reader.Container

namespace ViewTree.Json.Reader

def skipStringWithin : (bound : List Char) → List Char → Except Fault (List Char)
  | [], _ => .error (Flaw.endInString.on [])
  | _ :: _, [] => .error (Flaw.endInString.on [])
  | _ :: bound, c :: text =>
    if c = '"' then .ok text
    else if c = '\\' then
      match text with
      | [] => .error (Flaw.endInString.on [])
      | 'u' :: text => do
        let (_, text) ← hexUnit text
        skipStringWithin bound text
      | c :: text =>
        if c ∈ ['"', '\\', '/', 'b', 'f', 'n', 'r', 't'] then skipStringWithin bound text
        else .error (Flaw.invalidEscape.on (c :: text))
    else if c.toNat < 0x20 then
      .error (Cause.before (.malformed .controlCharacter) (c :: text))
    else skipStringWithin bound text

def skipString (text : List Char) : Except Fault (List Char) := skipStringWithin text text

inductive Bracket where
  | list
  | object
deriving DecidableEq

/-- Whether a value comes next or has just been passed over. -/
inductive Stage where
  | value
  | after

def skipKey (bracket : Bracket) (text : List Char) : Except Fault (List Char) :=
  match bracket with
  | .list => .ok text
  | .object =>
    match skipSpace text with
    | [] => .error (Flaw.endInObject.on [])
    | '"' :: text => do colon (← skipString text)
    | text => .error (Flaw.keyNotString.on text)

def skipOpening (bracket : Bracket) (text : List Char) : Except Fault (Bool × List Char) :=
  match bracket, skipSpace text with
  | .list, [] => .error (Flaw.endInList.on [])
  | .object, [] => .error (Flaw.endInObject.on [])
  | .list, ']' :: text => .ok (true, text)
  | .object, '}' :: text => .ok (true, text)
  | bracket, text => do .ok (false, ← skipKey bracket text)

def skipPart (bracket : Bracket) (text : List Char) : Except Fault (Bool × List Char) :=
  match bracket, skipSpace text with
  | .list, [] => .error (Flaw.endInList.on [])
  | .object, [] => .error (Flaw.endInObject.on [])
  | .list, ']' :: text => .ok (true, text)
  | .object, '}' :: text => .ok (true, text)
  | bracket, ',' :: text => do .ok (false, ← skipKey bracket text)
  | .list, text => .error (Flaw.expectedListComma.on text)
  | .object, text => .error (Flaw.expectedObjectComma.on text)

/-- Passes over a scalar, or over an opening bracket, which is returned. -/
def skipToken (text : List Char) : Except Fault (Option Bracket × List Char) :=
  match skipSpace text with
  | [] => .error (Flaw.endInValue.on [])
  | 'n' :: text => do .ok (none, ← word ['u', 'l', 'l'] text)
  | 't' :: text => do .ok (none, ← word ['r', 'u', 'e'] text)
  | 'f' :: text => do .ok (none, ← word ['a', 'l', 's', 'e'] text)
  | '"' :: text => do .ok (none, ← skipString text)
  | '[' :: text => .ok (some .list, text)
  | '{' :: text => .ok (some .object, text)
  | c :: text =>
    if c = '-' ∨ c.isDigit then do
      let (_, text) ← numeral .invalidNumber (c :: text)
      .ok (none, text)
    else .error (Flaw.expectedValue.on (c :: text))

/-- Passes over a value, or over the rest of one, inside the given brackets, the innermost first. Every
step but the last takes at least one character, so the text itself bounds their number. -/
def skipWithin : (bound : List Char) → Stage → List Bracket → List Char → Except Fault (List Char)
  | _, .after, [], text => .ok text
  | [], .value, _, _ => .error (Flaw.endInValue.on [])
  | [], .after, .list :: _, _ => .error (Flaw.endInList.on [])
  | [], .after, .object :: _, _ => .error (Flaw.endInObject.on [])
  | _ :: bound, .after, bracket :: brackets, text => do
    match ← skipPart bracket text with
    | (true, text) => skipWithin bound .after brackets text
    | (false, text) => skipWithin bound .value (bracket :: brackets) text
  | _ :: bound, .value, brackets, text => do
    match ← skipToken text with
    | (none, text) => skipWithin bound .after brackets text
    | (some bracket, text) => do
      match ← skipOpening bracket text with
      | (true, text) => skipWithin bound .after brackets text
      | (false, text) => skipWithin bound .value (bracket :: brackets) text

def skip (text : List Char) : Except Fault (List Char) := skipWithin text .value [] text

end ViewTree.Json.Reader
