import ViewTree.Json.Access
import ViewTree.Json.Reader.Skip

namespace ViewTree.Json

namespace Reader

def mismatch (found : Token) (wanted : String) (text : List Char) : Fault :=
  (Cause.mismatch found wanted).before text

def string : Reader String := fun text => do
  match ← startOfValue text with
  | (.string value, text) => .ok (value, text)
  | (found, text) => .error (mismatch found "a string" text)

def boolean : Reader Bool := fun text => do
  match ← startOfValue text with
  | (.boolean value, text) => .ok (value, text)
  | (found, text) => .error (mismatch found "a boolean" text)

def null : Reader Unit := fun text => do
  match ← startOfValue text with
  | (.null, text) => .ok ((), text)
  | (found, text) => .error (mismatch found "unit" text)

def list (wanted : String) (content : Option (Reader α)) : Reader α := fun text => do
  match ← startOfValue text with
  | (.list, text) => open? (content.map insideList) text
  | (found, text) => .error (mismatch found wanted text)

def fields (wanted : String) (listed named : Option (Reader α)) : Reader α := fun text => do
  match ← startOfValue text with
  | (.list, text) => open? (listed.map insideList) text
  | (.object, text) => open? (named.map insideObject) text
  | (found, text) => .error (mismatch found wanted text)

def nextItem? (first : Bool) (item : Reader α) : Reader (Option α) := fun text => do
  match ← nextItem first text with
  | (false, text) => .ok (none, text)
  | (true, text) => do
    let (value, text) ← item text
    .ok (some value, text)

def requiredItem (length : Nat) (wanted : String) (item : Reader α) : Reader α := fun text => do
  match ← nextItem? (length = 0) item text with
  | (some value, text) => .ok (value, text)
  | (none, text) => .error (.pending (.wrongLength length wanted) text)

/-- Reads the value of a field that may be given once. -/
def field (name : String) (before : Option α) (value : Reader α) : Reader α := fun text => do
  if before.isSome then .error (.pending (.repeatedField name) text)
  value (← colon text)

def unknownField (text : List Char) : Except Fault (List Char) := do skip (← colon text)

def variantName (all : List ν) (name : ν → String) : Reader ν := fun text => do
  let (written, text) ← characters text
  match variant all name written with
  | .ok v => .ok (v, text)
  | .error cause => .error (cause.before text)

def onlyKey (text : List Char) : Except Fault (List Char) :=
  match skipSpace text with
  | [] => .error (Flaw.endInObject.on [])
  | '"' :: text => .ok text
  | '}' :: text => .error (Flaw.expectedValue.on ('}' :: text))
  | text => .error (Flaw.keyNotString.on text)

def endOfVariant (text : List Char) : Except Fault (List Char) :=
  match skipSpace text with
  | [] => .error (Flaw.endInObject.on [])
  | '}' :: text => .ok text
  | text => .error (Cause.before (.malformed .expectedValue) text)

/-- Reads a variant: `bare` gives the value for a name alone, `content` reads what stands beside a name
that is a key, if a bracket may be opened. -/
def tagged (all : List ν) (name : ν → String) (bare : ν → Except Cause α)
    (content : Option (ν → Reader α)) : Reader α := fun text =>
  match skipSpace text with
  | [] => .error (Flaw.endInValue.on [])
  | '"' :: text => do
    let (v, text) ← variantName all name text
    match bare v with
    | .ok value => .ok (value, text)
    | .error cause => .error (.pending cause text)
  | '{' :: text =>
    match content with
    | none => .error (Flaw.tooDeep.on ('{' :: text))
    | some content => do
      let (v, text) ← variantName all name (← onlyKey text)
      let (value, text) ← content v (← colon text)
      .ok (value, ← endOfVariant text)
  | text => .error (Flaw.expectedValue.on text)

/-- Reads a number. A list or an object in its place is a fault noticed behind its opening bracket. -/
def numberAlone : Reader Number := fun text => do
  let wanted := "a JSON number"
  match ← startOfValue text with
  | (.number value, text) => .ok (value, text)
  | (.list, text) => .error (settle pastList (.pending (.mismatch .list wanted) (text.drop 1)))
  | (.object, text) => .error (settle pastObject (.pending (.mismatch .object wanted) (text.drop 1)))
  | (found, text) => .error (mismatch found wanted text)

end Reader

end ViewTree.Json

namespace ViewTree

def Number.parse (text : String) : Except Json.Error Number :=
  Json.Reader.whole Json.Reader.numberAlone text.toList

end ViewTree
