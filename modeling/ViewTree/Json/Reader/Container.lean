import ViewTree.Json.Reader.Scanner

namespace ViewTree.Json.Reader

/-- Goes on to the next item of a list: whether there is one, and the text from it or from the closing
bracket on. -/
def nextItem (first : Bool) : Reader Bool := fun text =>
  match skipSpace text with
  | [] => .error (Flaw.endInList.on [])
  | ']' :: text => .ok (false, ']' :: text)
  | c :: text =>
    if first then .ok (true, c :: text)
    else if c = ',' then
      match skipSpace text with
      | [] => .error (Flaw.endInValue.on [])
      | ']' :: text => .error (Flaw.trailingComma.on (']' :: text))
      | text => .ok (true, text)
    else .error (Flaw.expectedListComma.on (c :: text))

def key : Reader String
  | '"' :: text => characters text
  | text => .error (Flaw.keyNotString.on text)

/-- Goes on to the next key of an object and reads it; there is none before the closing bracket, which
stays in the text. -/
def nextKey (first : Bool) : Reader (Option String) := fun text =>
  match skipSpace text with
  | [] => .error (Flaw.endInObject.on [])
  | '}' :: text => .ok (none, '}' :: text)
  | c :: text =>
    if first then do
      let (name, text) ← key (c :: text)
      .ok (some name, text)
    else if c = ',' then
      match skipSpace text with
      | [] => .error (Flaw.endInValue.on [])
      | '}' :: text => .error (Flaw.trailingComma.on ('}' :: text))
      | text => do
        let (name, text) ← key text
        .ok (some name, text)
    else .error (Flaw.expectedObjectComma.on (c :: text))

def colon (text : List Char) : Except Fault (List Char) :=
  match skipSpace text with
  | [] => .error (Flaw.endInObject.on [])
  | ':' :: text => .ok text
  | text => .error (Flaw.expectedColon.on text)

/-- Reads the items of a list up to its closing bracket. Each takes at least one character, so there are
at most as many as `bound`, the text itself, has. -/
def itemsWithin (item : Reader α) : (bound : List Char) → (first : Bool) → Reader (List α)
  | [], _, _ => .error (Flaw.endInList.on [])
  | _ :: bound, first, text => do
    match ← nextItem first text with
    | (false, text) => .ok ([], text)
    | (true, text) => do
      let (value, text) ← item text
      let (values, text) ← itemsWithin item bound false text
      .ok (value :: values, text)

def items (item : Reader α) : Reader (List α) := fun text => itemsWithin item text true text

/-- Reads the members of an object up to its closing bracket, each by `member`, which is given what was
read before, the key and the text after the key. -/
def membersWithin (member : α → String → Reader α) :
    (bound : List Char) → (first : Bool) → α → Reader α
  | [], _, _, _ => .error (Flaw.endInObject.on [])
  | _ :: bound, first, state, text => do
    match ← nextKey first text with
    | (none, text) => .ok (state, text)
    | (some name, text) => do
      let (state, text) ← member state name text
      membersWithin member bound false state text

def members (member : α → String → Reader α) (start : α) : Reader α := fun text =>
  membersWithin member text true start text

def endOfList (text : List Char) : Except Fault (List Char) :=
  match skipSpace text with
  | [] => .error (Flaw.endInList.on [])
  | ']' :: text => .ok text
  | ',' :: text =>
    match skipSpace text with
    | ']' :: text => .error (Flaw.trailingComma.on (']' :: text))
    | text => .error (Flaw.trailingCharacters.on text)
  | text => .error (Flaw.trailingCharacters.on text)

def endOfObject (text : List Char) : Except Fault (List Char) :=
  match skipSpace text with
  | [] => .error (Flaw.endInObject.on [])
  | '}' :: text => .ok text
  | ',' :: text => .error (Flaw.trailingComma.on (',' :: text))
  | text => .error (Flaw.trailingCharacters.on text)

/-- The text after the end of a list, so far as it is there. -/
def pastList (text : List Char) : List Char :=
  match skipSpace text with
  | ']' :: text => text
  | ',' :: text => skipSpace text
  | text => text

def pastObject (text : List Char) : List Char :=
  match skipSpace text with
  | '}' :: text => text
  | text => text

/-- Gives a fault without a place that of the end of the list or object it arose in. -/
def settle (past : List Char → List Char) : Fault → Fault
  | .pending cause text => cause.before (past text)
  | fault => fault

def insideList (content : Reader α) : Reader α := fun text =>
  match content (text.drop 1) with
  | .error fault => .error (settle pastList fault)
  | .ok (value, text) => do .ok (value, ← endOfList text)

def insideObject (content : Reader α) : Reader α := fun text =>
  match content (text.drop 1) with
  | .error fault => .error (settle pastObject fault)
  | .ok (value, text) => do .ok (value, ← endOfObject text)

def open? (inside : Option (Reader α)) : Reader α := fun text =>
  match inside with
  | some reader => reader text
  | none => .error (Flaw.tooDeep.on text)

def whole (reader : Reader α) (text : List Char) : Except Error α :=
  match reader text with
  | .error fault => .error (fault.error text)
  | .ok (value, rest) =>
    match skipSpace rest with
    | [] => .ok value
    | rest => .error ((Flaw.trailingCharacters.on rest).error text)

end ViewTree.Json.Reader
