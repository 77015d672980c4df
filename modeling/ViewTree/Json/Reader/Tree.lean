import ViewTree.Json.Reader.Container

namespace ViewTree.Json

namespace Reader

def member (value : Reader Json) (before : List (String × Json)) (name : String) :
    Reader (List (String × Json)) := fun text => do
  let (value, text) ← value (← colon text)
  .ok ((name, value) :: before, text)

/-- Reads a value in which `depth` more brackets may be open at a time. -/
def value : (depth : Nat) → Reader Json
  | depth, text => do
    match ← startOfValue text with
    | (.null, text) => .ok (.null, text)
    | (.boolean value, text) => .ok (.boolean value, text)
    | (.number value, text) => .ok (.number value, text)
    | (.string value, text) => .ok (.string value, text)
    | (.list, text) =>
      match depth with
      | 0 => .error (Flaw.tooDeep.on text)
      | depth + 1 => do
        let (values, text) ← insideList (items (value depth)) text
        .ok (.list values, text)
    | (.object, text) =>
      match depth with
      | 0 => .error (Flaw.tooDeep.on text)
      | depth + 1 => do
        let (reversed, text) ← insideObject (members (member (value depth)) []) text
        .ok (.object reversed.reverse, text)

end Reader

/-- Lists and objects nest at most this deep in a text that is read. -/
def depthLimit : Nat := 127

def parse (text : String) : Except Error Json := Reader.whole (Reader.value depthLimit) text.toList

end ViewTree.Json
