import ViewTree.Rendering.Scope

namespace ViewTree.Text

/-- The characters with the property `White_Space`. -/
def isBlank (c : Char) : Bool :=
  let n := c.toNat
  (0x09 ≤ n && n ≤ 0x0D) || n = 0x20 || n = 0x85 || n = 0xA0 || n = 0x1680 ||
    (0x2000 ≤ n && n ≤ 0x200A) || n = 0x2028 || n = 0x2029 || n = 0x202F || n = 0x205F || n = 0x3000

/-- The characters of the category `Cc`. -/
def isControl (c : Char) : Bool :=
  c.toNat < 0x20 || (0x7F ≤ c.toNat && c.toNat ≤ 0x9F)

end ViewTree.Text

namespace ViewTree

/-- How markup is written: the attribute that carries the position of an item, if one is to do so, and
whether texts and values are escaped. -/
structure MarkupOptions where
  indexAttribute : Option String
  escape : Bool
deriving DecidableEq

namespace Markup

def isNameCharacter (c : Char) : Bool :=
  !(Text.isBlank c || Text.isControl c || c ∈ ['"', '\'', '<', '>', '/', '='])

def isName (name : String) : Bool := name != "" && name.toList.all isNameCharacter

def checkName (name : String) : Except RenderError Unit :=
  if isName name then .ok () else .error (.illegalName name)

def defaultOptions : MarkupOptions := ⟨some "data-index", true⟩

def voidTags : List String := ["br", "hr", "img", "input", "link", "meta"]

def textCharacter (c : Char) : List Char :=
  if c = '&' then ['&', 'a', 'm', 'p', ';']
  else if c = '<' then ['&', 'l', 't', ';']
  else if c = '>' then ['&', 'g', 't', ';']
  else [c]

def valueCharacter (c : Char) : List Char :=
  if c = '"' then ['&', 'q', 'u', 'o', 't', ';'] else textCharacter c

def writtenText (escape : Bool) (text : String) : List Char :=
  if escape then text.toList.flatMap textCharacter else text.toList

def writtenValue (escape : Bool) (text : String) : List Char :=
  if escape then text.toList.flatMap valueCharacter else text.toList

def valued (name : String) (value : List Char) : List Char :=
  ' ' :: (name.toList ++ '=' :: '"' :: (value ++ ['"']))

def indexAttribute? (options : MarkupOptions) (head : Head) : Option (String × UInt64) := do
  let name ← options.indexAttribute
  let index ← head.index
  some (name, index)

def presence (escape : Bool) (name : String) : Scalar.Presence → List Char
  | .omitted => []
  | .bare => ' ' :: name.toList
  | .value text => valued name (writtenValue escape text)

/-- Writes the declared attributes. One named like the written index gives way to it. -/
def attributes (escape : Bool) (index : Option String) :
    List (String × Scalar) → Except RenderError (List Char)
  | [] => .ok []
  | (name, value) :: rest => do
    checkName name
    let written := if index = some name then [] else presence escape name value.presence
    .ok (written ++ (← attributes escape index rest))

def opening (options : MarkupOptions) (head : Head) : Except RenderError (List Char) := do
  checkName head.tag
  let index := indexAttribute? options head
  let written := match index with
    | some (name, position) => valued name (Nat.toDigits 10 position.toNat)
    | none => []
  let declared ← attributes options.escape (index.map Prod.fst) head.attributes
  .ok ('<' :: (head.tag.toList ++ written ++ declared))

def textOf (escape : Bool) (text : Scalar) : List Char :=
  match text.shown? with
  | some text => writtenText escape text
  | none => []

mutual

def node (options : MarkupOptions) : Node → Except RenderError (List Char)
  | .element head children => do
    let start ← opening options head
    if head.tag ∈ voidTags then .ok (start ++ [' ', '/', '>'])
    else do
      let content ← nodes options children
      .ok (start ++ '>' :: (textOf options.escape head.text ++ content ++
        '<' :: '/' :: (head.tag.toList ++ ['>'])))
  | .fragment items => nodes options items
  | .empty => .ok []

def nodes (options : MarkupOptions) : List Node → Except RenderError (List Char)
  | [] => .ok []
  | item :: items => do
    let first ← node options item
    let rest ← nodes options items
    .ok (first ++ rest)

end

/-- Writes a node as markup. The name of the index attribute is looked at even if no element has an
index. -/
def write (options : MarkupOptions) (root : Node) : Except RenderError String := do
  match options.indexAttribute with
  | some name => checkName name
  | none => .ok ()
  .ok (String.ofList (← node options root))

end Markup

def Node.markup (root : Node) : Except RenderError String := Markup.write Markup.defaultOptions root

end ViewTree
