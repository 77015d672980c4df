import ViewTree.View.Basic
import ViewTree.Json.Access

namespace ViewTree

namespace Reference

inductive Kind where
  | field
  | data

def Kind.name : Kind → String
  | .field => "field"
  | .data => "data"

def Kind.all : List Kind := [.field, .data]

def bare : Kind → Except Json.Cause Reference
  | .field => .error (.bareVariant "newtype variant")
  | .data => .ok .data

def ofJson : Json → Except Json.Cause Reference
  | .string name => do bare (← Json.variant Kind.all Kind.name name)
  | .object [(name, content)] => do
    match ← Json.variant Kind.all Kind.name name with
    | .field => .ok (.field (← content.asString))
    | .data => do
      content.asNull
      .ok .data
  | .object _ => .error .notOneKey
  | value => value.mismatch "string or map"

end Reference

namespace Value

inductive Kind where
  | reference
  | empty
  | constant

def Kind.name : Kind → String
  | .reference => "reference"
  | .empty => "empty"
  | .constant => "constant"

def Kind.all : List Kind := [.reference, .empty, .constant]

def bare : Kind → Except Json.Cause Value
  | .empty => .ok .empty
  | _ => .error (.bareVariant "newtype variant")

def ofJson : Json → Except Json.Cause Value
  | .string name => do bare (← Json.variant Kind.all Kind.name name)
  | .object [(name, content)] => do
    match ← Json.variant Kind.all Kind.name name with
    | .reference => .ok (.reference (← Reference.ofJson content))
    | .empty => do
      content.asNull
      .ok .empty
    | .constant => .ok (.constant (← content.asString))
  | .object _ => .error .notOneKey
  | value => value.mismatch "string or map"

end Value

namespace View

def bare : Kind → Except Json.Cause View
  | .element | .list => .error (.bareVariant "struct variant")
  | .sequence => .error (.bareVariant "newtype variant")
  | .hole => .ok .hole

/-- The fields of an element that were met so far. -/
structure ElementParts where
  tag : Option String
  attributes : Option (List (String × Value))
  text : Option Value

def ElementParts.none : ElementParts := ⟨.none, .none, .none⟩

def ElementParts.view (parts : ElementParts) : Except Json.Cause View := do
  .ok (.element (← Json.required "tag" parts.tag) (parts.attributes.getD []) (parts.text.getD .empty))

structure ListParts where
  numbered : Option Bool
  source : Option Reference
  item : Option View

def ListParts.none : ListParts := ⟨.none, .none, .none⟩

def ListParts.view (parts : ListParts) : Except Json.Cause View := do
  .ok (.list (parts.numbered.getD false) (← Json.required "inner_data" parts.source)
    (← Json.required "item_code" parts.item))

def attributeOfJson : Json → Except Json.Cause (String × Value)
  | .list [] => .error (.wrongLength 0 "a tuple of size 2")
  | .list [name] => do
    let _ ← name.asString
    .error (.wrongLength 1 "a tuple of size 2")
  | .list (name :: value :: more) => do
    let name ← name.asString
    let value ← Value.ofJson value
    if more.isEmpty then .ok (name, value)
    else .error (.wrongLength (more.length + 2) "fewer elements in array")
  | value => value.mismatch "a tuple of size 2"

def attributesOfJson : Json → Except Json.Cause (List (String × Value))
  | .list items => items.mapM attributeOfJson
  | value => value.mismatch "a sequence"

def elementParts : List (String × Json) → ElementParts → Except Json.Cause ElementParts
  | [], parts => .ok parts
  | (name, value) :: members, parts => do
    if name = "tag" then elementParts members { parts with tag := ← value.asString }
    else if name = "attrs" then
      elementParts members { parts with attributes := ← attributesOfJson value }
    else if name = "inner_text" then
      elementParts members { parts with text := ← Value.ofJson value }
    else elementParts members parts

def elementOfJson : Json → Except Json.Cause View
  | .object members => do (← elementParts members .none).view
  | value => value.mismatch "struct variant"

mutual

def ofJson : Json → Except Json.Cause View
  | .string name => do bare (← Json.variant Kind.all Kind.name name)
  | .object [(name, content)] => do
    match ← Json.variant Kind.all Kind.name name with
    | .element => elementOfJson content
    | .list =>
      match content with
      | .object members => do (← listParts members .none).view
      | value => value.mismatch "struct variant"
    | .sequence =>
      match content with
      | .list items => do .ok (.sequence (← ofJsonItems items))
      | value => value.mismatch "a sequence"
    | .hole => do
      content.asNull
      .ok .hole
  | .object _ => .error .notOneKey
  | value => value.mismatch "string or map"

def ofJsonItems : List Json → Except Json.Cause (List View)
  | [] => .ok []
  | item :: items => do
    let view ← ofJson item
    let views ← ofJsonItems items
    .ok (view :: views)

def listParts : List (String × Json) → ListParts → Except Json.Cause ListParts
  | [], parts => .ok parts
  | (name, value) :: members, parts => do
    if name = "numbered" then listParts members { parts with numbered := ← value.asBoolean }
    else if name = "inner_data" then
      listParts members { parts with source := ← Reference.ofJson value }
    else if name = "item_code" then
      listParts members { parts with item := ← ofJson value }
    else listParts members parts

end

end View

namespace Template

structure Parts where
  version : Option UInt32
  code : Option View

def parts : List (String × Json) → Parts → Except Json.Cause Parts
  | [], found => .ok found
  | (name, value) :: members, found => do
    if name = "version" then parts members { found with version := ← value.asWord }
    else if name = "code" then parts members { found with code := ← View.ofJson value }
    else parts members found

/-- A template out of an object of its fields, or out of a list of them in order. -/
def ofJson : Json → Except Json.Cause Template
  | .object members => do
    let found ← parts members ⟨none, none⟩
    .ok ⟨← Json.required "version" found.version, ← Json.required "code" found.code⟩
  | .list [] => .error (.wrongLength 0 "struct Template with 2 elements")
  | .list [version] => do
    let _ ← version.asWord
    .error (.wrongLength 1 "struct Template with 2 elements")
  | .list (version :: code :: more) => do
    let version ← version.asWord
    let code ← View.ofJson code
    if more.isEmpty then .ok ⟨version, code⟩
    else .error (.wrongLength (more.length + 2) "fewer elements in array")
  | value => value.mismatch "struct Template"

end Template

end ViewTree
