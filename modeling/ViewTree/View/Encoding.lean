import ViewTree.View.Basic
import ViewTree.Json.Printer

namespace ViewTree

def Reference.toJson : Reference → Json
  | .field name => .object [("field", .string name)]
  | .data => .string "data"

def Value.toJson : Value → Json
  | .reference place => .object [("reference", place.toJson)]
  | .empty => .string "empty"
  | .constant text => .object [("constant", .string text)]

namespace View

def attributeToJson : String × Value → Json
  | (name, value) => .list [.string name, value.toJson]

mutual

def toJson : View → Json
  | .element tag attributes text =>
    .object [("html_element", .object [
      ("tag", .string tag),
      ("attrs", .list (attributes.map attributeToJson)),
      ("inner_text", text.toJson)])]
  | .list numbered source item =>
    .object [("html_list", .object [
      ("numbered", .boolean numbered),
      ("inner_data", source.toJson),
      ("item_code", toJson item)])]
  | .sequence items => .object [("sequence", .list (toJsonItems items))]
  | .hole => .string "hole"

def toJsonItems : List View → List Json
  | [] => []
  | item :: items => toJson item :: toJsonItems items

end

end View

namespace Template

def toJson (template : Template) : Json :=
  .object [
    ("version", .number (.ofUInt64 template.version.toUInt64)),
    ("code", template.code.toJson)]

def text (template : Template) : String := template.toJson.indentedText

end Template

end ViewTree
