import ViewTree.Node.Basic
import ViewTree.Json.Printer

namespace ViewTree

def Scalar.toJson : Scalar → Json
  | .empty => .string "empty"
  | .text shown => .object [("text", .string shown)]
  | .number value => .object [("number", .number value)]
  | .boolean value => .object [("boolean", .boolean value)]

namespace Node

def attributeToJson : String × Scalar → Json
  | (name, value) => .list [.string name, value.toJson]

mutual

def toJson : Node → Json
  | .element head children =>
    .object [("element", .object ([
      ("tag", .string head.tag),
      ("attributes", .list (head.attributes.map attributeToJson)),
      ("children", .list (toJsonItems children)),
      ("text", head.text.toJson)] ++
      head.index.toList.map fun index => ("index", .number (.ofUInt64 index))))]
  | .fragment items => .object [("fragment", .list (toJsonItems items))]
  | .empty => .string "empty"

def toJsonItems : List Node → List Json
  | [] => []
  | item :: items => toJson item :: toJsonItems items

end

end Node

end ViewTree
