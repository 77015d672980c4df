import ViewTree.Json.Basic

namespace ViewTree.Json

def escape (c : Char) : List Char :=
  if c = '"' then ['\\', '"']
  else if c = '\\' then ['\\', '\\']
  else if c = '\x08' then ['\\', 'b']
  else if c = '\x0c' then ['\\', 'f']
  else if c = '\n' then ['\\', 'n']
  else if c = '\r' then ['\\', 'r']
  else if c = '\t' then ['\\', 't']
  else if c.toNat < 0x20 then
    ['\\', 'u', '0', '0', Nat.digitChar (c.toNat / 16), Nat.digitChar (c.toNat % 16)]
  else [c]

def quote (text : String) : List Char :=
  '"' :: (text.toList.flatMap escape ++ ['"'])

def booleanText (value : Bool) : List Char :=
  if value then ['t', 'r', 'u', 'e'] else ['f', 'a', 'l', 's', 'e']

mutual

def compact : Json → List Char
  | .null => ['n', 'u', 'l', 'l']
  | .boolean value => booleanText value
  | .number value => value.text
  | .string text => quote text
  | .list [] => ['[', ']']
  | .list (item :: items) => '[' :: (compact item ++ compactItems items)
  | .object [] => ['{', '}']
  | .object ((key, value) :: members) =>
    '{' :: (quote key ++ ':' :: (compact value ++ compactMembers members))

def compactItems : List Json → List Char
  | [] => [']']
  | item :: items => ',' :: (compact item ++ compactItems items)

def compactMembers : List (String × Json) → List Char
  | [] => ['}']
  | (key, value) :: members =>
    ',' :: (quote key ++ ':' :: (compact value ++ compactMembers members))

end

def line (level : Nat) : List Char := '\n' :: List.replicate (2 * level) ' '

mutual

def indented (level : Nat) : Json → List Char
  | .null => ['n', 'u', 'l', 'l']
  | .boolean value => booleanText value
  | .number value => value.text
  | .string text => quote text
  | .list [] => ['[', ']']
  | .list (item :: items) =>
    '[' :: (line (level + 1) ++ indented (level + 1) item ++ indentedItems level items)
  | .object [] => ['{', '}']
  | .object ((key, value) :: members) =>
    '{' :: (line (level + 1) ++ quote key ++ ':' :: ' ' :: indented (level + 1) value ++
      indentedMembers level members)

def indentedItems (level : Nat) : List Json → List Char
  | [] => line level ++ [']']
  | item :: items =>
    ',' :: (line (level + 1) ++ indented (level + 1) item ++ indentedItems level items)

def indentedMembers (level : Nat) : List (String × Json) → List Char
  | [] => line level ++ ['}']
  | (key, value) :: members =>
    ',' :: (line (level + 1) ++ quote key ++ ':' :: ' ' :: indented (level + 1) value ++
      indentedMembers level members)

end

def compactText (value : Json) : String := String.ofList value.compact

def indentedText (value : Json) : String := String.ofList (value.indented 0)

end ViewTree.Json
