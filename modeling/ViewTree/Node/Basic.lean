import ViewTree.Number.Basic

namespace ViewTree

inductive Scalar where
  | empty
  | text (text : String)
  | number (value : Number)
  | boolean (value : Bool)
deriving DecidableEq

namespace Scalar

instance : Inhabited Scalar := ⟨empty⟩

def isEmpty : Scalar → Bool
  | .empty => true
  | _ => false

def shown? : Scalar → Option String
  | .empty => none
  | .text shown => some shown
  | .number value => some (String.ofList value.text)
  | .boolean value => some (if value then "true" else "false")

inductive Presence where
  | omitted
  | bare
  | value (text : String)
deriving DecidableEq

/-- A true attribute is written by its name alone, and one that is false or empty not at all. -/
def presence : Scalar → Presence
  | .empty => .omitted
  | .boolean false => .omitted
  | .boolean true => .bare
  | .text shown => .value shown
  | .number value => .value (String.ofList value.text)

def equal : Scalar → Scalar → Bool
  | .empty, .empty => true
  | .text a, .text b => a = b
  | .number a, .number b => a.equal b
  | .boolean a, .boolean b => a = b
  | _, _ => false

end Scalar

/-- An element without its children. The index is its position in the enclosing list, for an item of a
list alone. -/
structure Head where
  tag : String
  attributes : List (String × Scalar)
  text : Scalar
  index : Option UInt64
deriving DecidableEq

namespace Head

def ofTag (tag : String) : Head := ⟨tag, [], .empty, none⟩

def attribute? (head : Head) (name : String) : Option Scalar :=
  (head.attributes.find? fun (other, _) => other = name).map Prod.snd

def equalAttributes : List (String × Scalar) → List (String × Scalar) → Bool
  | [], [] => true
  | (n, a) :: as, (m, b) :: bs => n = m && a.equal b && equalAttributes as bs
  | _, _ => false

def equal (a b : Head) : Bool :=
  a.tag = b.tag && equalAttributes a.attributes b.attributes && a.text.equal b.text &&
    a.index = b.index

end Head

inductive Node where
  | element (head : Head) (children : List Node)
  | fragment (items : List Node)
  | empty

namespace Node

instance : Inhabited Node := ⟨empty⟩

mutual

def isEmpty : Node → Bool
  | .element .. => false
  | .fragment items => allEmpty items
  | .empty => true

def allEmpty : List Node → Bool
  | [] => true
  | item :: items => isEmpty item && allEmpty items

end

def head? : Node → Option Head
  | .element head _ => some head
  | _ => none

def tag? (node : Node) : Option String := node.head?.map Head.tag

def text? (node : Node) : Option String := node.head?.bind fun head => head.text.shown?

def children : Node → List Node
  | .element _ children => children
  | .fragment items => items
  | .empty => []

mutual

/-- The elements that a node stands for in the place where it stands. -/
def nodes : Node → List Node
  | .element head children => [.element head children]
  | .fragment items => nodesOf items
  | .empty => []

def nodesOf : List Node → List Node
  | [] => []
  | item :: items => nodes item ++ nodesOf items

end

mutual

theorem head?_isSome_of_mem_nodes (node : Node) : ∀ n ∈ node.nodes, n.head?.isSome := by
  cases node with
  | element head children => simp [nodes, head?]
  | fragment items => exact head?_isSome_of_mem_nodesOf items
  | empty => simp [nodes]

theorem head?_isSome_of_mem_nodesOf (items : List Node) : ∀ n ∈ nodesOf items, n.head?.isSome := by
  cases items with
  | nil => simp [nodesOf]
  | cons item items =>
    intro n member
    rcases List.mem_append.1 member with member | member
    · exact head?_isSome_of_mem_nodes item n member
    · exact head?_isSome_of_mem_nodesOf items n member

end

mutual

theorem isEmpty_iff (node : Node) : node.isEmpty = true ↔ node.nodes = [] := by
  cases node with
  | element head children => simp [isEmpty, nodes]
  | fragment items => exact allEmpty_iff items
  | empty => simp [isEmpty, nodes]

theorem allEmpty_iff (items : List Node) : allEmpty items = true ↔ nodesOf items = [] := by
  cases items with
  | nil => simp [allEmpty, nodesOf]
  | cons item items => simp [allEmpty, nodesOf, isEmpty_iff item, allEmpty_iff items]

end

mutual

def equal : Node → Node → Bool
  | .element a as, .element b bs => a.equal b && equalItems as bs
  | .fragment as, .fragment bs => equalItems as bs
  | .empty, .empty => true
  | _, _ => false

def equalItems : List Node → List Node → Bool
  | [], [] => true
  | a :: as, b :: bs => equal a b && equalItems as bs
  | _, _ => false

end

end Node

end ViewTree
