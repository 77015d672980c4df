import Mathlib.Data.List.Basic
import ViewTree.CommandLine.Run
import ViewTree.Proofs.Json.Unambiguous

namespace ViewTree

theorem Number.ofUInt64_injective : Function.Injective Number.ofUInt64 := by
  intro word word' same
  injection same with same
  exact UInt64.toNat_inj.1 (Int.ofNat_inj.1 same)

theorem Scalar.toJson_injective : Function.Injective Scalar.toJson := by
  intro scalar other same
  cases scalar <;> cases other <;> simp_all [toJson]

namespace Node

theorem attributeToJson_injective : Function.Injective attributeToJson := by
  rintro ⟨name, value⟩ ⟨name', value'⟩ same
  simp only [attributeToJson, Json.list.injEq, List.cons.injEq, Json.string.injEq, and_true] at same
  obtain ⟨rfl, values⟩ := same
  rw [Scalar.toJson_injective values]

def indexMembers (index : Option UInt64) : List (String × Json) :=
  index.toList.map fun index => ("index", .number (.ofUInt64 index))

theorem indexMembers_injective : Function.Injective indexMembers := by
  intro index index' same
  cases index with
  | none =>
    cases index' with
    | none => rfl
    | some => cases same
  | some index =>
    cases index' with
    | none => cases same
    | some index' =>
      simp only [indexMembers, Option.toList_some, List.map_cons, List.map_nil, List.cons.injEq, Prod.mk.injEq,
        Json.number.injEq, true_and, and_true] at same
      rw [Number.ofUInt64_injective same]

mutual

theorem eq_of_toJson (node other : Node) (same : node.toJson = other.toJson) : node = other := by
  cases node with
  | element head children =>
    cases other with
    | element head' children' =>
      obtain ⟨tag, attributes, text, index⟩ := head
      obtain ⟨tag', attributes', text', index'⟩ := head'
      simp only [toJson, Json.object.injEq, List.cons_append, List.nil_append, List.cons.injEq, Prod.mk.injEq,
        Json.string.injEq, Json.list.injEq, true_and, and_true] at same
      obtain ⟨rfl, attributesSame, childrenSame, textSame, indexSame⟩ := same
      obtain rfl := List.map_injective_iff.2 attributeToJson_injective attributesSame
      obtain rfl := Scalar.toJson_injective textSame
      obtain rfl := indexMembers_injective indexSame
      rw [eq_of_toJsonItems children children' childrenSame]
    | fragment items => simp [toJson] at same
    | empty => cases same
  | fragment items =>
    cases other with
    | element head children => simp [toJson] at same
    | fragment others =>
      simp only [toJson, Json.object.injEq, List.cons.injEq, Prod.mk.injEq, Json.list.injEq, true_and, and_true] at same
      rw [eq_of_toJsonItems items others same]
    | empty => cases same
  | empty =>
    cases other with
    | empty => rfl
    | _ => cases same

theorem eq_of_toJsonItems (items others : List Node) (same : toJsonItems items = toJsonItems others) :
    items = others := by
  cases items with
  | nil =>
    cases others with
    | nil => rfl
    | cons => cases same
  | cons item items =>
    cases others with
    | nil => cases same
    | cons other others =>
      obtain ⟨first, later⟩ := List.cons.inj same
      rw [eq_of_toJson item other first, eq_of_toJsonItems items others later]

end

theorem toJson_injective : Function.Injective toJson := eq_of_toJson

end Node

namespace CommandLine

/-- Every node is written as a tree, and nodes are the same if and only if their texts are: the text tells elements,
fragments and empty nodes apart, and of an element its tag, its attributes in their order, its children, the kind and
the content of its text, and its index or that it has none. -/
theorem writeNode_tree_inj (node other : Node) :
    ∃ text text', writeNode .tree node = .ok text ∧ writeNode .tree other = .ok text' ∧
      (text = text' ↔ node = other) := by
  refine ⟨_, _, rfl, rfl, ?_, ?_⟩
  · intro same
    exact Node.toJson_injective (Json.indentedText_injective same)
  · rintro rfl
    rfl

end CommandLine

end ViewTree
