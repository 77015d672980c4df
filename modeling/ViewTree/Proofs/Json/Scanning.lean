import Mathlib.Data.List.TakeWhile
import ViewTree.Json.Reader.Scanner

namespace ViewTree.Json.Reader

def Blank (text : List Char) : Prop := ∀ c ∈ text, isSpace c = true

theorem blank_nil : Blank [] := fun _ member => absurd member List.not_mem_nil

theorem skipSpace_blank {blank : List Char} (spaces : Blank blank) (text : List Char) :
    skipSpace (blank ++ text) = skipSpace text :=
  List.dropWhile_append_of_pos spaces

theorem skipSpace_cons {c : Char} (dark : isSpace c = false) (text : List Char) :
    skipSpace (c :: text) = c :: text := by
  simp [skipSpace, dark]

theorem skipSpace_blank_cons {blank : List Char} (spaces : Blank blank) {c : Char}
    (dark : isSpace c = false) (text : List Char) : skipSpace (blank ++ c :: text) = c :: text := by
  rw [skipSpace_blank spaces, skipSpace_cons dark]

theorem startOfValue_blank {blank : List Char} (spaces : Blank blank) (text : List Char) :
    startOfValue (blank ++ text) = startOfValue text := by
  rw [startOfValue, startOfValue, skipSpace_blank spaces]

theorem startOfValue_list {blank : List Char} (spaces : Blank blank) (text : List Char) :
    startOfValue (blank ++ '[' :: text) = .ok (.list, '[' :: text) := by
  rw [startOfValue_blank spaces]
  rfl

theorem startOfValue_object {blank : List Char} (spaces : Blank blank) (text : List Char) :
    startOfValue (blank ++ '{' :: text) = .ok (.object, '{' :: text) := by
  rw [startOfValue_blank spaces]
  rfl

theorem hexValue_digitChar : ∀ digit < 16, hexValue (Nat.digitChar digit) = some digit := by
  decide

theorem hexUnit_control {c : Char} (control : c.toNat < 0x20) (text : List Char) :
    hexUnit ('0' :: '0' :: Nat.digitChar (c.toNat / 16) :: Nat.digitChar (c.toNat % 16) :: text) =
      .ok (c.toNat, text) := by
  have high := hexValue_digitChar (c.toNat / 16) (by omega)
  have low := hexValue_digitChar (c.toNat % 16) (by omega)
  have zero : hexValue '0' = some 0 := rfl
  have whole : ((0 * 16 + 0) * 16 + c.toNat / 16) * 16 + c.toNat % 16 = c.toNat := by omega
  simp only [hexUnit, zero, high, low, whole]

theorem escapedUnit_control {c : Char} (control : c.toNat < 0x20) (text : List Char) :
    escapedUnit ('0' :: '0' :: Nat.digitChar (c.toNat / 16) :: Nat.digitChar (c.toNat % 16) :: text) =
      .ok (c, text) := by
  have notLow : ¬ (0xDC00 ≤ c.toNat ∧ c.toNat ≤ 0xDFFF) := by omega
  have notHigh : ¬ (0xD800 ≤ c.toNat ∧ c.toNat ≤ 0xDBFF) := by omega
  simp only [escapedUnit, hexUnit_control control, bind, Except.bind, if_neg notLow, if_neg notHigh,
    Char.ofNat_toNat]

theorem charactersWithin_escape (first : Char) (bound : List Char) (c : Char) (text : List Char) :
    charactersWithin (first :: bound) (escape c ++ text) = (do
      let (characters, text) ← charactersWithin bound text
      .ok (c :: characters, text)) := by
  unfold escape
  split
  · subst c; rfl
  split
  · subst c; rfl
  split
  · subst c; rfl
  split
  · subst c; rfl
  split
  · subst c; rfl
  split
  · subst c; rfl
  split
  · subst c; rfl
  split
  · rename_i control
    have unit := escapedUnit_control control text
    simp only [List.cons_append, List.nil_append, charactersWithin, Char.reduceEq, if_false, if_true,
      escaped, unit, bind, Except.bind]
  · rename_i notQuote notBackslash _ _ _ _ _ notControl
    simp only [List.cons_append, List.nil_append, charactersWithin, if_neg notQuote,
      if_neg notBackslash, if_neg notControl]

theorem charactersWithin_written (content : List Char) (text bound : List Char)
    (enough : content.length < bound.length) :
    charactersWithin bound (content.flatMap escape ++ '"' :: text) = .ok (content, text) := by
  induction content generalizing bound with
  | nil =>
    obtain ⟨first, bound, rfl⟩ := List.exists_cons_of_length_pos enough
    rfl
  | cons c content ih =>
    obtain ⟨first, bound, rfl⟩ := List.exists_cons_of_length_pos (Nat.zero_lt_of_lt enough)
    rw [List.length_cons, List.length_cons] at enough
    rw [List.flatMap_cons, List.append_assoc, charactersWithin_escape,
      ih bound (Nat.lt_of_succ_lt_succ enough)]
    rfl

theorem length_escape (c : Char) : 0 < (escape c).length := by
  unfold escape
  repeat' split
  all_goals exact Nat.succ_pos _

theorem length_written (content : List Char) : content.length ≤ (content.flatMap escape).length := by
  induction content with
  | nil => exact Nat.le_refl 0
  | cons c content ih =>
    have some := length_escape c
    rw [List.flatMap_cons, List.length_append, List.length_cons]
    omega

theorem characters_written (content : String) (text : List Char) :
    characters (content.toList.flatMap escape ++ '"' :: text) = .ok (content, text) := by
  have shorter := length_written content.toList
  have enough : content.toList.length < (content.toList.flatMap escape ++ '"' :: text).length := by
    rw [List.length_append, List.length_cons]
    omega
  rw [characters, charactersWithin_written _ _ _ enough]
  simp only [bind, Except.bind, String.ofList_toList]

theorem quote_append (content : String) (text : List Char) :
    quote content ++ text = '"' :: (content.toList.flatMap escape ++ '"' :: text) := by
  simp [quote]

theorem startOfValue_quote (content : String) (text : List Char) :
    startOfValue (quote content ++ text) = .ok (.string content, text) := by
  have dark : isSpace '"' = false := rfl
  rw [quote_append, startOfValue, skipSpace_cons dark]
  simp only [characters_written, bind, Except.bind]

end ViewTree.Json.Reader
