import ViewTree.Proofs.Json.Numbers

namespace ViewTree.Json

open Reader

/-- The blanks of a written form: those before what stands at a level, and those after a colon. -/
structure Layout where
  gap : Nat → List Char
  space : List Char
  gap_blank : ∀ level, Blank (gap level)
  space_blank : Blank space

namespace Layout

def dense : Layout := ⟨fun _ => [], [], fun _ => blank_nil, blank_nil⟩

theorem line_blank (level : Nat) : Blank (line level) := by
  intro c member
  rcases List.mem_cons.1 member with rfl | member
  · rfl
  · rw [List.eq_of_mem_replicate member]
    rfl

def wide : Layout := ⟨line, [' '], line_blank, by simp [Blank, isSpace]⟩

variable (layout : Layout)

def opening (level : Nat) (first : Bool) : List Char :=
  if first then layout.gap (level + 1) else ',' :: layout.gap (level + 1)

def closing (level : Nat) (first : Bool) : List Char :=
  if first then [] else layout.gap level

mutual

def text (level : Nat) : Json → List Char
  | .null => ['n', 'u', 'l', 'l']
  | .boolean value => booleanText value
  | .number value => value.text
  | .string text => quote text
  | .list values => '[' :: items level true values
  | .object entries => '{' :: members level true entries

def items (level : Nat) (first : Bool) : List Json → List Char
  | [] => layout.closing level first ++ [']']
  | item :: values => layout.opening level first ++ (text (level + 1) item ++ items level false values)

def members (level : Nat) (first : Bool) : List (String × Json) → List Char
  | [] => layout.closing level first ++ ['}']
  | (key, value) :: entries =>
    layout.opening level first ++ (quote key ++ ':' :: (layout.space ++ (text (level + 1) value ++
      members level false entries)))

end

mutual

theorem compact_eq (level : Nat) (value : Json) : value.compact = dense.text level value := by
  cases value with
  | list values =>
    cases values with
    | nil => rfl
    | cons item values =>
      rw [compact, compact_eq (level + 1) item, compactItems_eq level values]
      rfl
  | object entries =>
    cases entries with
    | nil => rfl
    | cons member entries =>
      obtain ⟨key, value⟩ := member
      rw [compact, compact_eq (level + 1) value, compactMembers_eq level entries]
      rfl
  | _ => rfl

theorem compactItems_eq (level : Nat) (values : List Json) :
    compactItems values = dense.items level false values := by
  cases values with
  | nil => rfl
  | cons item values =>
    rw [compactItems, compact_eq (level + 1) item, compactItems_eq level values]
    rfl

theorem compactMembers_eq (level : Nat) (entries : List (String × Json)) :
    compactMembers entries = dense.members level false entries := by
  cases entries with
  | nil => rfl
  | cons member entries =>
    obtain ⟨key, value⟩ := member
    rw [compactMembers, compact_eq (level + 1) value, compactMembers_eq level entries]
    rfl

end

mutual

theorem indented_eq (level : Nat) (value : Json) : value.indented level = wide.text level value := by
  cases value with
  | list values =>
    cases values with
    | nil => rfl
    | cons item values =>
      rw [indented, indented_eq (level + 1) item, indentedItems_eq level values, List.append_assoc]
      rfl
  | object entries =>
    cases entries with
    | nil => rfl
    | cons member entries =>
      obtain ⟨key, value⟩ := member
      rw [indented, indented_eq (level + 1) value, indentedMembers_eq level entries]
      simp only [List.append_assoc, List.cons_append]
      rfl
  | _ => rfl

theorem indentedItems_eq (level : Nat) (values : List Json) :
    indentedItems level values = wide.items level false values := by
  cases values with
  | nil => rfl
  | cons item values =>
    rw [indentedItems, indented_eq (level + 1) item, indentedItems_eq level values, List.append_assoc]
    rfl

theorem indentedMembers_eq (level : Nat) (entries : List (String × Json)) :
    indentedMembers level entries = wide.members level false entries := by
  cases entries with
  | nil => rfl
  | cons member entries =>
    obtain ⟨key, value⟩ := member
    rw [indentedMembers, indented_eq (level + 1) value, indentedMembers_eq level entries]
    simp only [List.append_assoc, List.cons_append]
    rfl

end

theorem blank_opening (level : Nat) : Blank (layout.opening level true) := layout.gap_blank (level + 1)

theorem blank_closing (level : Nat) (first : Bool) : Blank (layout.closing level first) := by
  cases first with
  | true => exact blank_nil
  | false => exact layout.gap_blank level

theorem text_cons (level : Nat) (value : Json) :
    ∃ c text, layout.text level value = c :: text ∧ isSpace c = false ∧ c ≠ ']' := by
  cases value with
  | boolean value => cases value <;> exact ⟨_, _, rfl, rfl, by decide⟩
  | number value =>
    obtain ⟨c, text, written, first⟩ := value.text_cons
    refine ⟨c, text, written, isSpace_of_numeral first, ?_⟩
    rintro rfl
    rcases first with dash | digit
    · exact absurd dash (by decide)
    · cases digit
  | _ => exact ⟨_, _, rfl, rfl, by decide⟩

theorem ends_blank {blank text : List Char} (spaces : Blank blank) (ends : Ends text) :
    Ends (blank ++ text) := by
  cases blank with
  | nil => exact ends
  | cons c blank =>
    intro first same
    cases same
    exact .inl (spaces c List.mem_cons_self)

theorem ends_items (level : Nat) (values : List Json) (rest : List Char) :
    Ends (layout.items level false values ++ rest) := by
  cases values with
  | nil =>
    rw [items, List.append_assoc]
    apply ends_blank (layout.blank_closing level false)
    intro c same
    cases same
    exact .inr (.inr (.inl rfl))
  | cons item values =>
    intro c same
    cases same
    exact .inr (.inl rfl)

theorem ends_members (level : Nat) (entries : List (String × Json)) (rest : List Char) :
    Ends (layout.members level false entries ++ rest) := by
  cases entries with
  | nil =>
    rw [members, List.append_assoc]
    apply ends_blank (layout.blank_closing level false)
    intro c same
    cases same
    exact .inr (.inr (.inr rfl))
  | cons member entries =>
    intro c same
    cases same
    exact .inr (.inl rfl)

theorem length_items (level : Nat) (first : Bool) (values : List Json) :
    values.length < (layout.items level first values).length := by
  induction values generalizing first with
  | nil => simp [items]
  | cons item values ih =>
    obtain ⟨c, text, written, _⟩ := layout.text_cons (level + 1) item
    have shorter := ih false
    simp only [items, written, List.length_append, List.length_cons]
    omega

theorem length_members (level : Nat) (first : Bool) (entries : List (String × Json)) :
    entries.length < (layout.members level first entries).length := by
  induction entries generalizing first with
  | nil => simp [members]
  | cons member entries ih =>
    have shorter := ih false
    simp only [members, List.length_append, List.length_cons]
    omega

end Layout

end ViewTree.Json
