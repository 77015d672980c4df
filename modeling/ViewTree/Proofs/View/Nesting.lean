import ViewTree.Proofs.View.Fields
import ViewTree.Proofs.View.Reading
import ViewTree.Proofs.View.Reloading

namespace ViewTree

namespace View

mutual

/-- How deep sequences and lists nest. -/
def nesting : View → Nat
  | .element .. => 0
  | .list _ _ item => nesting item + 1
  | .sequence items => nestingOf items + 1
  | .hole => 0

def nestingOf : List View → Nat
  | [] => 0
  | item :: items => max (nesting item) (nestingOf items)

end

mutual

/-- The least number of brackets that are open inside one another where a view is written. -/
def brackets : View → Nat
  | .element .. => 2
  | .list _ _ item => brackets item + 2
  | .sequence items => bracketsOf items + 2
  | .hole => 0

def bracketsOf : List View → Nat
  | [] => 0
  | item :: items => max (brackets item) (bracketsOf items)

end

theorem bracketsOf_le {items : List View} {bound : Nat} :
    bracketsOf items ≤ bound ↔ ∀ item ∈ items, item.brackets ≤ bound := by
  induction items with
  | nil => simp [bracketsOf]
  | cons item items ih => rw [bracketsOf, Nat.max_le, ih, List.forall_mem_cons]

mutual

theorem brackets_even (view : View) : 2 ∣ view.brackets := by
  cases view with
  | element tag attributes text => exact Nat.dvd_refl 2
  | list numbered source item => exact Nat.dvd_add (brackets_even item) (Nat.dvd_refl 2)
  | sequence items => exact Nat.dvd_add (bracketsOf_even items) (Nat.dvd_refl 2)
  | hole => exact Nat.dvd_zero 2

theorem bracketsOf_even (items : List View) : 2 ∣ bracketsOf items := by
  cases items with
  | nil => exact Nat.dvd_zero 2
  | cons item items =>
    have head := brackets_even item
    have tail := bracketsOf_even items
    rw [bracketsOf]
    omega

end

mutual

theorem two_mul_nesting_le (view : View) : 2 * view.nesting ≤ view.brackets := by
  cases view with
  | element tag attributes text => exact Nat.zero_le _
  | list numbered source item => exact Nat.succ_le_succ (Nat.succ_le_succ (two_mul_nesting_le item))
  | sequence items => exact Nat.succ_le_succ (Nat.succ_le_succ (two_mul_nestingOf_le items))
  | hole => exact Nat.le_refl 0

theorem two_mul_nestingOf_le (items : List View) : 2 * nestingOf items ≤ bracketsOf items := by
  cases items with
  | nil => exact Nat.le_refl 0
  | cons item items =>
    have head := two_mul_nesting_le item
    have tail := two_mul_nestingOf_le items
    rw [nestingOf, bracketsOf]
    omega

end

mutual

theorem brackets_le_depth (view : View) : view.brackets ≤ view.toJson.depth := by
  cases view with
  | element tag attributes text =>
    simp only [brackets, toJson, Json.depth, Json.depthMembers]
    omega
  | list numbered source item =>
    have inner := brackets_le_depth item
    simp only [brackets, toJson, Json.depth, Json.depthMembers]
    omega
  | sequence items =>
    have inner := bracketsOf_le_depth items
    simp only [brackets, toJson, Json.depth, Json.depthMembers]
    omega
  | hole => exact Nat.le_refl 0

theorem bracketsOf_le_depth (items : List View) : bracketsOf items ≤ Json.depthItems (toJsonItems items) := by
  cases items with
  | nil => exact Nat.le_refl 0
  | cons item items =>
    have head := brackets_le_depth item
    have tail := bracketsOf_le_depth items
    simp only [bracketsOf, toJsonItems, Json.depthItems]
    omega

end

end View

theorem Template.brackets_of_parse {text : String} {template : Template} (loaded : parse text = .ok template) :
    template.code.brackets ≤ 126 := by
  obtain ⟨value, parsed, deeper⟩ := depth_of_parse loaded
  have within : value.depth ≤ 127 := Json.depth_of_parse parsed
  have written := template.code.brackets_le_depth
  have even := template.code.brackets_even
  rw [depth_toJson] at deeper
  omega

namespace Json.Reader

variable {α ν : Type} {text rest : List Char} {value : α}

theorem whole_ok {reader : Reader α} (read : whole reader text = .ok value) :
    ∃ rest, reader text = .ok (value, rest) := by
  unfold whole at read
  split at read
  · cases read
  · rename_i found rest given
    split at read
    · cases read
      exact ⟨rest, given⟩
    · cases read

theorem open?_ok {content : Option (Reader α)} (read : open? content text = .ok (value, rest)) :
    ∃ reader, content = some reader ∧ reader text = .ok (value, rest) := by
  cases content with
  | none => cases read
  | some reader => exact ⟨reader, rfl, read⟩

theorem list_ok {wanted : String} {content : Option (Reader α)} (read : list wanted content text = .ok (value, rest)) :
    ∃ reader inner tail, content = some reader ∧ reader inner = .ok (value, tail) := by
  obtain ⟨⟨token, text⟩, -, read⟩ := bind_eq_ok.1 read
  cases token with
  | list =>
    obtain ⟨_, opened, read⟩ := open?_ok read
    obtain ⟨reader, given, rfl⟩ := Option.map_eq_some_iff.1 opened
    obtain ⟨tail, inside, -⟩ := insideList_ok read
    exact ⟨reader, _, tail, given, inside⟩
  | _ => cases read

theorem fields_ok {wanted : String} {listed named : Option (Reader α)}
    (read : fields wanted listed named text = .ok (value, rest)) :
    ∃ reader inner tail, (listed = some reader ∨ named = some reader) ∧ reader inner = .ok (value, tail) := by
  obtain ⟨⟨token, text⟩, -, read⟩ := bind_eq_ok.1 read
  cases token with
  | list =>
    obtain ⟨_, opened, read⟩ := open?_ok read
    obtain ⟨reader, given, rfl⟩ := Option.map_eq_some_iff.1 opened
    obtain ⟨tail, inside, -⟩ := insideList_ok read
    exact ⟨reader, _, tail, .inl given, inside⟩
  | object =>
    obtain ⟨_, opened, read⟩ := open?_ok read
    obtain ⟨reader, given, rfl⟩ := Option.map_eq_some_iff.1 opened
    obtain ⟨tail, inside, -⟩ := insideObject_ok read
    exact ⟨reader, _, tail, .inr given, inside⟩
  | _ => cases read

theorem tagged_ok {all : List ν} {name : ν → String} {bare : ν → Except Cause α}
    {content : Option (ν → Reader α)} (read : tagged all name bare content text = .ok (value, rest)) :
    (∃ v, bare v = .ok value) ∨
      ∃ inside v inner tail, content = some inside ∧ inside v inner = .ok (value, tail) := by
  unfold tagged at read
  split at read
  · cases read
  · obtain ⟨⟨v, text⟩, -, read⟩ := bind_eq_ok.1 read
    cases plain : bare v with
    | error cause =>
      simp only [plain] at read
      cases read
    | ok found =>
      simp only [plain] at read
      cases read
      exact .inl ⟨v, plain⟩
  · cases content with
    | none => cases read
    | some inside =>
      obtain ⟨_, -, read⟩ := bind_eq_ok.1 read
      obtain ⟨⟨v, _⟩, -, read⟩ := bind_eq_ok.1 read
      obtain ⟨inner, -, read⟩ := bind_eq_ok.1 read
      obtain ⟨⟨found, tail⟩, content, read⟩ := bind_eq_ok.1 read
      obtain ⟨_, -, same⟩ := bind_eq_ok.1 read
      cases same
      exact .inr ⟨inside, v, inner, tail, rfl, content⟩
  · cases read

end Json.Reader

namespace Reading

open Json (Reader)
open Json.Reader

variable {depth : Nat} {text rest : List Char} {view : View}

theorem complete_ok {made : Except Json.Cause View} (read : complete made text = .ok (view, rest)) :
    made = .ok view := by
  cases made with
  | ok found =>
    cases read
    rfl
  | error cause => cases read

theorem elementMembers_brackets (read : elementMembers depth text = .ok (view, rest)) : view.brackets = 2 := by
  obtain ⟨⟨parts, _⟩, -, made⟩ := bind_eq_ok.1 read
  obtain ⟨tag, -, rfl⟩ := View.ElementParts.view_eq_ok.1 (complete_ok made)
  rfl

theorem elementItems_brackets (read : elementItems depth text = .ok (view, rest)) : view.brackets = 2 := by
  obtain ⟨⟨tag, _⟩, -, read⟩ := bind_eq_ok.1 read
  obtain ⟨⟨declared, _⟩, -, read⟩ := bind_eq_ok.1 read
  obtain ⟨⟨shown, _⟩, -, made⟩ := bind_eq_ok.1 read
  obtain ⟨tag, -, rfl⟩ := View.ElementParts.view_eq_ok.1 (complete_ok made)
  rfl

section Lists

variable {item : Reader View} {bound : Nat}

theorem field_ok {α : Type} {name : String} {before : Option α} {value : Reader α} {found : α}
    (read : field name before value text = .ok (found, rest)) : ∃ inner, value inner = .ok (found, rest) := by
  unfold field at read
  split at read
  · cases read
  · obtain ⟨inner, -, read⟩ := bind_eq_ok.1 read
    exact ⟨inner, read⟩

theorem listMember_brackets
    (each : ∀ text view rest, item text = .ok (view, rest) → view.brackets ≤ bound) (before : View.ListParts)
    (name : String) (text : List Char) (after : View.ListParts) (rest : List Char)
    (read : listMember item depth before name text = .ok (after, rest))
    (start : ∀ view, before.item = some view → view.brackets ≤ bound) :
    ∀ view, after.item = some view → view.brackets ≤ bound := by
  simp only [listMember] at read
  split at read
  · obtain ⟨⟨numbered, _⟩, -, same⟩ := bind_eq_ok.1 read
    cases same
    exact start
  split at read
  · obtain ⟨⟨source, _⟩, -, same⟩ := bind_eq_ok.1 read
    cases same
    exact start
  split at read
  · obtain ⟨⟨code, _⟩, given, same⟩ := bind_eq_ok.1 read
    cases same
    obtain ⟨inner, given⟩ := field_ok given
    rintro _ ⟨⟩
    exact each _ _ _ given
  · obtain ⟨_, -, same⟩ := bind_eq_ok.1 read
    cases same
    exact start

theorem listMembers_brackets (each : ∀ text view rest, item text = .ok (view, rest) → view.brackets ≤ bound)
    (read : listMembers item depth text = .ok (view, rest)) : view.brackets ≤ bound + 2 := by
  obtain ⟨⟨parts, _⟩, met, made⟩ := bind_eq_ok.1 read
  obtain ⟨place, code, -, given, rfl⟩ := View.ListParts.view_eq_ok.1 (complete_ok made)
  have start : ∀ view, View.ListParts.none.item = some view → view.brackets ≤ bound := by
    rintro _ ⟨⟩
  have within := membersWithin_all (listMember_brackets each) start met
  exact Nat.add_le_add_right (within code given) 2

theorem requiredItem_ok {α : Type} {length : Nat} {wanted : String} {item : Reader α} {found : α}
    (read : requiredItem length wanted item text = .ok (found, rest)) : ∃ inner tail, item inner = .ok (found, tail) := by
  obtain ⟨⟨next, _⟩, read, same⟩ := bind_eq_ok.1 read
  obtain ⟨⟨more, inner⟩, -, read⟩ := bind_eq_ok.1 read
  cases more with
  | false =>
    cases read
    cases same
  | true =>
    obtain ⟨⟨value, tail⟩, inside, given⟩ := bind_eq_ok.1 read
    cases given
    cases same
    exact ⟨inner, _, inside⟩

theorem listItems_brackets (each : ∀ text view rest, item text = .ok (view, rest) → view.brackets ≤ bound)
    (read : listItems item depth text = .ok (view, rest)) : view.brackets ≤ bound + 2 := by
  obtain ⟨⟨numbered, _⟩, -, read⟩ := bind_eq_ok.1 read
  obtain ⟨⟨source, _⟩, -, read⟩ := bind_eq_ok.1 read
  obtain ⟨⟨code, _⟩, given, made⟩ := bind_eq_ok.1 read
  obtain ⟨inner, tail, given⟩ := requiredItem_ok given
  cases complete_ok made
  exact Nat.add_le_add_right (each _ _ _ given) 2

end Lists

theorem viewContent_brackets {item : Reader View}
    (each : ∀ text view rest, item text = .ok (view, rest) → view.brackets ≤ depth) (kind : View.Kind)
    (read : viewContent (some (depth, item)) kind text = .ok (view, rest)) : view.brackets ≤ depth + 2 := by
  cases kind with
  | element =>
    obtain ⟨reader, inner, tail, given | given, read⟩ := fields_ok read
    · cases given
      rw [elementItems_brackets read]
      exact Nat.le_add_left 2 depth
    · cases given
      rw [elementMembers_brackets read]
      exact Nat.le_add_left 2 depth
  | list =>
    obtain ⟨reader, inner, tail, given | given, read⟩ := fields_ok read
    · cases given
      exact listItems_brackets each read
    · cases given
      exact listMembers_brackets each read
  | sequence =>
    obtain ⟨⟨views, _⟩, read, same⟩ := bind_eq_ok.1 read
    cases same
    obtain ⟨reader, inner, tail, given, read⟩ := list_ok read
    cases given
    exact Nat.add_le_add_right (View.bracketsOf_le.2 (itemsWithin_all each read)) 2
  | hole =>
    obtain ⟨_, -, same⟩ := bind_eq_ok.1 read
    cases same
    exact Nat.zero_le _

theorem bare_brackets {kind : View.Kind} {bound : Nat} (plain : View.bare kind = .ok view) :
    view.brackets ≤ bound := by
  cases kind <;> cases plain
  exact Nat.zero_le _

/-- Where no other bracket may be opened, only a hole can stand beside its name. -/
theorem viewContent_shallow (kind : View.Kind) {bound : Nat}
    (read : viewContent none kind text = .ok (view, rest)) : view.brackets ≤ bound := by
  cases kind with
  | element | list =>
    obtain ⟨_, _, _, given | given, _⟩ := fields_ok read <;> cases given
  | sequence =>
    obtain ⟨_, read, -⟩ := bind_eq_ok.1 read
    obtain ⟨_, _, _, given, _⟩ := list_ok read
    cases given
  | hole =>
    obtain ⟨_, -, same⟩ := bind_eq_ok.1 read
    cases same
    exact Nat.zero_le _

/-- A view opens no more brackets than may be opened where it is read. -/
theorem view_brackets (depth : Nat) (text : List Char) (found : View) (rest : List Char)
    (read : Reading.view depth text = .ok (found, rest)) : found.brackets ≤ depth := by
  induction depth using Nat.twoStepInduction generalizing text found rest with
  | zero =>
    rcases tagged_ok read with ⟨kind, plain⟩ | ⟨_, _, _, _, given, _⟩
    · exact bare_brackets plain
    · cases given
  | one =>
    rcases tagged_ok read with ⟨kind, plain⟩ | ⟨inside, kind, inner, tail, given, read⟩
    · exact bare_brackets plain
    · cases given
      exact viewContent_shallow kind read
  | more depth ih _ =>
    rcases tagged_ok read with ⟨kind, plain⟩ | ⟨inside, kind, inner, tail, given, read⟩
    · exact bare_brackets plain
    · cases given
      exact viewContent_brackets ih kind read

end Reading

theorem View.brackets_of_parse {text : String} {view : View} (loaded : parse text = .ok view) :
    view.brackets ≤ 126 := by
  obtain ⟨rest, read⟩ := Json.Reader.whole_ok loaded
  have within : view.brackets ≤ 127 := Reading.view_brackets _ _ _ _ read
  have even := view.brackets_even
  omega

end ViewTree
