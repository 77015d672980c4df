import ViewTree.Proofs.Json.Taking

namespace ViewTree.Json

open Reader

variable {text start rest : List Char}

theorem skipToken_numeral {c : Char} (first : c = '-' ∨ c.isDigit = true) (text : List Char) :
    skipToken (c :: text) = (do
      let (_, text) ← numeral .invalidNumber (c :: text)
      .ok (none, text)) := by
  have plain := plain_of_numeral first
  rw [skipToken, skipSpace_cons (isSpace_of_numeral first)]
  split
  · rename_i same
    cases same
  iterate 6
    · rename_i same
      exact absurd (List.cons.inj same).1 (plain _ (by decide))
  · rename_i same
    cases same
    rw [if_pos first]

theorem skipToken_scalar {written : Written} (begins : Begins written text rest) (ends : Ends rest)
    (notList : ∀ items, written ≠ .list items) (notObject : ∀ members, written ≠ .object members) :
    skipToken text = .ok (none, rest) := by
  cases begins with
  | null | yes | no => rfl
  | number spelled =>
    have read := numeral_spelled spelled ends .invalidNumber
    obtain ⟨c, more, rfl, first⟩ := spelled.cons
    rw [List.cons_append] at read ⊢
    rw [skipToken_numeral first, read]
    rfl
  | string quoted =>
    obtain ⟨inner, rfl⟩ := quoted.start
    have start : skipToken ('"' :: inner) = (do .ok (none, ← skipString inner)) := rfl
    rw [start, quoted.skipString_eq]
    rfl
  | list => exact absurd rfl (notList _)
  | object => exact absurd rfl (notObject _)

theorem skipKey_quoted {key : Option String} {colon inner : List Char} (gap : Gap text start)
    (quoted : Quoted key start colon) (after : Gap colon (':' :: inner)) :
    skipKey .object text = .ok inner := by
  obtain ⟨name, rfl⟩ := quoted.start
  simp only [skipKey, gap.skipSpace_cons rfl, quoted.skipString_eq, bind, Except.bind, after.colon_eq]

theorem skipOpening_item {written : Written} (gap : Gap text start) (begins : Begins written start rest) :
    skipOpening .list text = .ok (false, start) := by
  obtain ⟨c, more, rfl, dark, notEnd⟩ := begins.start
  unfold skipOpening
  rw [gap.skipSpace_cons dark]
  split
  · rename_i same
    cases same
  · rename_i same
    cases same
  · rename_i same
    exact absurd (List.cons.inj same).1 notEnd
  · rename_i differ _
    cases differ
  · rfl

theorem skipOpening_member {key : Option String} {colon inner : List Char} (gap : Gap text start)
    (quoted : Quoted key start colon) (after : Gap colon (':' :: inner)) :
    skipOpening .object text = .ok (false, inner) := by
  have named := skipKey_quoted (.refl start) quoted after
  obtain ⟨name, rfl⟩ := quoted.start
  unfold skipOpening
  rw [gap.skipSpace_cons rfl]
  change (skipKey .object ('"' :: name) >>= fun text => .ok (false, text)) = _
  rw [named]
  rfl

/-- Passing over goes on from the text, behind a value or a part, with a bound that is still enough. -/
def GoesOn (outcome : Except Fault (List Char)) (brackets : List Bracket) (rest : List Char) : Prop :=
  ∃ bound, rest.length ≤ bound.length ∧ outcome = skipWithin bound .after brackets rest

theorem GoesOn.trans {outcome : Except Fault (List Char)} {brackets brackets' : List Bracket}
    (first : GoesOn outcome brackets start)
    (onwards : ∀ bound, start.length ≤ bound.length → GoesOn (skipWithin bound .after brackets start) brackets' rest) :
    GoesOn outcome brackets' rest := by
  obtain ⟨bound, enough, rfl⟩ := first
  exact onwards bound enough

theorem skip_scalar {written : Written} {bound : List Char} (begins : Begins written start rest) (ends : Ends rest)
    (notList : ∀ items, written ≠ .list items) (notObject : ∀ members, written ≠ .object members)
    (gap : Gap text start) (enough : text.length ≤ bound.length) (brackets : List Bracket) :
    GoesOn (skipWithin bound .value brackets text) brackets rest := by
  have taken := begins.length_lt
  have blank := gap.length_le
  obtain ⟨_, bound, rfl⟩ := List.exists_cons_of_length_pos (show 0 < bound.length by omega)
  rw [List.length_cons] at enough
  have token := skipToken_scalar begins ends notList notObject
  rw [← gap.skipToken_eq] at token
  refine ⟨bound, by omega, ?_⟩
  simp only [skipWithin, token, bind, Except.bind]

mutual

theorem skip_begins (written : Written) {start rest text bound : List Char}
    (begins : Begins written start rest) (ends : Ends rest) (gap : Gap text start)
    (enough : text.length ≤ bound.length) (brackets : List Bracket) :
    GoesOn (skipWithin bound .value brackets text) brackets rest := by
  match written with
  | .list items =>
    cases begins with
    | list content => exact skip_list items content gap enough brackets
  | .object members =>
    cases begins with
    | object content => exact skip_object members content gap enough brackets
  | .null | .boolean _ | .number _ | .string _ => exact skip_scalar begins ends nofun nofun gap enough brackets

theorem skip_list (items : List Written) {inner rest text bound : List Char} (content : ItemsBegin true items inner rest)
    (gap : Gap text ('[' :: inner)) (enough : text.length ≤ bound.length) (brackets : List Bracket) :
    GoesOn (skipWithin bound .value brackets text) brackets rest := by
  have token : skipToken text = .ok (some .list, inner) := by
    rw [gap.skipToken_eq]
    rfl
  have taken := content.length_lt
  have blank := gap.length_le
  rw [List.length_cons] at blank
  obtain ⟨_, bound, rfl⟩ := List.exists_cons_of_length_pos (show 0 < bound.length by omega)
  rw [List.length_cons] at enough
  simp only [skipWithin, token, bind, Except.bind]
  match items with
  | [] =>
    cases content with
    | close gap =>
      have opening : skipOpening .list inner = .ok (true, rest) := by
        simp only [skipOpening, gap.skipSpace_cons rfl]
      rw [opening]
      exact ⟨bound, by omega, rfl⟩
  | item :: items =>
    cases content with
    | item separated begins others =>
      have gap := separated.first_eq
      have opening := skipOpening_item gap begins
      have shorter := gap.length_le
      -- The bracket took a step of the bound, and a character of the text.
      have head := skip_begins item begins others.ends (.refl _) (show _ ≤ bound.length by omega) (.list :: brackets)
      rw [opening]
      exact head.trans fun bound enough => skip_items items others enough brackets

theorem skip_object (members : List (Option String × Written)) {inner rest text bound : List Char}
    (content : MembersBegin true members inner rest) (gap : Gap text ('{' :: inner))
    (enough : text.length ≤ bound.length) (brackets : List Bracket) :
    GoesOn (skipWithin bound .value brackets text) brackets rest := by
  have token : skipToken text = .ok (some .object, inner) := by
    rw [gap.skipToken_eq]
    rfl
  have taken := content.length_lt
  have blank := gap.length_le
  rw [List.length_cons] at blank
  obtain ⟨_, bound, rfl⟩ := List.exists_cons_of_length_pos (show 0 < bound.length by omega)
  rw [List.length_cons] at enough
  simp only [skipWithin, token, bind, Except.bind]
  match members with
  | [] =>
    cases content with
    | close gap =>
      have opening : skipOpening .object inner = .ok (true, rest) := by
        simp only [skipOpening, gap.skipSpace_cons rfl]
      rw [opening]
      exact ⟨bound, by omega, rfl⟩
  | (key, value) :: members =>
    cases content with
    | member separated quoted before after begins others =>
      have gap := separated.first_eq
      have opening := skipOpening_member gap quoted before
      have shorter := gap.length_le
      have named := quoted.length_lt
      have colon := before.length_le
      rw [List.length_cons] at colon
      have head := skip_begins value begins others.ends after (show _ ≤ bound.length by omega) (.object :: brackets)
      rw [opening]
      exact head.trans fun bound enough => skip_members members others enough brackets

theorem skip_items (items : List Written) {text rest bound : List Char}
    (begins : ItemsBegin false items text rest) (enough : text.length ≤ bound.length)
    (brackets : List Bracket) :
    GoesOn (skipWithin bound .after (.list :: brackets) text) brackets rest := by
  have taken := begins.length_lt
  obtain ⟨_, bound, rfl⟩ := List.exists_cons_of_length_pos (show 0 < bound.length by omega)
  match items with
  | [] =>
    cases begins with
    | close gap =>
      have part : skipPart .list text = .ok (true, rest) := by simp only [skipPart, gap.skipSpace_cons rfl]
      refine ⟨bound, by rw [List.length_cons] at enough; omega, ?_⟩
      simp only [skipWithin, part, bind, Except.bind]
  | item :: items =>
    cases begins with
    | item separated begins others =>
      obtain ⟨inner, before, after⟩ := separated.next_eq
      have part : skipPart .list text = .ok (false, inner) := by
        simp only [skipPart, before.skipSpace_cons rfl, skipKey, bind, Except.bind]
      have shorter := before.length_le
      rw [List.length_cons] at shorter enough
      have head := skip_begins item begins others.ends after (show _ ≤ bound.length by omega) (.list :: brackets)
      simp only [skipWithin, part, bind, Except.bind]
      exact head.trans fun bound enough => skip_items items others enough brackets

theorem skip_members (members : List (Option String × Written)) {text rest bound : List Char}
    (begins : MembersBegin false members text rest) (enough : text.length ≤ bound.length)
    (brackets : List Bracket) :
    GoesOn (skipWithin bound .after (.object :: brackets) text) brackets rest := by
  have taken := begins.length_lt
  obtain ⟨_, bound, rfl⟩ := List.exists_cons_of_length_pos (show 0 < bound.length by omega)
  match members with
  | [] =>
    cases begins with
    | close gap =>
      have part : skipPart .object text = .ok (true, rest) := by simp only [skipPart, gap.skipSpace_cons rfl]
      refine ⟨bound, by rw [List.length_cons] at enough; omega, ?_⟩
      simp only [skipWithin, part, bind, Except.bind]
  | (key, written) :: members =>
    cases begins with
    | @member _ _ _ _ _ _ _ place _ _ _ separated quoted colon gap begins others =>
      obtain ⟨inner, before, after⟩ := separated.next_eq
      have part : skipPart .object text = .ok (false, place) := by
        simp only [skipPart, before.skipSpace_cons rfl, skipKey_quoted after quoted colon, bind, Except.bind]
      have shorter := before.length_le
      have shorter' := after.length_le
      have named := quoted.length_lt
      have colon := colon.length_le
      rw [List.length_cons] at shorter colon enough
      have head := skip_begins written begins others.ends gap (show _ ≤ bound.length by omega) (.object :: brackets)
      simp only [skipWithin, part, bind, Except.bind]
      exact head.trans fun bound enough => skip_members members others enough brackets

end

/-- A value is passed over, and what stands behind it is left. -/
theorem Stands.skip_eq {written : Written} (stands : Stands written text rest) : skip text = .ok rest := by
  cases stands with
  | behind gap begins ends =>
    obtain ⟨bound, -, goes⟩ := skip_begins written begins ends gap (Nat.le_refl _) []
    rw [skip, goes]
    cases bound <;> rfl

end ViewTree.Json
