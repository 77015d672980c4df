import ViewTree.Proofs.Json.Meaning
import ViewTree.Proofs.Json.Tokens

namespace ViewTree.Json

open Reader
open Entries (Run)

/-- The value stands behind blanks, and what follows it ends a number. -/
inductive Stands (written : Written) (text rest : List Char) : Prop
  | behind {start : List Char} (gap : Gap text start) (begins : Begins written start rest) (ends : Ends rest)

/-- The value stands behind a colon. -/
inductive Follows (written : Written) (text rest : List Char) : Prop
  | colon {inner : List Char} (gap : Gap text (':' :: inner)) (stands : Stands written inner rest)

theorem Gap.refl (text : List Char) : Gap text text := .blank blank_nil text

variable {written : Written} {text rest : List Char}

theorem Begins.stands (begins : Begins written text rest) (ends : Ends rest) : Stands written text rest :=
  .behind (.refl text) begins ends

theorem ItemsBegin.ends {items : List Written} (begins : ItemsBegin false items text rest) : Ends text := by
  cases begins with
  | close gap => exact gap.ends (.inr (.inl rfl))
  | item separated =>
    cases separated with
    | next before => exact before.ends (.inl rfl)

theorem MembersBegin.ends {members : List (Option String × Written)}
    (begins : MembersBegin false members text rest) : Ends text := by
  cases begins with
  | close gap => exact gap.ends (.inr (.inr rfl))
  | member separated =>
    cases separated with
    | next before => exact before.ends (.inl rfl)

namespace Stands

theorem list {items : List Written} (stands : Stands (.list items) text rest) :
    ∃ inner, startOfValue text = .ok (.list, '[' :: inner) ∧ ItemsBegin true items inner rest := by
  cases stands with
  | behind gap begins =>
    cases begins with
    | list content => exact ⟨_, by rw [gap.startOfValue_eq]; rfl, content⟩

theorem object {members : List (Option String × Written)} (stands : Stands (.object members) text rest) :
    ∃ inner, startOfValue text = .ok (.object, '{' :: inner) ∧ MembersBegin true members inner rest := by
  cases stands with
  | behind gap begins =>
    cases begins with
    | object content => exact ⟨_, by rw [gap.startOfValue_eq]; rfl, content⟩

theorem startOfValue_quote (text : List Char) : startOfValue ('"' :: text) = (do
    let (value, text) ← characters text
    .ok (.string value, text)) :=
  rfl

theorem scalar (stands : Stands written text rest) (notList : ∀ items, written ≠ .list items)
    (notObject : ∀ members, written ≠ .object members) :
    Gives True (startOfValue text) rest (written.token? = some ·) := by
  cases stands with
  | behind gap begins ends =>
    rw [gap.startOfValue_eq]
    cases begins with
    | null | yes | no => exact (Gives.done True _ rest).congr fun token => by simp [Written.token?]
    | number spelled =>
      obtain ⟨c, more, rfl, first⟩ := spelled.cons
      have read := number_gives spelled ends
      rw [List.cons_append] at read ⊢
      rw [startOfValue_numeral first]
      exact (read.map Token.number fun _ => rfl).congr fun token => by simp [Written.token?]
    | string quoted =>
      obtain ⟨inner, rfl⟩ := quoted.start
      rw [startOfValue_quote]
      exact (quoted.characters_gives.map Token.string fun _ => rfl).congr fun token => by simp [Written.token?]
    | list => exact absurd rfl (notList _)
    | object => exact absurd rfl (notObject _)

end Stands

section

variable {first : Bool} {α σ : Type} {fits : Prop}

theorem Separated.first_eq (separated : Separated true text rest) : Gap text rest := by
  cases separated with
  | first gap => exact gap

theorem Separated.next_eq (separated : Separated false text rest) :
    ∃ inner, Gap text (',' :: inner) ∧ Gap inner rest := by
  cases separated with
  | next before after => exact ⟨_, before, after⟩

theorem nextItem_closing (gap : Gap text (']' :: rest)) : nextItem first text = .ok (false, ']' :: rest) := by
  simp only [nextItem, gap.skipSpace_cons rfl]

theorem nextItem_begins {next : List Char} (separated : Separated first text rest)
    (begins : Begins written rest next) : nextItem first text = .ok (true, rest) := by
  obtain ⟨c, more, rfl, dark, notEnd⟩ := begins.start
  cases separated with
  | first gap => simp only [nextItem, gap.skipSpace_cons dark, if_true]
  | next before after =>
    simp only [nextItem, before.skipSpace_cons rfl, Bool.false_eq_true, if_false, Char.reduceEq, imp_self, if_true,
      after.skipSpace_cons dark]
    split
    · rename_i same
      cases same
    · rename_i same
      exact absurd (List.cons.inj same).1 notEnd
    · rfl

theorem itemsWithin_gives {item : Reader α} {means : α → Written → Prop} {items : List Written}
    {bound : List Char} (begins : ItemsBegin first items text rest)
    (each : ∀ written ∈ items, ∀ text rest, Stands written text rest →
      Gives fits (item text) rest (means · written))
    (enough : items.length < bound.length) :
    Gives fits (itemsWithin item bound first text) (']' :: rest) (List.Forall₂ means · items) := by
  induction items generalizing first text bound with
  | nil =>
    obtain ⟨_, bound, rfl⟩ := List.exists_cons_of_length_pos enough
    cases begins with
    | close gap =>
      simp only [itemsWithin, nextItem_closing gap, bind, Except.bind]
      exact (Gives.done fits [] _).congr fun values => by simp [eq_comm]
  | cons written items ih =>
    obtain ⟨_, bound, rfl⟩ := List.exists_cons_of_length_pos (Nat.zero_lt_of_lt enough)
    rw [List.forall_mem_cons] at each
    cases begins with
    | item separated begins others =>
      have head := each.1 _ _ (begins.stands others.ends)
      have tail := ih others each.2 (Nat.lt_of_succ_lt_succ enough)
      simp only [itemsWithin, nextItem_begins separated begins]
      refine (head.bind fun value _ => tail.map (value :: ·) fun _ => rfl).congr fun values => ?_
      rw [List.forall₂_cons_right_iff]
      constructor
      · rintro ⟨value, first, rest, others, rfl⟩
        exact ⟨value, rest, first, others, rfl⟩
      · rintro ⟨value, rest, first, others, rfl⟩
        exact ⟨value, first, rest, others, rfl⟩

theorem nextKey_closing (gap : Gap text ('}' :: rest)) : nextKey first text = .ok (none, '}' :: rest) := by
  simp only [nextKey, gap.skipSpace_cons rfl]

theorem nextKey_quoted {start : List Char} {name : Option String} (separated : Separated first text start)
    (quoted : Quoted name start rest) :
    ∃ inner, Quoted name ('"' :: inner) rest ∧ nextKey first text = (do
      let (name, text) ← characters inner
      .ok (some name, text)) := by
  obtain ⟨inner, rfl⟩ := quoted.start
  refine ⟨inner, quoted, ?_⟩
  cases separated with
  | first gap =>
    simp only [nextKey, gap.skipSpace_cons rfl, if_true]
    rfl
  | next before after =>
    simp only [nextKey, before.skipSpace_cons rfl, Bool.false_eq_true, if_false, Char.reduceEq, imp_self, if_true,
      after.skipSpace_cons rfl]
    rfl

theorem nextKey_named {start : List Char} {name : String} (separated : Separated first text start)
    (quoted : Quoted (some name) start rest) : nextKey first text = .ok (some name, rest) := by
  obtain ⟨inner, quoted, next⟩ := nextKey_quoted separated quoted
  rw [next, quoted.characters_gives.complete trivial rfl]
  rfl

theorem nextKey_unnamed {start : List Char} (separated : Separated first text start)
    (quoted : Quoted none start rest) : ∃ fault, nextKey first text = .error fault := by
  obtain ⟨inner, quoted, next⟩ := nextKey_quoted separated quoted
  obtain ⟨fault, failed⟩ := quoted.characters_gives.eq_error
  rw [next, failed]
  exact ⟨fault, rfl⟩

theorem membersWithin_gives {member : σ → String → Reader σ} {step : σ → String × Written → σ → Prop}
    {members : List (Option String × Written)} {bound : List Char} {before : σ}
    (begins : MembersBegin first members text rest)
    (each : ∀ key written, (some key, written) ∈ members → ∀ before text rest, Follows written text rest →
      Gives fits (member before key text) rest (step before (key, written)))
    (enough : members.length < bound.length) :
    Gives fits (membersWithin member bound first before text) ('}' :: rest) fun after =>
      ∃ entries, members = Written.named entries ∧ Run step before entries after := by
  induction members generalizing first text bound before with
  | nil =>
    obtain ⟨_, bound, rfl⟩ := List.exists_cons_of_length_pos enough
    cases begins with
    | close gap =>
      simp only [membersWithin, nextKey_closing gap, bind, Except.bind]
      refine (Gives.done fits before _).congr fun after => ?_
      constructor
      · rintro rfl
        exact ⟨[], rfl, .nil before⟩
      · rintro ⟨entries, same, run⟩
        cases entries with
        | nil =>
          cases run
          rfl
        | cons => cases same
  | cons entry members ih =>
    obtain ⟨_, bound, rfl⟩ := List.exists_cons_of_length_pos (Nat.zero_lt_of_lt enough)
    cases begins with
    | @member _ key written _ _ _ _ _ _ _ _ separated quoted gap gap' begins others =>
      have later : ∀ key written, (some key, written) ∈ members → _ :=
        fun key written member => each key written (List.mem_cons_of_mem _ member)
      cases key with
      | none =>
        obtain ⟨fault, failed⟩ := nextKey_unnamed separated quoted
        simp only [membersWithin, failed, bind, Except.bind]
        refine (Gives.fails fits fault _).congr fun after => ⟨False.elim, ?_⟩
        rintro ⟨entries, same, -⟩
        cases entries <;> cases same
      | some name =>
        have head := each name written List.mem_cons_self before _ _ (.colon gap (.behind gap' begins others.ends))
        have tail (state : σ) : Gives fits (membersWithin member bound false state _) _ _ :=
          ih others later (Nat.lt_of_succ_lt_succ enough)
        simp only [membersWithin, nextKey_named separated quoted]
        refine (head.bind fun state _ => tail state).congr fun after => ?_
        constructor
        · rintro ⟨state, first, entries, rfl, run⟩
          exact ⟨(name, written) :: entries, rfl, .cons first run⟩
        · rintro ⟨entries, same, run⟩
          cases run with
          | nil => cases same
          | @cons _ state _ entry entries first run =>
            cases same
            exact ⟨state, first, entries, rfl, run⟩

theorem endOfList_closing (gap : Gap text (']' :: rest)) : endOfList text = .ok rest := by
  simp only [endOfList, gap.skipSpace_cons rfl]

theorem endOfList_left {items : List Written} (begins : ItemsBegin false (written :: items) text rest) :
    ∃ fault, endOfList text = .error fault := by
  cases begins with
  | item separated =>
    cases separated with
    | next before =>
      simp only [endOfList, before.skipSpace_cons rfl]
      split <;> exact ⟨_, rfl⟩

theorem endOfObject_closing (gap : Gap text ('}' :: rest)) : endOfObject text = .ok rest := by
  simp only [endOfObject, gap.skipSpace_cons rfl]

variable {content : Reader α} {tail : List Char} {meaning : α → Prop}

theorem Reader.Gives.insideList (gives : Gives fits (content text) tail meaning)
    (closed : endOfList tail = .ok rest) :
    Gives fits (Reader.insideList content ('[' :: text)) rest meaning where
  sound := by
    intro value after read
    simp only [Reader.insideList, List.drop_one, List.tail_cons] at read
    split at read
    · cases read
    · rename_i value' tail' inner
      obtain ⟨rfl, means⟩ := gives.sound inner
      rw [closed] at read
      cases read
      exact ⟨rfl, means⟩
  complete := by
    intro value enough means
    simp only [Reader.insideList, List.drop_one, List.tail_cons, gives.complete enough means, closed]
    rfl

theorem Reader.Gives.insideObject (gives : Gives fits (content text) tail meaning)
    (closed : endOfObject tail = .ok rest) :
    Gives fits (Reader.insideObject content ('{' :: text)) rest meaning where
  sound := by
    intro value after read
    simp only [Reader.insideObject, List.drop_one, List.tail_cons] at read
    split at read
    · cases read
    · rename_i value' tail' inner
      obtain ⟨rfl, means⟩ := gives.sound inner
      rw [closed] at read
      cases read
      exact ⟨rfl, means⟩
  complete := by
    intro value enough means
    simp only [Reader.insideObject, List.drop_one, List.tail_cons, gives.complete enough means, closed]
    rfl

end

section

variable {α σ : Type}

/-- What is read where the value stands is what it means, as long as enough brackets may be opened. -/
def Written.Takes (reader : Nat → Reader α) (written : Written) (means : α → Prop) : Prop :=
  ∀ ⦃depth : Nat⦄ ⦃text rest : List Char⦄, Stands written text rest →
    Gives (written.depth ≤ depth) (reader depth text) rest means

theorem items_take {reader : Nat → Reader α} {means : α → Written → Prop} {items : List Written}
    (each : ∀ item ∈ items, item.Takes reader (means · item)) (begins : ItemsBegin true items text rest)
    (depth : Nat) :
    Gives (Written.depthItems items ≤ depth) (Reader.insideList (Reader.items (reader depth)) ('[' :: text)) rest
      (List.Forall₂ means · items) := by
  have enough := begins.length_lt
  have shallow : ∀ item ∈ items, ∀ text rest, Stands item text rest →
      Gives (Written.depthItems items ≤ depth) (reader depth text) rest (means · item) := by
    intro item member text rest stands
    exact (each item member stands).within fun fits => Written.depthItems_le.1 fits item member
  have gives := itemsWithin_gives begins shallow (Nat.lt_of_le_of_lt (Nat.le_add_right ..) enough)
  exact Gives.insideList gives (endOfList_closing (.refl _))

/-- What is read behind a key changes what was read before. -/
def TakesMember (member : Nat → σ → String → Reader σ) (entry : String × Written)
    (step : σ → σ → Prop) : Prop :=
  ∀ (before : σ) ⦃depth : Nat⦄ ⦃text rest : List Char⦄, Follows entry.2 text rest →
    Gives (entry.2.depth ≤ depth) (member depth before entry.1 text) rest (step before)

theorem members_take {member : Nat → σ → String → Reader σ} {step : σ → String × Written → σ → Prop}
    {members : List (Option String × Written)}
    (each : ∀ key written, (some key, written) ∈ members → TakesMember member (key, written) (step · (key, written)))
    (begins : MembersBegin true members text rest) (start : σ) (depth : Nat) :
    Gives (Written.depthMembers members ≤ depth) (Reader.members (member depth) start text) ('}' :: rest)
      fun after => ∃ entries, members = Written.named entries ∧ Run step start entries after := by
  have enough := begins.length_lt
  have shallow : ∀ key written, (some key, written) ∈ members → ∀ before text rest, Follows written text rest →
      Gives (Written.depthMembers members ≤ depth) (member depth before key text) rest
        (step before (key, written)) := by
    intro key written found before text rest follows
    exact (each key written found before follows).within fun fits => Written.depthMembers_le.1 fits _ found
  exact membersWithin_gives begins shallow (Nat.lt_of_le_of_lt (Nat.le_add_right ..) enough)

end

def Added (before : List (String × Json)) (entry : String × Written) (after : List (String × Json)) : Prop :=
  ∃ value, entry.2.value? = some value ∧ (entry.1, value) :: before = after

theorem run_added_iff {entries : List (String × Written)} {before after : List (String × Json)} :
    Run Added before entries after ↔
      ∃ values, Written.MembersMean entries values ∧ after = values.reverse ++ before := by
  induction entries generalizing before with
  | nil =>
    constructor
    · intro run
      cases run
      exact ⟨[], .nil, rfl⟩
    · rintro ⟨values, each, rfl⟩
      cases each
      exact .nil _
  | cons entry entries ih =>
    constructor
    · intro run
      cases run with
      | cons first others =>
        obtain ⟨value, means, rfl⟩ := first
        obtain ⟨values, each, rfl⟩ := ih.1 others
        exact ⟨(entry.1, value) :: values, .cons ⟨rfl, means⟩ each, by simp⟩
    · rintro ⟨values, each, rfl⟩
      cases each with
      | @cons value _ values _ first each =>
        obtain ⟨key, value⟩ := value
        obtain ⟨rfl, means⟩ := first
        exact .cons ⟨value, means, rfl⟩ (ih.2 ⟨values, each, by simp⟩)

namespace Written

theorem value_scalar (notList : ∀ items, written ≠ .list items)
    (notObject : ∀ members, written ≠ .object members) :
    written.Takes Reader.value (written.value? = some ·) := by
  intro depth text rest stands
  have token := stands.scalar notList notObject
  match written with
  | .null | .boolean _ | .number (some _) | .string (some _) =>
    have start := token.complete trivial rfl
    simp only [Reader.value, start, bind, Except.bind]
    exact (Gives.done _ _ rest).congr fun value => by simp [value?]
  | .number none | .string none =>
    obtain ⟨fault, failed⟩ := token.eq_error
    simp only [Reader.value, failed, bind, Except.bind]
    exact .none _ fault rest
  | .list items => exact absurd rfl (notList items)
  | .object members => exact absurd rfl (notObject members)

mutual

/-- A value is read where it stands, unless something in it cannot be taken in. -/
theorem value_takes (written : Written) : written.Takes Reader.value (written.value? = some ·) := by
  intro depth text rest stands
  match written, stands with
  | .list items, stands =>
    obtain ⟨inner, start, begins⟩ := stands.list
    cases depth with
    | zero =>
      simp only [Reader.value, start, bind, Except.bind]
      exact .refused (Nat.not_succ_le_zero _) _ rest _
    | succ depth =>
      have content := items_take (values_take items) begins depth
      rw [Reader.value, start]
      refine ((content.within Nat.le_of_succ_le_succ).map Json.list fun _ => rfl).congr fun value => ?_
      simp only [value?, Option.map_eq_some_iff, values?_eq_some]
  | .object members, stands =>
    obtain ⟨inner, start, begins⟩ := stands.object
    cases depth with
    | zero =>
      simp only [Reader.value, start, bind, Except.bind]
      exact .refused (Nat.not_succ_le_zero _) _ rest _
    | succ depth =>
      have read := members_take (members_added members) begins [] depth
      have content := read.insideObject (endOfObject_closing (.refl _))
      rw [Reader.value, start]
      refine ((content.within Nat.le_of_succ_le_succ).map (fun reversed => Json.object reversed.reverse)
        fun _ => rfl).congr fun value => ?_
      simp only [value?, Option.map_eq_some_iff, members?_eq_some, run_added_iff]
      constructor
      · rintro ⟨_, ⟨entries, rfl, values, each, rfl⟩, rfl⟩
        exact ⟨values, ⟨entries, rfl, each⟩, by simp⟩
      · rintro ⟨values, ⟨entries, rfl, each⟩, rfl⟩
        exact ⟨_, ⟨entries, rfl, values, each, rfl⟩, by simp⟩
  | .null, stands | .boolean _, stands | .number _, stands | .string _, stands =>
    exact value_scalar (fun _ same => by cases same) (fun _ same => by cases same) stands

theorem values_take (items : List Written) :
    ∀ item ∈ items, item.Takes Reader.value (item.value? = some ·) := by
  match items with
  | [] => nofun
  | item :: items =>
    rw [List.forall_mem_cons]
    exact ⟨value_takes item, values_take items⟩

theorem members_added (members : List (Option String × Written)) :
    ∀ key written, (some key, written) ∈ members →
      TakesMember (fun depth => Reader.member (Reader.value depth)) (key, written) (Added · (key, written)) := by
  match members with
  | [] => exact fun _ _ found => nomatch found
  | (_, value) :: members =>
    intro key written found
    rcases List.mem_cons.1 found with same | found
    · cases same
      intro before depth text rest follows
      obtain ⟨gap, stands⟩ := follows
      simp only [Reader.member, gap.colon_eq]
      exact (value_takes value stands).map _ fun _ => rfl
    · exact members_added members key written found

end

theorem Spells.stands {text : String} (spells : written.Spells text) :
    ∃ rest, Stands written text.toList rest ∧ skipSpace rest = [] := by
  obtain ⟨start, rest, gap, begins, spaces⟩ := spells
  have ends : Ends rest := by
    intro c first
    exact .inl (spaces c (List.mem_of_mem_head? first))
  have none := skipSpace_blank spaces []
  rw [List.append_nil] at none
  exact ⟨rest, .behind gap begins ends, none⟩

variable {α : Type} {reader : Nat → Reader α} {means : α → Prop} {depth : Nat}

theorem Spells.sound {text : String} (spells : written.Spells text) (taken : written.Takes reader means) {value : α}
    (read : whole (reader depth) text.toList = .ok value) : means value := by
  obtain ⟨rest, stands, none⟩ := spells.stands
  simp only [whole] at read
  split at read
  · cases read
  · rename_i value' rest' inner
    obtain ⟨rfl, said⟩ := (taken stands).sound inner
    rw [none] at read
    cases read
    exact said

theorem Spells.complete {text : String} (spells : written.Spells text) (taken : written.Takes reader means)
    (enough : written.depth ≤ depth) {value : α} (said : means value) :
    whole (reader depth) text.toList = .ok value := by
  obtain ⟨rest, stands, none⟩ := spells.stands
  simp only [whole, (taken stands).complete enough said, none]

end Written

end ViewTree.Json
