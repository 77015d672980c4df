import ViewTree.Json.Reader.Tree
import ViewTree.Proofs.Outcome

namespace ViewTree

theorem Entries.mem_insert {α : Type} {key : String} {value : α} {entries : List (String × α)}
    {entry : String × α} (member : entry ∈ insert key value entries) :
    entry = (key, value) ∨ entry ∈ entries := by
  induction entries with
  | nil => exact .inl (List.mem_singleton.1 member)
  | cons first entries ih =>
    simp only [insert] at member
    split at member
    · rcases List.mem_cons.1 member with rfl | member
      · exact .inl rfl
      · exact .inr (List.mem_cons_of_mem _ member)
    · split at member
      · exact List.mem_cons.1 member
      · rcases List.mem_cons.1 member with rfl | member
        · exact .inr List.mem_cons_self
        · exact (ih member).imp_right (List.mem_cons_of_mem _)

theorem Entries.mem_sorted {α : Type} {entries : List (String × α)} {entry : String × α}
    (member : entry ∈ sorted entries) : entry ∈ entries := by
  -- Entries are set one by one, so what is kept after some of them is among those.
  have kept (rest before : List (String × α))
      (found : entry ∈ rest.foldl (fun kept (key, value) => insert key value kept) before) :
      entry ∈ before ∨ entry ∈ rest := by
    induction rest generalizing before with
    | nil => exact .inl found
    | cons first rest ih =>
      rcases ih _ found with found | found
      · rcases mem_insert found with rfl | found
        · exact .inr List.mem_cons_self
        · exact .inl found
      · exact .inr (List.mem_cons_of_mem _ found)
  rcases kept entries [] member with found | found
  · cases found
  · exact found

namespace Json

theorem depthItems_le {items : List Json} {bound : Nat} :
    depthItems items ≤ bound ↔ ∀ item ∈ items, item.depth ≤ bound := by
  induction items with
  | nil => simp [depthItems]
  | cons item items ih => rw [depthItems, Nat.max_le, ih, List.forall_mem_cons]

theorem depthMembers_le {members : List (String × Json)} {bound : Nat} :
    depthMembers members ≤ bound ↔ ∀ member ∈ members, member.2.depth ≤ bound := by
  induction members with
  | nil => simp [depthMembers]
  | cons member members ih => rw [depthMembers, Nat.max_le, ih, List.forall_mem_cons]

theorem depthMembers_sorted (members : List (String × Json)) :
    depthMembers (Entries.sorted members) ≤ depthMembers members := by
  rw [depthMembers_le]
  intro member found
  exact depthMembers_le.1 (Nat.le_refl _) member (Entries.mem_sorted found)

mutual

theorem depth_canonical (value : Json) : value.canonical.depth ≤ value.depth := by
  cases value with
  | list items => exact Nat.succ_le_succ (depthItems_canonical items)
  | object members =>
    have sorted := depthMembers_sorted (canonicalMembers members)
    exact Nat.succ_le_succ (Nat.le_trans sorted (depthMembers_canonical members))
  | _ => exact Nat.le_refl 0

theorem depthItems_canonical (items : List Json) : depthItems (canonicalItems items) ≤ depthItems items := by
  cases items with
  | nil => exact Nat.le_refl 0
  | cons item items =>
    have first := depth_canonical item
    have others := depthItems_canonical items
    rw [canonicalItems, depthItems, depthItems]
    omega

theorem depthMembers_canonical (members : List (String × Json)) :
    depthMembers (canonicalMembers members) ≤ depthMembers members := by
  cases members with
  | nil => exact Nat.le_refl 0
  | cons member members =>
    have first := depth_canonical member.2
    have others := depthMembers_canonical members
    rw [canonicalMembers, depthMembers, depthMembers]
    omega

end

namespace Reader

variable {α σ : Type}

theorem itemsWithin_all {item : Reader α} {holds : α → Prop}
    (each : ∀ text value rest, item text = .ok (value, rest) → holds value) {bound : List Char}
    {first : Bool} {text rest : List Char} {values : List α}
    (read : itemsWithin item bound first text = .ok (values, rest)) : ∀ value ∈ values, holds value := by
  induction bound generalizing first text values with
  | nil => cases read
  | cons c bound ih =>
    obtain ⟨⟨more, text⟩, -, read⟩ := bind_eq_ok.1 read
    cases more with
    | false =>
      cases read
      exact fun _ => nofun
    | true =>
      obtain ⟨⟨value, text⟩, head, read⟩ := bind_eq_ok.1 read
      obtain ⟨⟨others, text⟩, tail, read⟩ := bind_eq_ok.1 read
      cases read
      rw [List.forall_mem_cons]
      exact ⟨each _ _ _ head, ih tail⟩

theorem membersWithin_all {member : σ → String → Reader σ} {holds : σ → Prop}
    (each : ∀ before name text after rest, member before name text = .ok (after, rest) →
      holds before → holds after) {bound : List Char} {first : Bool} {before after : σ}
    {text rest : List Char} (start : holds before)
    (read : membersWithin member bound first before text = .ok (after, rest)) : holds after := by
  induction bound generalizing first before text with
  | nil => cases read
  | cons c bound ih =>
    obtain ⟨⟨name, text⟩, -, read⟩ := bind_eq_ok.1 read
    cases name with
    | none =>
      cases read
      exact start
    | some name =>
      obtain ⟨⟨state, text⟩, step, read⟩ := bind_eq_ok.1 read
      exact ih (each _ _ _ _ _ step start) read

theorem insideList_ok {content : Reader α} {text rest : List Char} {value : α}
    (read : insideList content text = .ok (value, rest)) :
    ∃ tail, content (text.drop 1) = .ok (value, tail) ∧ endOfList tail = .ok rest := by
  unfold insideList at read
  split at read
  · cases read
  · rename_i inner found
    obtain ⟨_, ending, same⟩ := bind_eq_ok.1 read
    cases same
    exact ⟨_, found, ending⟩

theorem insideObject_ok {content : Reader α} {text rest : List Char} {value : α}
    (read : insideObject content text = .ok (value, rest)) :
    ∃ tail, content (text.drop 1) = .ok (value, tail) ∧ endOfObject tail = .ok rest := by
  unfold insideObject at read
  split at read
  · cases read
  · rename_i inner found
    obtain ⟨_, ending, same⟩ := bind_eq_ok.1 read
    cases same
    exact ⟨_, found, ending⟩

theorem member_depth {depth : Nat}
    (each : ∀ text result rest, value depth text = .ok (result, rest) → result.depth ≤ depth)
    (before : List (String × Json)) (name : String) (text : List Char) (after : List (String × Json))
    (rest : List Char) (read : member (value depth) before name text = .ok (after, rest))
    (start : ∀ entry ∈ before, entry.2.depth ≤ depth) : ∀ entry ∈ after, entry.2.depth ≤ depth := by
  obtain ⟨_, -, read⟩ := bind_eq_ok.1 read
  obtain ⟨⟨result, _⟩, found, read⟩ := bind_eq_ok.1 read
  cases read
  rw [List.forall_mem_cons]
  exact ⟨each _ _ _ found, start⟩

theorem value_depth (depth : Nat) (text : List Char) (result : Json) (rest : List Char)
    (read : value depth text = .ok (result, rest)) : result.depth ≤ depth := by
  induction depth generalizing text result rest with
  | zero =>
    rw [value] at read
    obtain ⟨⟨token, text⟩, -, read⟩ := bind_eq_ok.1 read
    cases token <;> cases read <;> exact Nat.le_refl 0
  | succ depth ih =>
    rw [value] at read
    obtain ⟨⟨token, text⟩, -, read⟩ := bind_eq_ok.1 read
    cases token with
    | list =>
      obtain ⟨⟨values, _⟩, inside, read⟩ := bind_eq_ok.1 read
      cases read
      obtain ⟨_, items, -⟩ := insideList_ok inside
      exact Nat.succ_le_succ (depthItems_le.2 (itemsWithin_all ih items))
    | object =>
      obtain ⟨⟨reversed, _⟩, inside, read⟩ := bind_eq_ok.1 read
      cases read
      obtain ⟨_, members, -⟩ := insideObject_ok inside
      have start : ∀ entry ∈ ([] : List (String × Json)), entry.2.depth ≤ depth := fun _ => nofun
      have entries := membersWithin_all (member_depth ih) start members
      refine Nat.succ_le_succ (depthMembers_le.2 ?_)
      intro entry member
      exact entries entry (List.mem_reverse.1 member)
    | _ =>
      cases read
      exact Nat.zero_le _

end Reader

theorem depth_of_parse {text : String} {result : Json} (parsed : parse text = .ok result) :
    result.depth ≤ depthLimit := by
  unfold parse Reader.whole at parsed
  split at parsed
  · cases parsed
  · rename_i found rest read
    split at parsed
    · cases parsed
      exact Reader.value_depth _ _ _ _ read
    · cases parsed

end Json

end ViewTree
