import ViewTree.Json.Reader.Container
import ViewTree.Proofs.Json.Layout

namespace ViewTree.Json

namespace Reader

variable {α β σ : Type} {depth needed more : Nat}

/-- How a reading ends that opens `needed` brackets inside one another, where `depth` may be opened. -/
inductive Reads (depth needed : Nat) (outcome : Except Fault (α × List Char)) (value : α)
    (rest : List Char) : Prop
  | fits (enough : needed ≤ depth) (read : outcome = .ok (value, rest))
  | deep (tooMany : depth < needed) (left : Nat)
    (failed : outcome = .error (.placed (.malformed .tooDeep) left))

namespace Reads

variable {value : α} {result : β} {rest rest' : List Char}

theorem done (value : α) (rest : List Char) : Reads depth 0 (.ok (value, rest)) value rest :=
  .fits (Nat.zero_le depth) rfl

theorem tooDeep (value : α) (text rest : List Char) :
    Reads 0 (needed + 1) (.error (Flaw.tooDeep.on text)) value rest :=
  .deep (Nat.succ_pos needed) _ rfl

theorem inner {outcome : Except Fault (α × List Char)} (reads : Reads depth needed outcome value rest) :
    Reads (depth + 1) (needed + 1) outcome value rest := by
  cases reads with
  | fits enough read => exact .fits (Nat.succ_le_succ enough) read
  | deep tooMany left failed => exact .deep (Nat.succ_lt_succ tooMany) left failed

theorem bind {outcome : Except Fault (α × List Char)} {next : α × List Char → Except Fault (β × List Char)}
    (first : Reads depth needed outcome value rest)
    (second : Reads depth more (next (value, rest)) result rest') :
    Reads depth (max needed more) (outcome >>= next) result rest' := by
  cases first with
  | fits enough read =>
    subst read
    cases second with
    | fits enough' read => exact .fits (Nat.max_le.2 ⟨enough, enough'⟩) read
    | deep tooMany left failed => exact .deep (Nat.lt_of_lt_of_le tooMany (Nat.le_max_right ..)) left failed
  | deep tooMany left failed =>
    subst failed
    exact .deep (Nat.lt_of_lt_of_le tooMany (Nat.le_max_left ..)) left rfl

theorem map {outcome : Except Fault (α × List Char)} {next : α × List Char → Except Fault (β × List Char)}
    (first : Reads depth needed outcome value rest) (second : next (value, rest) = .ok (result, rest')) :
    Reads depth needed (outcome >>= next) result rest' := by
  have last : Reads depth 0 (next (value, rest)) result rest' := .fits (Nat.zero_le depth) second
  have both := first.bind last
  rwa [Nat.max_zero] at both

theorem insideList {content : Reader α} {text tail : List Char}
    (reads : Reads depth needed (content text) value tail) (closed : skipSpace tail = ']' :: rest) :
    Reads depth needed (Reader.insideList content ('[' :: text)) value rest := by
  have ending : endOfList tail = .ok rest := by simp only [endOfList, closed]
  cases reads with
  | fits enough read =>
    refine .fits enough ?_
    simp only [Reader.insideList, List.drop_one, List.tail_cons, read, ending]
    rfl
  | deep tooMany left failed =>
    refine .deep tooMany left ?_
    simp only [Reader.insideList, List.drop_one, List.tail_cons, failed, settle]

theorem insideObject {content : Reader α} {text tail : List Char}
    (reads : Reads depth needed (content text) value tail) (closed : skipSpace tail = '}' :: rest) :
    Reads depth needed (Reader.insideObject content ('{' :: text)) value rest := by
  have ending : endOfObject tail = .ok rest := by simp only [endOfObject, closed]
  cases reads with
  | fits enough read =>
    refine .fits enough ?_
    simp only [Reader.insideObject, List.drop_one, List.tail_cons, read, ending]
    rfl
  | deep tooMany left failed =>
    refine .deep tooMany left ?_
    simp only [Reader.insideObject, List.drop_one, List.tail_cons, failed, settle]

theorem whole {reader : Reader α} {text : List Char} (reads : Reads depth needed (reader text) value []) :
    if needed ≤ depth then Reader.whole reader text = .ok value
    else ∃ position, Reader.whole reader text = .error ⟨.malformed .tooDeep, position⟩ := by
  cases reads with
  | fits enough read =>
    rw [if_pos enough]
    simp only [Reader.whole, read]
    rfl
  | deep tooMany left failed =>
    rw [if_neg (Nat.not_le.2 tooMany)]
    simp only [Reader.whole, failed]
    exact ⟨_, rfl⟩

end Reads

end Reader

namespace Layout

open Reader

variable {α σ : Type} (layout : Layout)

theorem items_closed (level : Nat) (first : Bool) (rest : List Char) :
    skipSpace (layout.items level first [] ++ rest) = ']' :: rest := by
  rw [items, List.append_assoc, skipSpace_blank (layout.blank_closing level first)]
  rfl

theorem nextItem_end (level : Nat) (first : Bool) (rest : List Char) :
    nextItem first (layout.items level first [] ++ rest) = .ok (false, ']' :: rest) := by
  simp only [nextItem, items_closed]

theorem nextItem_item (level : Nat) (first : Bool) (item : Json) (values : List Json) (rest : List Char) :
    nextItem first (layout.items level first (item :: values) ++ rest) =
      .ok (true, layout.text (level + 1) item ++ (layout.items level false values ++ rest)) := by
  obtain ⟨c, text, written, dark, notEnd⟩ := layout.text_cons (level + 1) item
  have start : skipSpace (layout.gap (level + 1) ++ (layout.text (level + 1) item ++
      (layout.items level false values ++ rest))) =
        layout.text (level + 1) item ++ (layout.items level false values ++ rest) := by
    rw [skipSpace_blank (layout.gap_blank (level + 1)), written, List.cons_append, skipSpace_cons dark]
  rw [items, List.append_assoc, List.append_assoc]
  rw [written, List.cons_append] at start ⊢
  cases first with
  | true =>
    simp only [opening, if_true, nextItem, start]
  | false =>
    have comma : isSpace ',' = false := rfl
    simp only [opening, Bool.false_eq_true, if_false, List.cons_append, nextItem,
      skipSpace_cons comma, Char.reduceEq, imp_self, if_true, start]
    split
    · rename_i same
      cases same
    · rename_i same
      exact absurd (List.cons.inj same).1 notEnd
    · rfl

theorem members_closed (level : Nat) (first : Bool) (rest : List Char) :
    skipSpace (layout.members level first [] ++ rest) = '}' :: rest := by
  rw [members, List.append_assoc, skipSpace_blank (layout.blank_closing level first)]
  rfl

theorem nextKey_end (level : Nat) (first : Bool) (rest : List Char) :
    nextKey first (layout.members level first [] ++ rest) = .ok (none, '}' :: rest) := by
  simp only [nextKey, members_closed]

theorem members_start (level : Nat) (key : String) (value : Json) (entries : List (String × Json))
    (rest : List Char) :
    skipSpace (layout.members level true ((key, value) :: entries) ++ rest) =
      '"' :: (key.toList.flatMap escape ++ '"' :: ':' :: (layout.space ++
        (layout.text (level + 1) value ++ (layout.members level false entries ++ rest)))) := by
  rw [members, List.append_assoc, skipSpace_blank (layout.blank_opening level)]
  simp only [List.append_assoc, List.cons_append, quote_append]
  rfl

theorem nextKey_member (level : Nat) (first : Bool) (key : String) (value : Json)
    (entries : List (String × Json)) (rest : List Char) :
    nextKey first (layout.members level first ((key, value) :: entries) ++ rest) =
      .ok (some key, ':' :: (layout.space ++ (layout.text (level + 1) value ++
        (layout.members level false entries ++ rest)))) := by
  have start (text : List Char) :
      skipSpace (layout.gap (level + 1) ++ (quote key ++ text)) =
        '"' :: (key.toList.flatMap escape ++ '"' :: text) := by
    rw [skipSpace_blank (layout.gap_blank (level + 1)), quote_append]
    rfl
  rw [members]
  simp only [List.append_assoc, List.cons_append]
  have read (text : List Char) :
      Reader.key ('"' :: (key.toList.flatMap escape ++ '"' :: text)) = .ok (key, text) :=
    characters_written key text
  cases first with
  | true =>
    simp only [opening, if_true, nextKey, start, Char.reduceEq, imp_self, read, bind, Except.bind]
  | false =>
    have comma : isSpace ',' = false := rfl
    simp only [opening, Bool.false_eq_true, if_false, List.cons_append, nextKey,
      skipSpace_cons comma, List.cons.injEq, Char.reduceEq, false_and, imp_self, implies_true, if_true,
      start, read, bind, Except.bind]

theorem colon_cons (text : List Char) : colon (':' :: text) = .ok text := rfl

/-- The value is read off the written text, wherever that stands. -/
def Takes (reader : Nat → Reader α) (written : Json) (value : α) : Prop :=
  ∀ depth blank level rest, Blank blank → Ends rest →
    Reads depth written.depth (reader depth (blank ++ (layout.text level written ++ rest))) value rest

def TakesItems (content : Nat → Reader α) (written : List Json) (value : α) : Prop :=
  ∀ depth level rest, ∃ tail, skipSpace tail = ']' :: rest ∧
    Reads depth (depthItems written) (content depth (layout.items level true written ++ rest)) value tail

def TakesMembers (content : Nat → Reader α) (written : List (String × Json)) (value : α) : Prop :=
  ∀ depth level rest, ∃ tail, skipSpace tail = '}' :: rest ∧
    Reads depth (depthMembers written) (content depth (layout.members level true written ++ rest)) value tail

def TakesMember (member : Nat → σ → String → Reader σ) (before : σ) (key : String) (written : Json)
    (after : σ) : Prop :=
  ∀ depth level rest, Ends rest →
    Reads depth written.depth
      (member depth before key (':' :: (layout.space ++ (layout.text level written ++ rest)))) after rest

inductive TakesEach (member : Nat → σ → String → Reader σ) : σ → List (String × Json) → σ → Prop
  | nil (state : σ) : TakesEach member state [] state
  | cons {before state after : σ} {key : String} {written : Json} {entries : List (String × Json)}
    (first : layout.TakesMember member before key written state)
    (others : TakesEach member state entries after) :
    TakesEach member before ((key, written) :: entries) after

variable {layout}

theorem itemsWithin_reads {write : α → Json} {item : Nat → Reader α} {values : List α}
    (each : ∀ value ∈ values, layout.Takes item (write value) value) (depth level : Nat)
    {bound : List Char} (enough : values.length < bound.length) (first : Bool) (rest : List Char) :
    Reads depth (depthItems (values.map write))
      (itemsWithin (item depth) bound first (layout.items level first (values.map write) ++ rest))
      values (']' :: rest) := by
  -- The bound has a character for each item and one more, so it never runs out before the bracket.
  induction values generalizing bound first with
  | nil =>
    obtain ⟨c, bound, rfl⟩ := List.exists_cons_of_length_pos enough
    simp only [List.map_nil, itemsWithin, nextItem_end, bind, Except.bind]
    exact .done [] _
  | cons value values ih =>
    obtain ⟨c, bound, rfl⟩ := List.exists_cons_of_length_pos (Nat.zero_lt_of_lt enough)
    rw [List.length_cons, List.length_cons] at enough
    rw [List.forall_mem_cons] at each
    have ends := layout.ends_items level (values.map write) rest
    have head := each.1 depth [] (level + 1) _ blank_nil ends
    have tail := ih each.2 (Nat.lt_of_succ_lt_succ enough) false
    simp only [List.map_cons, itemsWithin, nextItem_item]
    exact head.bind (tail.map rfl)

theorem takes_items {write : α → Json} {item : Nat → Reader α} {values : List α}
    (each : ∀ value ∈ values, layout.Takes item (write value) value) :
    layout.TakesItems (fun depth => Reader.items (item depth)) (values.map write) values := by
  intro depth level rest
  refine ⟨']' :: rest, rfl, itemsWithin_reads each depth level ?_ true rest⟩
  have shorter := layout.length_items level true (values.map write)
  rw [List.length_map] at shorter
  rw [List.length_append]
  omega

theorem membersWithin_reads {member : Nat → σ → String → Reader σ} {start final : σ}
    {entries : List (String × Json)} (each : layout.TakesEach member start entries final)
    (depth level : Nat) {bound : List Char} (enough : entries.length < bound.length) (first : Bool)
    (rest : List Char) :
    Reads depth (depthMembers entries)
      (membersWithin (member depth) bound first start (layout.members level first entries ++ rest))
      final ('}' :: rest) := by
  -- On the steps that the members take: each hands its state to the next.
  induction each generalizing bound first with
  | nil state =>
    obtain ⟨c, bound, rfl⟩ := List.exists_cons_of_length_pos enough
    simp only [membersWithin, nextKey_end, bind, Except.bind]
    exact .done state _
  | @cons _ _ _ _ _ entries taken _ ih =>
    obtain ⟨c, bound, rfl⟩ := List.exists_cons_of_length_pos (Nat.zero_lt_of_lt enough)
    rw [List.length_cons, List.length_cons] at enough
    have ends := layout.ends_members level entries rest
    have head := taken depth (level + 1) _ ends
    have tail := ih (Nat.lt_of_succ_lt_succ enough) false
    simp only [membersWithin, nextKey_member]
    exact head.bind tail

theorem takes_members {member : Nat → σ → String → Reader σ} {start final : σ}
    {entries : List (String × Json)} (each : layout.TakesEach member start entries final) :
    layout.TakesMembers (fun depth => Reader.members (member depth) start) entries final := by
  intro depth level rest
  refine ⟨'}' :: rest, rfl, membersWithin_reads each depth level ?_ true rest⟩
  have shorter := layout.length_members level true entries
  rw [List.length_append]
  omega

end Layout

end ViewTree.Json
