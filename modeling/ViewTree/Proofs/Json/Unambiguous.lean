import ViewTree.Proofs.Json.Containers
import ViewTree.Proofs.Number.Texts

namespace ViewTree.Json

open Reader

inductive Form where
  | null
  | boolean
  | number
  | string
  | list
  | object

def Form.ofInitial (c : Char) : Form :=
  if c = 'n' then .null
  else if c = 't' ∨ c = 'f' then .boolean
  else if c = '"' then .string
  else if c = '[' then .list
  else if c = '{' then .object
  else .number

def form : Json → Form
  | .null => .null
  | .boolean _ => .boolean
  | .number _ => .number
  | .string _ => .string
  | .list _ => .list
  | .object _ => .object

theorem Form.ofInitial_numeral {c : Char} (first : c = '-' ∨ c.isDigit = true) : Form.ofInitial c = .number := by
  have plain := plain_of_numeral first
  simp only [List.forall_mem_cons] at plain
  obtain ⟨notNull, notTrue, notFalse, notQuote, notList, notObject, -⟩ := plain
  simp only [ofInitial, notNull, notTrue, notFalse, notQuote, notList, notObject, or_self, if_false]

theorem booleanText_append_inj {truth truth' : Bool} {rest rest' : List Char}
    (same : booleanText truth ++ rest = booleanText truth' ++ rest') : truth = truth' ∧ rest = rest' := by
  cases truth <;> cases truth' <;> cases same <;> exact ⟨rfl, rfl⟩

theorem quote_append_inj {content content' : String} {rest rest' : List Char}
    (same : quote content ++ rest = quote content' ++ rest') : content = content' ∧ rest = rest' := by
  have read := startOfValue_quote content rest
  rw [same, startOfValue_quote] at read
  cases read
  exact ⟨rfl, rfl⟩

namespace Layout

variable (layout : Layout)

theorem initial_text (level : Nat) (value : Json) :
    ∃ c text, layout.text level value = c :: text ∧ Form.ofInitial c = value.form := by
  cases value with
  | boolean truth => cases truth <;> exact ⟨_, _, rfl, rfl⟩
  | number number =>
    obtain ⟨c, text, written, first⟩ := number.text_cons
    exact ⟨c, text, written, Form.ofInitial_numeral first⟩
  | _ => exact ⟨_, _, rfl, rfl⟩

theorem form_eq {level : Nat} {value other : Json} {rest rest' : List Char}
    (same : layout.text level value ++ rest = layout.text level other ++ rest') : value.form = other.form := by
  obtain ⟨c, text, written, initial⟩ := layout.initial_text level value
  obtain ⟨c', text', written', initial'⟩ := layout.initial_text level other
  rw [written, written'] at same
  obtain rfl := (List.cons.inj same).1
  exact initial.symm.trans initial'

mutual

/-- Values that are written alike are the same, and what stands behind them is. -/
theorem text_append_inj (level : Nat) (value other : Json) {rest rest' : List Char} (ends : Ends rest)
    (ends' : Ends rest') (same : layout.text level value ++ rest = layout.text level other ++ rest') :
    value = other ∧ rest = rest' := by
  -- The first character leaves only values of the same form.
  have forms := layout.form_eq same
  cases value with
  | null =>
    cases other <;> cases forms
    exact ⟨rfl, List.append_cancel_left same⟩
  | boolean truth =>
    cases other <;> cases forms
    obtain ⟨rfl, left⟩ := booleanText_append_inj same
    exact ⟨rfl, left⟩
  | number number =>
    cases other <;> cases forms
    obtain ⟨rfl, left⟩ := Number.text_append_inj ends ends' same
    exact ⟨rfl, left⟩
  | string content =>
    cases other <;> cases forms
    obtain ⟨rfl, left⟩ := quote_append_inj same
    exact ⟨rfl, left⟩
  | list values =>
    cases other <;> cases forms
    obtain ⟨rfl, left⟩ := items_append_inj level true values _ (List.cons.inj same).2
    exact ⟨rfl, left⟩
  | object entries =>
    cases other <;> cases forms
    obtain ⟨rfl, left⟩ := members_append_inj level true entries _ (List.cons.inj same).2
    exact ⟨rfl, left⟩

theorem items_append_inj (level : Nat) (first : Bool) (values others : List Json) {rest rest' : List Char}
    (same : layout.items level first values ++ rest = layout.items level first others ++ rest') :
    values = others ∧ rest = rest' := by
  -- What is read next is a closing bracket on both sides, or an item on both.
  have next := congrArg (nextItem first) same
  cases values with
  | nil =>
    cases others with
    | nil => exact ⟨rfl, List.append_cancel_left same⟩
    | cons other others =>
      rw [nextItem_end, nextItem_item] at next
      cases next
  | cons item values =>
    cases others with
    | nil =>
      rw [nextItem_end, nextItem_item] at next
      cases next
    | cons other others =>
      rw [nextItem_item, nextItem_item] at next
      obtain ⟨rfl, behind⟩ := text_append_inj (level + 1) item other (layout.ends_items level values rest)
        (layout.ends_items level others rest') (Prod.mk.inj (Except.ok.inj next)).2
      obtain ⟨rfl, left⟩ := items_append_inj level false values others behind
      exact ⟨rfl, left⟩

theorem members_append_inj (level : Nat) (first : Bool) (entries others : List (String × Json))
    {rest rest' : List Char}
    (same : layout.members level first entries ++ rest = layout.members level first others ++ rest') :
    entries = others ∧ rest = rest' := by
  have next := congrArg (nextKey first) same
  cases entries with
  | nil =>
    cases others with
    | nil => exact ⟨rfl, List.append_cancel_left same⟩
    | cons other others =>
      obtain ⟨key, value⟩ := other
      rw [nextKey_end, nextKey_member] at next
      cases next
  | cons entry entries =>
    obtain ⟨key, value⟩ := entry
    cases others with
    | nil =>
      rw [nextKey_end, nextKey_member] at next
      cases next
    | cons other others =>
      obtain ⟨key', value'⟩ := other
      rw [nextKey_member, nextKey_member] at next
      obtain ⟨keys, later⟩ := Prod.mk.inj (Except.ok.inj next)
      obtain rfl := Option.some.inj keys
      obtain ⟨rfl, behind⟩ := text_append_inj (level + 1) value value' (layout.ends_members level entries rest)
        (layout.ends_members level others rest') (List.append_cancel_left (List.cons.inj later).2)
      obtain ⟨rfl, left⟩ := members_append_inj level false entries others behind
      exact ⟨rfl, left⟩

end

end Layout

theorem indentedText_injective : Function.Injective indentedText := by
  intro value other same
  have written := String.ofList_inj.1 same
  rw [Layout.indented_eq, Layout.indented_eq] at written
  exact (Layout.wide.text_append_inj 0 value other ends_nil ends_nil (congrArg (· ++ []) written)).1

end ViewTree.Json
