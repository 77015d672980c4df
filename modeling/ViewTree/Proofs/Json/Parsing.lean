import ViewTree.Json.Reader.Tree
import ViewTree.Proofs.Json.Containers

namespace ViewTree.Json

open Reader

mutual

/-- All numbers are read from their own text. -/
def Legible : Json → Prop
  | .number value => value.ReadsBack
  | .list values => LegibleItems values
  | .object entries => LegibleMembers entries
  | _ => True

def LegibleItems : List Json → Prop
  | [] => True
  | item :: values => Legible item ∧ LegibleItems values

def LegibleMembers : List (String × Json) → Prop
  | [] => True
  | (_, value) :: entries => Legible value ∧ LegibleMembers entries

end

namespace Layout

variable {layout : Layout}

theorem takes_scalar {written : Json} (flat : written.depth = 0)
    (start : ∀ level rest, Ends rest →
      startOfValue (layout.text level written ++ rest) = .ok (written.token, rest))
    (scalar : ∀ depth text rest, startOfValue text = .ok (written.token, rest) →
      value depth text = .ok (written, rest)) :
    layout.Takes value written written := by
  intro depth blank level rest spaces ends
  have found := start level rest ends
  rw [← startOfValue_blank spaces] at found
  rw [flat, scalar depth _ _ found]
  exact .done written rest

theorem takes_list {values : List Json} (each : ∀ item ∈ values, layout.Takes value item item) :
    layout.Takes value (.list values) (.list values) := by
  intro depth blank level rest spaces ends
  have items : layout.TakesItems (fun depth => Reader.items (value depth)) (values.map id) values :=
    takes_items each
  rw [List.map_id] at items
  rw [text, List.cons_append, Json.depth]
  cases depth with
  | zero =>
    rw [value, startOfValue_list spaces]
    exact .tooDeep _ _ _
  | succ depth =>
    rw [value, startOfValue_list spaces]
    obtain ⟨tail, closed, reads⟩ := items depth level rest
    refine ((reads.insideList closed).map ?_).inner
    rfl

theorem takes_object {entries : List (String × Json)}
    (each : layout.TakesEach (fun depth => member (value depth)) [] entries entries.reverse) :
    layout.Takes value (.object entries) (.object entries) := by
  intro depth blank level rest spaces ends
  have members := takes_members each
  rw [text, List.cons_append, Json.depth]
  cases depth with
  | zero =>
    rw [value, startOfValue_object spaces]
    exact .tooDeep _ _ _
  | succ depth =>
    rw [value, startOfValue_object spaces]
    obtain ⟨tail, closed, reads⟩ := members depth level rest
    refine ((reads.insideObject closed).map ?_).inner
    simp only [List.reverse_reverse]

mutual

theorem takes_value (written : Json) (legible : written.Legible) : layout.Takes value written written := by
  cases written with
  | null => exact takes_scalar rfl (fun _ _ _ => rfl) fun depth text rest found => by rw [value, found]; rfl
  | boolean truth =>
    refine takes_scalar rfl ?_ fun depth text rest found => by rw [value, found]; rfl
    intro level rest _
    cases truth <;> rfl
  | number number =>
    refine takes_scalar rfl ?_ fun depth text rest found => by rw [value, found]; rfl
    intro level rest ends
    exact startOfValue_number legible ends
  | string content =>
    refine takes_scalar rfl ?_ fun depth text rest found => by rw [value, found]; rfl
    intro level rest _
    exact startOfValue_quote content rest
  | list values => exact takes_list (takes_each_item values legible)
  | object entries =>
    have each := takes_each_member entries legible []
    rw [List.append_nil] at each
    exact takes_object each

theorem takes_each_item (values : List Json) (legible : LegibleItems values) :
    ∀ item ∈ values, layout.Takes value item item := by
  cases values with
  | nil => nofun
  | cons item values =>
    rw [List.forall_mem_cons]
    exact ⟨takes_value item legible.1, takes_each_item values legible.2⟩

theorem takes_each_member (entries : List (String × Json)) (legible : LegibleMembers entries)
    (before : List (String × Json)) :
    layout.TakesEach (fun depth => member (value depth)) before entries (entries.reverse ++ before) := by
  cases entries with
  | nil => exact .nil before
  | cons entry entries =>
    obtain ⟨key, written⟩ := entry
    -- What is read so far is held in reverse, the latest member first.
    have others := takes_each_member entries legible.2 ((key, written) :: before)
    rw [List.reverse_cons, List.append_assoc, List.singleton_append]
    refine .cons ?_ others
    intro depth level rest ends
    have reads := takes_value written legible.1 depth layout.space level rest layout.space_blank ends
    simp only [member, colon_cons]
    exact reads.map rfl

end

end Layout

/-- A written value is parsed as itself, or nests too deep. -/
theorem parse_text (layout : Layout) (written : Json) (legible : written.Legible) :
    if written.depth ≤ depthLimit then parse (String.ofList (layout.text 0 written)) = .ok written
    else ∃ position, parse (String.ofList (layout.text 0 written)) =
      .error ⟨.malformed .tooDeep, position⟩ := by
  have taken : layout.Takes value written written := Layout.takes_value written legible
  have reads := taken depthLimit [] 0 [] blank_nil ends_nil
  rw [List.nil_append, List.append_nil] at reads
  rw [parse, String.toList_ofList]
  exact reads.whole

end ViewTree.Json
