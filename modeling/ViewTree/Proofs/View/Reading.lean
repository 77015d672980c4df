import ViewTree.Proofs.Json.Containers
import ViewTree.View.Encoding
import ViewTree.View.Reading

namespace ViewTree

namespace Json.Layout

open Reader
open Reading (inside)

variable {α β ν σ : Type} {layout : Layout}

theorem Takes.map {reader : Nat → Reader α} {written : Json} {value : α}
    (taken : layout.Takes reader written value) (f : α → β) :
    layout.Takes (fun depth text => do
      let (value, text) ← reader depth text
      .ok (f value, text)) written (f value) := by
  intro depth blank level rest spaces ends
  exact (taken depth blank level rest spaces ends).map rfl

theorem takes_string (content : String) :
    layout.Takes (fun _ => Reader.string) (.string content) content := by
  intro depth blank level rest spaces _
  have start := startOfValue_quote content rest
  rw [← startOfValue_blank spaces] at start
  simp only [text, Reader.string, start, bind, Except.bind]
  exact .done content rest

theorem takes_boolean (value : Bool) : layout.Takes (fun _ => Reader.boolean) (.boolean value) value := by
  intro depth blank level rest spaces _
  have start : startOfValue (booleanText value ++ rest) = .ok (.boolean value, rest) := by
    cases value <;> rfl
  rw [← startOfValue_blank spaces] at start
  simp only [text, Reader.boolean, start, bind, Except.bind]
  exact .done value rest

theorem takes_listed {content : Nat → Reader α} {written : List Json} {value : α}
    (taken : layout.TakesItems content written value) (wanted : String) :
    layout.Takes (fun depth => Reader.list wanted (inside depth content)) (.list written) value := by
  intro depth blank level rest spaces _
  simp only [text, List.cons_append, Json.depth, Reader.list, startOfValue_list spaces, bind, Except.bind]
  cases depth with
  | zero => exact .tooDeep _ _ _
  | succ depth =>
    obtain ⟨tail, closed, reads⟩ := taken depth level rest
    exact (reads.insideList closed).inner

theorem takes_fields {listed named : Nat → Reader α} {written : List (String × Json)} {value : α}
    (taken : layout.TakesMembers named written value) (wanted : String) :
    layout.Takes (fun depth => Reader.fields wanted (inside depth listed) (inside depth named))
      (.object written) value := by
  intro depth blank level rest spaces _
  simp only [text, List.cons_append, Json.depth, Reader.fields, startOfValue_object spaces, bind,
    Except.bind]
  cases depth with
  | zero => exact .tooDeep _ _ _
  | succ depth =>
    obtain ⟨tail, closed, reads⟩ := taken depth level rest
    exact (reads.insideObject closed).inner

theorem nextItem?_reads {reader : Nat → Reader α} {item : Json} {value : α}
    (taken : layout.Takes reader item value) (depth level : Nat) (first : Bool) (values : List Json)
    (rest : List Char) :
    Reads depth item.depth
      (nextItem? first (reader depth) (layout.items level first (item :: values) ++ rest))
      (some value) (layout.items level false values ++ rest) := by
  have ends := layout.ends_items level values rest
  have reads := taken depth [] (level + 1) _ blank_nil ends
  simp only [nextItem?, nextItem_item]
  refine reads.map ?_
  rfl

theorem requiredItem_reads {reader : Nat → Reader α} {item : Json} {value : α}
    (taken : layout.Takes reader item value) (depth length : Nat) (wanted : String) (level : Nat)
    (values : List Json) (rest : List Char) :
    Reads depth item.depth
      (requiredItem length wanted (reader depth)
        (layout.items level (decide (length = 0)) (item :: values) ++ rest))
      value (layout.items level false values ++ rest) := by
  have reads := nextItem?_reads taken depth level (decide (length = 0)) values rest
  exact reads.map rfl

theorem takes_field {reader : Nat → Reader α} {written : Json} {value : α}
    (taken : layout.Takes reader written value) {member : Nat → σ → String → Reader σ} {before : σ}
    {name : String} {set : α → σ}
    (step : ∀ depth text, member depth before name text = (do
      let (value, text) ← field name none (reader depth) text
      .ok (set value, text))) :
    layout.TakesMember member before name written (set value) := by
  intro depth level rest ends
  have reads := taken depth layout.space level rest layout.space_blank ends
  rw [step]
  exact reads.map rfl

theorem variantName_written {all : List ν} {name : ν → String} {written : String} {v : ν}
    (known : variant all name written = .ok v) (text : List Char) :
    variantName all name (written.toList.flatMap escape ++ '"' :: text) = .ok (v, text) := by
  simp only [variantName, characters_written, known, bind, Except.bind]

theorem takes_bare {all : List ν} {name : ν → String} {bare : ν → Except Cause α} {written : String}
    {v : ν} {value : α} (known : variant all name written = .ok v) (plain : bare v = .ok value)
    (content : Nat → ν → Reader α) :
    layout.Takes (fun depth => tagged all name bare (inside depth content)) (.string written) value := by
  intro depth blank level rest spaces _
  have start : skipSpace (blank ++ (quote written ++ rest)) =
      '"' :: (written.toList.flatMap escape ++ '"' :: rest) := by
    rw [skipSpace_blank spaces, quote_append]
    rfl
  simp only [text, tagged, start, variantName_written known, plain, bind, Except.bind]
  exact .done value rest

theorem takes_tagged {all : List ν} {name : ν → String} {content : Nat → ν → Reader α}
    {written : String} {v : ν} {inner : Json} {value : α} (known : variant all name written = .ok v)
    (taken : layout.Takes (fun depth => content depth v) inner value) (bare : ν → Except Cause α) :
    layout.Takes (fun depth => tagged all name bare (inside depth content))
      (.object [(written, inner)]) value := by
  intro depth blank level rest spaces _
  have dark : isSpace '{' = false := rfl
  have nested : Json.depth (.object [(written, inner)]) = inner.depth + 1 := by
    simp only [Json.depth, depthMembers, Nat.max_zero]
  simp only [text, List.cons_append, nested, tagged, skipSpace_blank_cons spaces dark]
  cases depth with
  | zero => exact .tooDeep _ _ _
  | succ depth =>
    have ends := layout.ends_members level [] rest
    have reads := taken depth layout.space (level + 1) _ layout.space_blank ends
    have ending : endOfVariant (layout.members level false [] ++ rest) = .ok rest := by
      simp only [endOfVariant, members_closed]
    simp only [inside, onlyKey, members_start, variantName_written known, bind, Except.bind, colon_cons]
    refine (reads.map ?_).inner
    simp only [ending]

end Json.Layout

namespace Reading

open Json Layout
open Json.Reader

variable {α β : Type} {layout : Layout}

theorem map_inside (depth : Nat) (reader : Nat → α) (f : α → β) :
    (inside depth reader).map f = inside depth fun depth => f (reader depth) := by
  cases depth <;> rfl

theorem variant_reference (kind : Reference.Kind) :
    variant Reference.Kind.all Reference.Kind.name kind.name = .ok kind := by
  cases kind <;> rfl

theorem variant_value (kind : Value.Kind) :
    variant Value.Kind.all Value.Kind.name kind.name = .ok kind := by
  cases kind <;> rfl

theorem variant_view (kind : View.Kind) : variant View.Kind.all View.Kind.name kind.name = .ok kind := by
  cases kind <;> rfl

theorem takes_reference (place : Reference) : layout.Takes reference place.toJson place := by
  cases place with
  | field name => exact takes_tagged (variant_reference .field) ((takes_string name).map Reference.field) _
  | data =>
    have plain : Reference.bare .data = .ok .data := rfl
    exact takes_bare (variant_reference .data) plain _

theorem takes_value (shown : Value) : layout.Takes value shown.toJson shown := by
  cases shown with
  | reference place =>
    exact takes_tagged (variant_value .reference) ((takes_reference place).map Value.reference) _
  | empty =>
    have plain : Value.bare .empty = .ok .empty := rfl
    exact takes_bare (variant_value .empty) plain _
  | constant text => exact takes_tagged (variant_value .constant) ((takes_string text).map Value.constant) _

theorem takes_pair (declared : String × Value) :
    layout.Takes pair (View.attributeToJson declared) declared := by
  obtain ⟨name, shown⟩ := declared
  apply takes_listed
  intro depth level rest
  refine ⟨layout.items level false [] ++ rest, items_closed layout level false rest, ?_⟩
  have named : layout.Takes (fun _ => Reader.string) (.string name) name := takes_string name
  have valued : layout.Takes value shown.toJson shown := takes_value shown
  have first := requiredItem_reads named depth 0 "a tuple of size 2" level [shown.toJson] rest
  have second := requiredItem_reads valued depth 1 "a tuple of size 2" level [] rest
  rw [depthItems, depthItems, depthItems, Nat.max_zero]
  exact first.bind (second.map rfl)

theorem takes_attributes (declared : List (String × Value)) :
    layout.Takes attributes (.list (declared.map View.attributeToJson)) declared :=
  takes_listed (takes_items fun declared _ => takes_pair declared) _

theorem takes_elementMembers (tag : String) (declared : List (String × Value)) (shown : Value) :
    layout.TakesMembers elementMembers
      [("tag", .string tag), ("attrs", .list (declared.map View.attributeToJson)),
        ("inner_text", shown.toJson)]
      (.element tag declared shown) := by
  have first : layout.TakesMember elementMember .none "tag" (.string tag) ⟨some tag, none, none⟩ := by
    apply takes_field (takes_string tag)
    exact fun _ _ => rfl
  have second : layout.TakesMember elementMember ⟨some tag, none, none⟩ "attrs"
      (.list (declared.map View.attributeToJson)) ⟨some tag, some declared, none⟩ := by
    apply takes_field (takes_attributes declared)
    exact fun _ _ => rfl
  have third : layout.TakesMember elementMember ⟨some tag, some declared, none⟩ "inner_text"
      shown.toJson ⟨some tag, some declared, some shown⟩ := by
    apply takes_field (takes_value shown)
    exact fun _ _ => rfl
  have members := takes_members (.cons first (.cons second (.cons third (.nil _))))
  intro depth level rest
  obtain ⟨tail, closed, reads⟩ := members depth level rest
  exact ⟨tail, closed, reads.map rfl⟩

theorem view_eq : view = fun depth =>
    tagged View.Kind.all View.Kind.name View.bare
      (inside depth fun depth => viewContent (inside depth fun depth => (depth, view depth))) := by
  funext depth
  -- An object and what it holds take two brackets, so the recursion goes down by two.
  match depth with
  | 0 => rfl
  | 1 => rfl
  | _ + 2 => rfl

theorem takes_listMembers (numbered : Bool) (source : Reference) {item : View}
    (taken : layout.Takes view item.toJson item) :
    layout.TakesMembers (fun depth => listMembers (view depth) depth)
      [("numbered", .boolean numbered), ("inner_data", source.toJson), ("item_code", item.toJson)]
      (.list numbered source item) := by
  have first : layout.TakesMember (fun depth => listMember (view depth) depth) .none "numbered"
      (.boolean numbered) ⟨some numbered, none, none⟩ := by
    apply takes_field (takes_boolean numbered)
    exact fun _ _ => rfl
  have second : layout.TakesMember (fun depth => listMember (view depth) depth)
      ⟨some numbered, none, none⟩ "inner_data" source.toJson ⟨some numbered, some source, none⟩ := by
    apply takes_field (takes_reference source)
    exact fun _ _ => rfl
  have third : layout.TakesMember (fun depth => listMember (view depth) depth)
      ⟨some numbered, some source, none⟩ "item_code" item.toJson ⟨some numbered, some source, some item⟩ := by
    apply takes_field taken
    exact fun _ _ => rfl
  have members := takes_members (.cons first (.cons second (.cons third (.nil _))))
  intro depth level rest
  obtain ⟨tail, closed, reads⟩ := members depth level rest
  exact ⟨tail, closed, reads.map rfl⟩

theorem toJsonItems_eq_map (items : List View) : View.toJsonItems items = items.map View.toJson := by
  induction items with
  | nil => rfl
  | cons item items ih => rw [View.toJsonItems, ih, List.map_cons]

mutual

theorem takes_view (shown : View) : layout.Takes view shown.toJson shown := by
  rw [view_eq]
  cases shown with
  | element tag declared text =>
    apply takes_tagged (variant_view .element)
    simp only [viewContent, map_inside]
    exact takes_fields (takes_elementMembers tag declared text) _
  | list numbered source item =>
    apply takes_tagged (variant_view .list)
    simp only [viewContent, map_inside]
    exact takes_fields (takes_listMembers numbered source (takes_view item)) _
  | sequence items =>
    apply takes_tagged (variant_view .sequence)
    have listed : layout.Takes _ (.list (items.map View.toJson)) items :=
      takes_listed (takes_items (takes_views items)) "a sequence"
    rw [toJsonItems_eq_map]
    simp only [viewContent, map_inside]
    exact listed.map View.sequence
  | hole =>
    have plain : View.bare .hole = .ok .hole := rfl
    exact takes_bare (variant_view .hole) plain _

theorem takes_views (items : List View) : ∀ item ∈ items, layout.Takes view item.toJson item := by
  cases items with
  | nil => nofun
  | cons item items =>
    rw [List.forall_mem_cons]
    exact ⟨takes_view item, takes_views items⟩

end

end Reading

end ViewTree
