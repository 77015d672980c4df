import ViewTree.Proofs.View.Direct

namespace ViewTree

open Json (Written)
open Json.Written (Tells MembersMean named)
open Entries (Optional Run Slot)

theorem Json.asString_canonical (value : Json) : value.canonical.asString = value.asString := by
  cases value <;> rfl

theorem Json.asBoolean_canonical (value : Json) : value.canonical.asBoolean = value.asBoolean := by
  cases value <;> rfl

theorem Reference.PresentedBy.canonical_eq {place : Reference} {value : Json}
    (presented : place.PresentedBy value) : value.canonical = value := by
  cases presented <;> rfl

theorem Value.PresentedBy.canonical_eq {shown : Value} {value : Json} (presented : shown.PresentedBy value) :
    value.canonical = value := by
  cases presented with
  | @reference _ value presented =>
    have same := presented.canonical_eq
    show Json.object [("reference", value.canonical)] = _
    rw [same]
  | _ => rfl

theorem View.AttributePresentedBy.canonical_eq {declared : String × Value} {value : Json}
    (presented : AttributePresentedBy declared value) : value.canonical = value := by
  cases presented with
  | @pair name _ value presented =>
    have same := presented.canonical_eq
    show Json.list [.string name, value.canonical] = _
    rw [same]

theorem View.canonicalItems_attributes {declared : List (String × Value)} {values : List Json}
    (each : List.Forall₂ AttributePresentedBy declared values) : Json.canonicalItems values = values := by
  induction each with
  | nil => rfl
  | cons first _ ih => rw [Json.canonicalItems, first.canonical_eq, ih]

theorem Reference.ofJson_canonical_eq_ok {value : Json} {place : Reference} (read : ofJson value = .ok place) :
    ofJson value.canonical = .ok place := by
  rw [(ofJson_eq_ok.1 read).canonical_eq, read]

theorem Value.ofJson_canonical_eq_ok {value : Json} {shown : Value} (read : ofJson value = .ok shown) :
    ofJson value.canonical = .ok shown := by
  rw [(ofJson_eq_ok.1 read).canonical_eq, read]

theorem View.attributesOfJson_canonical_eq_ok {value : Json} {declared : List (String × Value)}
    (read : attributesOfJson value = .ok declared) : attributesOfJson value.canonical = .ok declared := by
  obtain ⟨values, rfl, each⟩ := attributesOfJson_eq_ok.1 read
  rw [Json.canonical, canonicalItems_attributes each, read]

namespace Json.Written

/-- The value stands where a view is looked for in the root. -/
inductive ViewAt (root : Written) : Written → Prop
  | root : ViewAt root root
  | item {values : List Written} {value : Written} (outer : ViewAt root (.object [(some "sequence", .list values)]))
    (member : value ∈ values) : ViewAt root value
  | code {members : List (Option String × Written)} {value : Written}
    (outer : ViewAt root (.object [(some "html_list", .object members)]))
    (member : (some "item_code", value) ∈ members) : ViewAt root value

theorem ViewAt.trans {root inner value : Written} (outer : ViewAt root inner) (place : ViewAt inner value) :
    ViewAt root value := by
  induction place with
  | root => exact outer
  | item _ member ih => exact .item ih member
  | code _ member ih => exact .code ih member

/-- An object of no other fields than the known ones. -/
def OnlyFields (known : List String) (payload : Written) : Prop :=
  ∃ members, payload = .object members ∧ ∀ key value, (key, value) ∈ members → ∃ name ∈ known, key = some name

/-- What stands beside the name of an element or a list is an object of known fields. -/
structure Plain (root : Written) : Prop where
  element : ∀ {payload}, ViewAt root (.object [(some "html_element", payload)]) →
    payload.OnlyFields ["tag", "attrs", "inner_text"]
  list : ∀ {payload}, ViewAt root (.object [(some "html_list", payload)]) →
    payload.OnlyFields ["numbered", "inner_data", "item_code"]

theorem Plain.at {root value : Written} (plain : Plain root) (place : ViewAt root value) : Plain value where
  element inner := plain.element (place.trans inner)
  list inner := plain.list (place.trans inner)

theorem Plain.item {values : List Written} (plain : Plain (.object [(some "sequence", .list values)])) :
    ∀ value ∈ values, Plain value :=
  fun _ member => plain.at (.item .root member)

end Json.Written

namespace Json.Written.MembersMean

variable {entries : List (String × Written)} {values : List (String × Json)} {key : String}

variable {α σ : Type} {step : σ → String × Written → σ → Prop} {get : σ → Option α} {before after : σ}

theorem filled {takes : Written → α → Prop} {takes' : Json → α → Prop} (mean : MembersMean entries values)
    (slot : Slot step key get takes) (run : Run step before entries after) (empty : get before = none)
    (same : ∀ {written value taken}, Entries.last? key entries = some written → written.value? = some value →
      takes written taken → takes' value.canonical taken) :
    Optional (Entries.sorted (canonicalMembers values)) key (get after = none)
      fun value => ∃ taken, takes' value taken ∧ get after = some taken := by
  have last := slot.last run
  rw [Optional, mean.find?_eq]
  cases found : Entries.last? key entries with
  | none =>
    rw [found] at last
    exact last.trans empty
  | some written =>
    rw [found] at last
    obtain ⟨value, means⟩ := mean.value?_of_last? found
    obtain ⟨taken, takes, given⟩ := last
    rw [Option.bind_some, means]
    exact ⟨taken, same found means takes, given⟩

theorem filled_tells {decode : Json → Except Cause α} (mean : MembersMean entries values)
    (slot : Slot step key get (Tells decode)) (run : Run step before entries after) (empty : get before = none)
    (same : ∀ {value said}, decode value = .ok said → decode value.canonical = .ok said) :
    Optional (Entries.sorted (canonicalMembers values)) key (get after = none)
      fun value => ∃ taken, decode value = .ok taken ∧ get after = some taken := by
  refine mean.filled slot run empty ?_
  rintro written value taken - means ⟨value', means', told⟩
  rw [means] at means'
  cases means'
  exact same told

end Json.Written.MembersMean

namespace View

theorem element_presented {entries : List (String × Written)} {values : List (String × Json)} {parts : ElementParts}
    {view : View} (mean : MembersMean entries values)
    (run : Run (ElementStep True (Tells Json.asString) (Tells attributesOfJson) (Tells Value.ofJson)) .none entries parts)
    (made : parts.view = .ok view) :
    view.PresentedBy (.object [("html_element", .object (Entries.sorted (Json.canonicalMembers values)))]) := by
  obtain ⟨tag, given, rfl⟩ := ElementParts.view_eq_ok.1 made
  have tags := mean.filled_tells ElementStep.tag_slot run rfl (by rintro value said told; rwa [Json.asString_canonical])
  have attributes := mean.filled_tells ElementStep.attributes_slot run rfl attributesOfJson_canonical_eq_ok
  have texts := mean.filled_tells ElementStep.text_slot run rfl Value.ofJson_canonical_eq_ok
  obtain ⟨value, found, told⟩ := tags.required given
  rw [Json.asString_eq_ok.1 told] at found
  refine .element found ((attributes.default []).imp id ?_) ((texts.default .empty).imp id ?_)
  · exact fun value told => attributesOfJson_eq_ok.1 told
  · exact fun value told => Value.ofJson_eq_ok.1 told

theorem list_presented {entries : List (String × Written)} {values : List (String × Json)} {parts : ListParts}
    {view : View} (mean : MembersMean entries values)
    (run : Run (ListStep True (Tells Json.asBoolean) (Tells Reference.ofJson) fun value view => WrittenAs view value)
      .none entries parts)
    (made : parts.view = .ok view)
    (inner : ∀ {written value item}, Entries.last? "item_code" entries = some written →
      written.value? = some value → WrittenAs item written → item.PresentedBy value.canonical) :
    view.PresentedBy (.object [("html_list", .object (Entries.sorted (Json.canonicalMembers values)))]) := by
  obtain ⟨place, code, first, second, rfl⟩ := ListParts.view_eq_ok.1 made
  have marks := mean.filled_tells ListStep.numbered_slot run rfl
    (by rintro value said told; rwa [Json.asBoolean_canonical])
  have sources := mean.filled_tells ListStep.source_slot run rfl Reference.ofJson_canonical_eq_ok
  have items : Optional _ "item_code" _ fun value => ∃ item : View, item.PresentedBy value ∧ parts.item = some item :=
    mean.filled ListStep.item_slot run rfl inner
  obtain ⟨source, sourceAt, told⟩ := sources.required first
  obtain ⟨item, itemAt, presented⟩ := items.required second
  refine .list ((marks.default false).imp id ?_) sourceAt (Reference.ofJson_eq_ok.1 told) itemAt presented
  exact fun value told => Json.asBoolean_eq_ok.1 told

theorem items_presented {items : List View} {written : List Written} {values : List Json}
    (each : List.Forall₂ WrittenAs items written)
    (mean : List.Forall₂ (fun value item => Written.value? item = some value) values written)
    (inner : ∀ item ∈ written, ∀ {view : View} {value : Json}, view.WrittenAs item → item.value? = some value →
      (item.Plain ∨ ∃ other : View, other.PresentedBy value.canonical) → view.PresentedBy value.canonical)
    (shaped : (∀ item ∈ written, item.Plain) ∨
      ∃ others, List.Forall₂ PresentedBy others (Json.canonicalItems values)) :
    List.Forall₂ PresentedBy items (Json.canonicalItems values) := by
  induction each generalizing values with
  | nil =>
    cases mean
    exact .nil
  | cons first _ ih =>
    cases mean with
    | cons means mean =>
      rw [List.forall_mem_cons] at inner
      rcases shaped with plain | ⟨others, presented⟩
      · rw [List.forall_mem_cons] at plain
        exact .cons (inner.1 first means (.inl plain.1)) (ih mean inner.2 (.inl plain.2))
      · cases presented with
        | cons given presented =>
          exact .cons (inner.1 first means (.inr ⟨_, given⟩)) (ih mean inner.2 (.inr ⟨_, presented⟩))

theorem WrittenAs.bare_or_tagged {written : Written} {view : View} (given : view.WrittenAs written) :
    (written = .string (some "hole") ∧ view = .hole) ∨
      ∃ kind content, written = .object [(some (Kind.name kind), content)] ∧ ContentAs kind view content := by
  cases given with
  | bare => exact .inl ⟨rfl, rfl⟩
  | tagged inner => exact .inr ⟨_, _, rfl, inner⟩

theorem shaped_items {written : List Written} {values : List Json}
    (shaped : Written.Plain (.object [(some "sequence", .list written)]) ∨
      ∃ other : View, other.PresentedBy (.object [("sequence", .list (Json.canonicalItems values))])) :
    (∀ item ∈ written, item.Plain) ∨ ∃ others, List.Forall₂ PresentedBy others (Json.canonicalItems values) := by
  rcases shaped with plain | ⟨other, presented⟩
  · exact .inl plain.item
  · obtain ⟨others, _, rfl, same, each⟩ := presented.of_sequence
    cases same
    exact .inr ⟨others, each⟩

theorem shaped_item {entries : List (String × Written)} {values : List (String × Json)} {item : Written} {value : Json}
    (mean : MembersMean entries values) (last : Entries.last? "item_code" entries = some item)
    (means : item.value? = some value)
    (shaped : Written.Plain (.object [(some "html_list", .object (named entries))]) ∨
      ∃ other : View,
        other.PresentedBy (.object [("html_list", .object (Entries.sorted (Json.canonicalMembers values)))])) :
    item.Plain ∨ ∃ other : View, other.PresentedBy value.canonical := by
  rcases shaped with plain | ⟨other, presented⟩
  · exact .inl (plain.at (.code .root (Written.mem_named (Entries.mem_of_last? last))))
  · obtain ⟨_, _, other, _, rfl, same, _, _, code, found, presented⟩ := presented.of_list
    cases same
    rw [mean.find?_eq, last, Option.bind_some, means] at found
    cases found
    exact .inr ⟨other, presented⟩

/-- Fields that are given in order have no names. -/
theorem not_shaped_element {written : List Written} {values : List Json} :
    ¬(Written.Plain (.object [(some "html_element", .list written)]) ∨
      ∃ other : View, other.PresentedBy (.object [("html_element", .list values)])) := by
  rintro (plain | ⟨other, presented⟩)
  · obtain ⟨members, same, -⟩ := plain.element .root
    cases same
  · obtain ⟨_, _, _, _, -, same, -⟩ := presented.of_element
    cases same

theorem not_shaped_list {written : List Written} {values : List Json} :
    ¬(Written.Plain (.object [(some "html_list", .list written)]) ∨
      ∃ other : View, other.PresentedBy (.object [("html_list", .list values)])) := by
  rintro (plain | ⟨other, presented⟩)
  · obtain ⟨members, same, -⟩ := plain.list .root
    cases same
  · obtain ⟨_, _, _, _, -, same, -⟩ := presented.of_list
    cases same

/-- What is read directly is decoded from the value that is written, if there is one and it is decoded at all
or is plain. -/
theorem WrittenAs.presented (written : Written) {view : View} {value : Json} (given : view.WrittenAs written)
    (means : written.value? = some value)
    (shaped : written.Plain ∨ ∃ other : View, other.PresentedBy value.canonical) :
    view.PresentedBy value.canonical := by
  rcases given.bare_or_tagged with ⟨rfl, rfl⟩ | ⟨kind, content, same, given⟩
  · cases means
    exact .holeName
  rw [same] at means shaped
  obtain ⟨inner, held, rfl⟩ := Written.value?_single.1 means
  clear means
  cases given with
  | hole =>
    cases held
    exact .hole
  | sequence each =>
    obtain ⟨values, means, rfl⟩ := Option.map_eq_some_iff.1 held
    refine .sequence (items_presented each (Written.values?_eq_some.1 means) ?_ (shaped_items shaped))
    intro item member _ _ given means shaped
    exact given.presented item means shaped
  | element run made =>
    obtain ⟨values, means, rfl⟩ := Option.map_eq_some_iff.1 held
    exact element_presented (Written.members?_named.1 means) run made
  | list run made =>
    obtain ⟨values, means, rfl⟩ := Option.map_eq_some_iff.1 held
    have mean := Written.members?_named.1 means
    refine list_presented mean run made ?_
    intro item value view last means given
    have member := Entries.mem_of_last? last
    exact given.presented item means (shaped_item mean last means shaped)
  | elementItems =>
    obtain ⟨values, -, rfl⟩ := Option.map_eq_some_iff.1 held
    exact absurd shaped not_shaped_element
  | listItems =>
    obtain ⟨values, -, rfl⟩ := Option.map_eq_some_iff.1 held
    exact absurd shaped not_shaped_list
termination_by written
decreasing_by
  · rw [same]
    exact Written.sizeOf_lt_listed member
  · rw [same]
    exact Written.sizeOf_lt_field (Written.mem_named member)

theorem value?_of_tells {α : Type} {decode : Json → Except Json.Cause α} {written : Written} {said : α}
    (told : Tells decode written said) : ∃ value, written.value? = some value := by
  obtain ⟨value, means, -⟩ := told
  exact ⟨value, means⟩

theorem known_of_onlyFields {known : List String} {entries : List (String × Written)}
    (only : Written.OnlyFields known (.object (named entries))) {entry : String × Written} (member : entry ∈ entries) :
    entry.1 ∈ known := by
  obtain ⟨members, same, each⟩ := only
  cases same
  obtain ⟨name, listed, same⟩ := each (some entry.1) entry.2 (List.mem_map.2 ⟨entry, member, rfl⟩)
  cases same
  exact listed

theorem element_value? {entries : List (String × Written)} {parts : ElementParts}
    (run : Run (ElementStep True (Tells Json.asString) (Tells attributesOfJson) (Tells Value.ofJson)) .none entries parts)
    (plain : Written.Plain (.object [(some "html_element", .object (named entries))])) :
    ∃ value, Written.value? (.object (named entries)) = some value := by
  refine Written.value?_object_of_each fun entry member => ?_
  obtain ⟨before, after, step⟩ := run.step_of_mem member
  have known := known_of_onlyFields (plain.element .root) member
  cases step with
  | tag _ _ told | attributes _ _ told | text _ _ told => exact value?_of_tells told
  | other unknown => exact absurd known unknown

theorem list_value? {entries : List (String × Written)} {parts : ListParts}
    (run : Run (ListStep True (Tells Json.asBoolean) (Tells Reference.ofJson) fun value view => WrittenAs view value)
      .none entries parts)
    (plain : Written.Plain (.object [(some "html_list", .object (named entries))]))
    (inner : ∀ item, ("item_code", item) ∈ entries → ∀ view : View, view.WrittenAs item →
      ∃ value, item.value? = some value) :
    ∃ value, Written.value? (.object (named entries)) = some value := by
  refine Written.value?_object_of_each fun entry member => ?_
  obtain ⟨before, after, step⟩ := run.step_of_mem member
  have known := known_of_onlyFields (plain.list .root) member
  cases step with
  | numbered _ _ told | source _ _ told => exact value?_of_tells told
  | item named _ given =>
    rw [named] at member
    exact inner _ member _ given
  | other unknown => exact absurd known unknown

theorem WrittenAs.value? (written : Written) {view : View} (given : view.WrittenAs written)
    (plain : written.Plain) : ∃ value, written.value? = some value := by
  rcases given.bare_or_tagged with ⟨rfl, rfl⟩ | ⟨kind, content, same, given⟩
  · exact ⟨_, rfl⟩
  rw [same] at plain
  have held : ∃ value, content.value? = some value := by
    cases given with
    | hole => exact ⟨_, rfl⟩
    | sequence each =>
      refine Written.value?_list_of_each fun item member => ?_
      obtain ⟨view, -, given⟩ := exists_of_forall₂ each member
      exact given.value? item (plain.item item member)
    | element run made => exact element_value? run plain
    | list run made =>
      refine list_value? run plain ?_
      intro item member view given
      exact given.value? item (plain.at (.code .root (Written.mem_named member)))
    | elementItems =>
      obtain ⟨members, contrary, -⟩ := plain.element .root
      cases contrary
    | listItems =>
      obtain ⟨members, contrary, -⟩ := plain.list .root
      cases contrary
  obtain ⟨value, held⟩ := held
  rw [same]
  exact ⟨_, Written.value?_single.2 ⟨value, held, rfl⟩⟩
termination_by written
decreasing_by
  · rw [same]
    exact Written.sizeOf_lt_listed member
  · rw [same]
    exact Written.sizeOf_lt_field (Written.mem_named member)

end View

end ViewTree
