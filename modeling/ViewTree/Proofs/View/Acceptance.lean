import ViewTree.Proofs.View.Agreement

namespace ViewTree

open Json (Written)
open Json.Written (Tells MembersMean named)
open Entries (Optional Run)

theorem Reference.PresentedBy.of_canonical {place : Reference} {value : Json} (distinct : value.Distinct)
    (presented : place.PresentedBy value.canonical) : place.PresentedBy value := by
  generalize same : value.canonical = sorted at presented
  cases presented with
  | dataName =>
    rw [Json.canonical_eq_string same]
    exact .dataName
  | data =>
    obtain ⟨inner, rfl, held⟩ := Json.canonical_eq_single distinct same
    rw [Json.canonical_eq_null held]
    exact .data
  | field name =>
    obtain ⟨inner, rfl, held⟩ := Json.canonical_eq_single distinct same
    rw [Json.canonical_eq_string held]
    exact .field name

theorem Value.PresentedBy.of_canonical {shown : Value} {value : Json} (distinct : value.Distinct)
    (presented : shown.PresentedBy value.canonical) : shown.PresentedBy value := by
  generalize same : value.canonical = sorted at presented
  cases presented with
  | emptyName =>
    rw [Json.canonical_eq_string same]
    exact .emptyName
  | empty =>
    obtain ⟨inner, rfl, held⟩ := Json.canonical_eq_single distinct same
    rw [Json.canonical_eq_null held]
    exact .empty
  | constant text =>
    obtain ⟨inner, rfl, held⟩ := Json.canonical_eq_single distinct same
    rw [Json.canonical_eq_string held]
    exact .constant text
  | reference presented =>
    obtain ⟨inner, rfl, rfl⟩ := Json.canonical_eq_single distinct same
    exact .reference (presented.of_canonical distinct.2.1)

namespace View

theorem AttributePresentedBy.of_canonical {declared : String × Value} {value : Json} (distinct : value.Distinct)
    (presented : AttributePresentedBy declared value.canonical) : AttributePresentedBy declared value := by
  generalize same : value.canonical = sorted at presented
  cases presented with
  | pair presented =>
    obtain ⟨items, rfl, pair⟩ := Json.canonical_eq_list same
    match items with
    | [] | [_] | _ :: _ :: _ :: _ => simp [Json.canonicalItems] at pair
    | [first, second] =>
      obtain ⟨named, others⟩ := List.cons.inj pair
      obtain ⟨rfl, -⟩ := List.cons.inj others
      rw [Json.canonical_eq_string named]
      exact .pair (presented.of_canonical distinct.2.1)

theorem attributes_of_canonical {declared : List (String × Value)} {items : List Json}
    (distinct : Json.DistinctItems items)
    (each : List.Forall₂ AttributePresentedBy declared (Json.canonicalItems items)) :
    List.Forall₂ AttributePresentedBy declared items := by
  induction items generalizing declared with
  | nil => exact each
  | cons item items ih =>
    cases each with
    | cons first others => exact .cons (first.of_canonical distinct.1) (ih distinct.2 others)

section Fields

variable {written : Written} {value : Json}

theorem tells_reference {place : Reference} (distinct : written.Distinct) (means : written.value? = some value)
    (presented : place.PresentedBy value.canonical) : written.Tells Reference.ofJson place := by
  have held := Written.distinct_value written distinct means
  exact ⟨value, means, Reference.ofJson_eq_ok.2 (presented.of_canonical held)⟩

theorem tells_value {shown : Value} (distinct : written.Distinct) (means : written.value? = some value)
    (presented : shown.PresentedBy value.canonical) : written.Tells Value.ofJson shown := by
  have held := Written.distinct_value written distinct means
  exact ⟨value, means, Value.ofJson_eq_ok.2 (presented.of_canonical held)⟩

theorem tells_attributes {declared : List (String × Value)} (distinct : written.Distinct)
    (means : written.value? = some value)
    (presented : ∃ values, value.canonical = .list values ∧ List.Forall₂ AttributePresentedBy declared values) :
    written.Tells attributesOfJson declared := by
  have held := Written.distinct_value written distinct means
  obtain ⟨values, same, each⟩ := presented
  obtain ⟨items, rfl, rfl⟩ := Json.canonical_eq_list same
  exact ⟨_, means, attributesOfJson_eq_ok.2 ⟨items, rfl, attributes_of_canonical held each⟩⟩

end Fields

theorem element_read {entries : List (String × Written)} {members : List (String × Json)} {tag : String}
    {declared : List (String × Value)} {shown : Value} (distinct : Written.Distinct (.object (named entries)))
    (mean : MembersMean entries members)
    (tagAt : Entries.find? "tag" (Entries.sorted (Json.canonicalMembers members)) = some (.string tag))
    (attributes : Optional (Entries.sorted (Json.canonicalMembers members)) "attrs" (declared = []) fun value =>
      ∃ values, value = .list values ∧ List.Forall₂ AttributePresentedBy declared values)
    (text : Optional (Entries.sorted (Json.canonicalMembers members)) "inner_text" (shown = .empty)
      shown.PresentedBy) : ContentAs .element (.element tag declared shown) (.object (named entries)) := by
  obtain ⟨written, value, found, -, means, same⟩ := mean.required distinct.keys_nodup tagAt
  have told : written.Tells Json.asString tag := ⟨value, means, Json.asString_eq_ok.2 (Json.canonical_eq_string same)⟩
  have attributes' : Optional entries "attrs" (declared = []) (Tells attributesOfJson · declared) :=
    mean.optional distinct.keys_nodup attributes fun member => tells_attributes (distinct.entry member)
  have text' : Optional entries "inner_text" (shown = .empty) (Tells Value.ofJson · shown) :=
    mean.optional distinct.keys_nodup text fun member => tells_value (distinct.entry member)
  have read : ∃ parts, Run (ElementStep True (Tells Json.asString) (Tells attributesOfJson) (Tells Value.ofJson)) .none
      entries parts ∧ parts.view = .ok (.element tag declared shown) :=
    (ElementStep.view_iff distinct.keys_nodup).2
      ⟨tag, declared, shown, rfl, ⟨written, found, told⟩, attributes', text'⟩
  obtain ⟨parts, run, made⟩ := read
  exact .element run made

/-- A list that is decoded from its fields is read from them, if its item is. -/
theorem list_read {entries : List (String × Written)} {members : List (String × Json)} {flag : Bool}
    {source : Reference} {item : View} {place code : Json} (distinct : Written.Distinct (.object (named entries)))
    (mean : MembersMean entries members)
    (marked : Optional (Entries.sorted (Json.canonicalMembers members)) "numbered" (flag = false) (· = .boolean flag))
    (sourceAt : Entries.find? "inner_data" (Entries.sorted (Json.canonicalMembers members)) = some place)
    (presented : source.PresentedBy place)
    (itemAt : Entries.find? "item_code" (Entries.sorted (Json.canonicalMembers members)) = some code)
    (inner : ∀ {written value}, ("item_code", written) ∈ entries → written.value? = some value →
      value.canonical = code → item.WrittenAs written) :
    ContentAs .list (.list flag source item) (.object (named entries)) := by
  obtain ⟨written, value, found, member, means, rfl⟩ := mean.required distinct.keys_nodup sourceAt
  obtain ⟨written', value', found', member', means', same⟩ := mean.required distinct.keys_nodup itemAt
  have marked' : Optional entries "numbered" (flag = false) (Tells Json.asBoolean · flag) :=
    mean.optional distinct.keys_nodup marked fun _ means same =>
      ⟨_, means, Json.asBoolean_eq_ok.2 (Json.canonical_eq_boolean same)⟩
  have read : ∃ parts, Run (ListStep True (Tells Json.asBoolean) (Tells Reference.ofJson)
      fun value view => WrittenAs view value) .none entries parts ∧ parts.view = .ok (.list flag source item) :=
    (ListStep.view_iff distinct.keys_nodup).2 ⟨flag, source, item, rfl, marked',
      ⟨written, found, tells_reference (distinct.entry member) means presented⟩,
      ⟨written', found', inner member' means' same⟩⟩
  obtain ⟨parts, run, made⟩ := read
  exact .list run made

theorem items_read {items : List View} {contents : List Written} {values : List Json}
    (presented : List.Forall₂ PresentedBy items (Json.canonicalItems values))
    (mean : List.Forall₂ (fun value item => Written.value? item = some value) values contents)
    (inner : ∀ item ∈ contents, ∀ {view : View} {value : Json}, item.value? = some value →
      view.PresentedBy value.canonical → view.WrittenAs item) :
    List.Forall₂ WrittenAs items contents := by
  induction mean generalizing items with
  | nil =>
    cases presented
    exact .nil
  | cons means _ ih =>
    rw [List.forall_mem_cons] at inner
    cases presented with
    | cons first presented => exact .cons (inner.1 means first) (ih presented inner.2)

/-- What is decoded from the value that is written is read directly, where no key is repeated. -/
theorem WrittenAs.of_presented (written : Written) (distinct : written.Distinct) {view : View} {value : Json}
    (means : written.value? = some value) (presented : view.PresentedBy value.canonical) :
    view.WrittenAs written := by
  generalize sorted : value.canonical = canonical at presented
  cases presented with
  | holeName =>
    rw [Json.canonical_eq_string sorted] at means
    rw [Written.value?_string means]
    exact .bare
  | hole =>
    obtain ⟨content, held, rfl, -, means, same⟩ := distinct.single means sorted
    rw [Json.canonical_eq_null same] at means
    rw [Written.value?_null means]
    exact .tagged .hole
  | @sequence items _ each =>
    obtain ⟨content, held, shape, distinct, means, same⟩ := distinct.single means sorted
    obtain ⟨values, rfl, rfl⟩ := Json.canonical_eq_list same
    obtain ⟨contents, listed, mean⟩ := Written.value?_list means
    rw [listed] at distinct
    have read : List.Forall₂ WrittenAs items contents := items_read each mean fun item member _ _ means presented =>
      of_presented item (Written.distinctItems_iff.1 distinct item member) means presented
    rw [shape, listed]
    exact .tagged (.sequence read)
  | list marked sourceAt sourcePresented itemAt itemPresented =>
    obtain ⟨content, held, shape, distinct, means, same⟩ := distinct.single means sorted
    obtain ⟨members, rfl, rfl⟩ := Json.canonical_eq_object same
    obtain ⟨entries, fields, mean⟩ := Written.value?_object means
    rw [fields] at distinct
    rw [shape, fields]
    refine .tagged (list_read distinct mean marked sourceAt sourcePresented itemAt ?_)
    intro item value member means same
    rw [← same] at itemPresented
    exact of_presented item (distinct.entry member) means itemPresented
  | element tagAt declared shown =>
    obtain ⟨content, held, rfl, distinct, means, same⟩ := distinct.single means sorted
    obtain ⟨members, rfl, rfl⟩ := Json.canonical_eq_object same
    obtain ⟨entries, rfl, mean⟩ := Written.value?_object means
    exact .tagged (element_read distinct mean tagAt declared shown)
termination_by written
decreasing_by
  · rw [shape, listed]
    exact Written.sizeOf_lt_listed member
  · rw [shape, fields]
    exact Written.sizeOf_lt_field (Written.mem_named member)

/-- Where no key is repeated, a plain text is read directly for just what is decoded from its value. -/
theorem writtenAs_iff {written : Written} (plain : written.Plain) (distinct : written.Distinct) (view : View) :
    view.WrittenAs written ↔ ∃ value, written.value? = some value ∧ view.PresentedBy value.canonical := by
  constructor
  · intro given
    obtain ⟨value, means⟩ := given.value? written plain
    exact ⟨value, means, given.presented written means (.inl plain)⟩
  · rintro ⟨value, means, presented⟩
    exact .of_presented written distinct means presented

end View

end ViewTree
