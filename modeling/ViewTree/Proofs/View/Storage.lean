import ViewTree.Proofs.Json.Parsing
import ViewTree.Proofs.Number.Literal
import ViewTree.Proofs.View.Reading
import ViewTree.Proofs.View.Version

namespace ViewTree

theorem Json.canonicalItems_eq_map (items : List Json) : canonicalItems items = items.map canonical := by
  induction items with
  | nil => rfl
  | cons item items ih => rw [canonicalItems, ih, List.map_cons]

theorem mapM_restores {ε α β : Type} {f : β → Except ε α} {g : α → β} {values : List α}
    (each : ∀ value ∈ values, f (g value) = .ok value) : (values.map g).mapM f = .ok values := by
  induction values with
  | nil => rfl
  | cons value values ih =>
    rw [List.forall_mem_cons] at each
    rw [List.map_cons, List.mapM_cons, each.1, ih each.2]
    rfl

theorem Reference.ofJson_canonical (place : Reference) : ofJson place.toJson.canonical = .ok place := by
  cases place <;> rfl

theorem Value.ofJson_canonical (shown : Value) : ofJson shown.toJson.canonical = .ok shown := by
  cases shown with
  | reference place =>
    have decoded := place.ofJson_canonical
    show (Reference.ofJson place.toJson.canonical >>= fun place => .ok (Value.reference place)) = _
    rw [decoded]
    rfl
  | empty => rfl
  | constant text => rfl

namespace View

theorem attributeOfJson_canonical (declared : String × Value) :
    attributeOfJson (attributeToJson declared).canonical = .ok declared := by
  obtain ⟨name, shown⟩ := declared
  have decoded := shown.ofJson_canonical
  simp only [attributeToJson, Json.canonical, Json.canonicalItems, attributeOfJson, Json.asString,
    decoded, bind, Except.bind]
  rfl

theorem attributesOfJson_canonical (declared : List (String × Value)) :
    attributesOfJson (Json.canonical (.list (declared.map attributeToJson))) = .ok declared := by
  rw [Json.canonical, attributesOfJson, Json.canonicalItems_eq_map, List.map_map]
  exact mapM_restores fun value _ => attributeOfJson_canonical value

theorem sorted_element (tag declared shown : Json) :
    Entries.sorted [("tag", tag), ("attrs", declared), ("inner_text", shown)] =
      [("attrs", declared), ("inner_text", shown), ("tag", tag)] :=
  rfl

theorem sorted_list (numbered source item : Json) :
    Entries.sorted [("numbered", numbered), ("inner_data", source), ("item_code", item)] =
      [("inner_data", source), ("item_code", item), ("numbered", numbered)] :=
  rfl

-- The decoder meets the fields in the order of their keys, not in that in which they are written.
theorem elementOfJson_canonical (tag : String) (declared : List (String × Value)) (text : Value) :
    elementOfJson (Json.canonical (.object [("tag", .string tag),
      ("attrs", .list (declared.map attributeToJson)), ("inner_text", text.toJson)])) =
        .ok (.element tag declared text) := by
  have attributes := attributesOfJson_canonical declared
  have shown := text.ofJson_canonical
  have name : (Json.string tag).canonical = .string tag := rfl
  rw [Json.canonical]
  simp only [Json.canonicalMembers, sorted_element, name, elementOfJson, elementParts]
  simp [attributes, shown, Json.asString, bind, Except.bind, ElementParts.view, Json.required]

theorem listParts_canonical (numbered : Bool) (source : Reference) {item : View}
    (decoded : ofJson item.toJson.canonical = .ok item) :
    listParts (Entries.sorted (Json.canonicalMembers [("numbered", .boolean numbered),
      ("inner_data", source.toJson), ("item_code", item.toJson)])) .none =
        .ok ⟨some numbered, some source, some item⟩ := by
  have place := source.ofJson_canonical
  have flag : (Json.boolean numbered).canonical = .boolean numbered := rfl
  simp only [Json.canonicalMembers, sorted_list, flag, listParts]
  simp [place, decoded, Json.asBoolean, bind, Except.bind]

mutual

theorem ofJson_canonical (view : View) : ofJson view.toJson.canonical = .ok view := by
  cases view with
  | element tag declared text => exact elementOfJson_canonical tag declared text
  | list numbered source item =>
    have parts := listParts_canonical numbered source (ofJson_canonical item)
    show (listParts _ .none >>= ListParts.view) = _
    rw [parts]
    rfl
  | sequence items =>
    have decoded := ofJsonItems_canonical items
    show (ofJsonItems (Json.canonicalItems (toJsonItems items)) >>= fun items => .ok (sequence items)) = _
    rw [decoded]
    rfl
  | hole => rfl

theorem ofJsonItems_canonical (items : List View) :
    ofJsonItems (Json.canonicalItems (toJsonItems items)) = .ok items := by
  cases items with
  | nil => rfl
  | cons item items =>
    rw [toJsonItems, Json.canonicalItems, ofJsonItems, ofJson_canonical item, ofJsonItems_canonical items]
    rfl

end

theorem legible_reference (place : Reference) : place.toJson.Legible := by
  cases place with
  | field name => exact ⟨trivial, trivial⟩
  | data => trivial

theorem legible_value (shown : Value) : shown.toJson.Legible := by
  cases shown with
  | reference place => exact ⟨legible_reference place, trivial⟩
  | empty => trivial
  | constant text => exact ⟨trivial, trivial⟩

theorem legible_attributes (declared : List (String × Value)) :
    Json.LegibleItems (declared.map attributeToJson) := by
  induction declared with
  | nil => trivial
  | cons entry declared ih =>
    obtain ⟨name, shown⟩ := entry
    exact ⟨⟨trivial, legible_value shown, trivial⟩, ih⟩

mutual

theorem legible (view : View) : view.toJson.Legible := by
  cases view with
  | element tag declared text =>
    have attributes := legible_attributes declared
    exact ⟨⟨trivial, attributes, legible_value text, trivial⟩, trivial⟩
  | list numbered source item =>
    exact ⟨⟨trivial, legible_reference source, legible item, trivial⟩, trivial⟩
  | sequence items => exact ⟨legibleItems items, trivial⟩
  | hole => trivial

theorem legibleItems (items : List View) : Json.LegibleItems (toJsonItems items) := by
  cases items with
  | nil => trivial
  | cons item items => exact ⟨legible item, legibleItems items⟩

end

/-- A bare view is parsed from its text in either form. -/
theorem parse_text (layout : Json.Layout) (view : View) :
    if view.toJson.depth ≤ Json.depthLimit then
      parse (String.ofList (layout.text 0 view.toJson)) = .ok view
    else ∃ position, parse (String.ofList (layout.text 0 view.toJson)) =
      .error ⟨.malformed .tooDeep, position⟩ := by
  have taken : layout.Takes Reading.view view.toJson view := Reading.takes_view view
  have reads := taken Json.depthLimit [] 0 [] Json.Reader.blank_nil Json.Reader.ends_nil
  rw [List.nil_append, List.append_nil] at reads
  rw [parse, String.toList_ofList]
  exact reads.whole

end View

namespace Template

theorem asWord_ofUInt64 (word : UInt32) : (Json.number (.ofUInt64 word.toUInt64)).asWord = .ok word := by
  rw [asWord_eq_ok]
  exact ⟨_, rfl⟩

theorem sorted_template (version code : Json) :
    Entries.sorted [("version", version), ("code", code)] = [("code", code), ("version", version)] :=
  rfl

theorem ofValue_canonical (view : View) :
    ofValue (ofView view).toJson.canonical = .ok (ofView view) := by
  have decoded := view.ofJson_canonical
  have version := asWord_ofUInt64 currentVersion
  have number : (Json.number (.ofUInt64 currentVersion.toUInt64)).canonical =
      .number (.ofUInt64 currentVersion.toUInt64) := rfl
  rw [toJson, Json.canonical]
  simp only [ofView, Json.canonicalMembers, sorted_template, number]
  simp [ofValue, checkVersion, Entries.find?, version, ofJson, parts, decoded, Json.required,
    Except.mapError, bind, Except.bind]

theorem legible (template : Template) : template.toJson.Legible :=
  ⟨Number.integer_readsBack _ _, template.code.legible, trivial⟩

theorem text_eq (template : Template) :
    template.text = String.ofList (Json.Layout.wide.text 0 template.toJson) := by
  rw [text, Json.indentedText, Json.Layout.indented_eq]

theorem parse_text (view : View) :
    if (ofView view).toJson.depth ≤ Json.depthLimit then parse (ofView view).text = .ok (ofView view)
    else ∃ position, parse (ofView view).text = .error (.malformed ⟨.malformed .tooDeep, position⟩) := by
  have parsed := Json.parse_text .wide (ofView view).toJson (ofView view).legible
  rw [← text_eq] at parsed
  by_cases fits : (ofView view).toJson.depth ≤ Json.depthLimit
  · rw [if_pos fits] at parsed ⊢
    simp only [parse, parsed, Except.mapError, bind, Except.bind]
    exact ofValue_canonical view
  · rw [if_neg fits] at parsed ⊢
    obtain ⟨position, failed⟩ := parsed
    refine ⟨position, ?_⟩
    rw [parse, failed]
    rfl

end Template

theorem eq_of_read {ε α : Type} {fits : Prop} [Decidable fits] {outcome : Except ε α} {value other : α}
    {refusal : Option Text.Position → ε}
    (read : if fits then outcome = .ok value else ∃ position, outcome = .error (refusal position))
    (found : outcome = .ok other) : other = value := by
  subst found
  split at read
  · exact Except.ok.inj read
  · obtain ⟨position, failed⟩ := read
    cases failed

/-- A view that is stored, in a template or bare, is loaded as it was if its text nests no deeper than may be
read, and is refused otherwise. -/
theorem View.load_stored (view : View) :
    (if (Template.ofView view).toJson.depth ≤ Json.depthLimit then
        Template.parse (Template.ofView view).text = .ok (Template.ofView view)
      else ∃ position, Template.parse (Template.ofView view).text =
        .error (.malformed ⟨.malformed .tooDeep, position⟩)) ∧
    (∀ template, Template.parse (Template.ofView view).text = .ok template →
      template = Template.ofView view) ∧
    ∀ text ∈ [view.toJson.compactText, view.toJson.indentedText],
      (if view.toJson.depth ≤ Json.depthLimit then View.parse text = .ok view
        else ∃ position, View.parse text = .error ⟨.malformed .tooDeep, position⟩) ∧
      ∀ other, View.parse text = .ok other → other = view := by
  have dense := view.parse_text .dense
  have wide := view.parse_text .wide
  rw [← Json.Layout.compact_eq] at dense
  rw [← Json.Layout.indented_eq] at wide
  refine ⟨Template.parse_text view, fun _ => eq_of_read (Template.parse_text view), ?_⟩
  intro text member
  simp only [List.mem_cons, List.not_mem_nil, or_false] at member
  rcases member with rfl | rfl
  · exact ⟨dense, fun _ => eq_of_read dense⟩
  · exact ⟨wide, fun _ => eq_of_read wide⟩

end ViewTree
