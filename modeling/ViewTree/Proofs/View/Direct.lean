import ViewTree.Proofs.View.Grammar
import ViewTree.Proofs.View.Reading
import ViewTree.Proofs.View.Typed

namespace ViewTree

open Json (Written)
open Json.Written (Tells named)
open Entries (Run)

namespace View

/-- The fields of an element in order; the last two may be left out. -/
inductive ElementItems : List Written → View → Prop
  | tag {first : Written} {tag : String} (tagged : first.Tells Json.asString tag) :
    ElementItems [first] (.element tag [] .empty)
  | attributes {first second : Written} {tag : String} {declared : List (String × Value)}
    (tagged : first.Tells Json.asString tag) (given : second.Tells attributesOfJson declared) :
    ElementItems [first, second] (.element tag declared .empty)
  | text {first second third : Written} {tag : String} {declared : List (String × Value)} {shown : Value}
    (tagged : first.Tells Json.asString tag) (given : second.Tells attributesOfJson declared)
    (said : third.Tells Value.ofJson shown) : ElementItems [first, second, third] (.element tag declared shown)

mutual

/-- What is read as the view. -/
inductive WrittenAs : View → Written → Prop
  | bare : WrittenAs .hole (.string (some "hole"))
  | tagged {kind : Kind} {view : View} {content : Written} (inner : ContentAs kind view content) :
    WrittenAs view (.object [(some kind.name, content)])

/-- What stands beside the name of a view. -/
inductive ContentAs : Kind → View → Written → Prop
  | hole : ContentAs .hole .hole .null
  | sequence {items : List View} {values : List Written} (each : List.Forall₂ WrittenAs items values) :
    ContentAs .sequence (.sequence items) (.list values)
  | element {entries : List (String × Written)} {parts : ElementParts} {view : View}
    (run : Run (ElementStep True (Tells Json.asString) (Tells attributesOfJson) (Tells Value.ofJson)) .none
      entries parts)
    (made : parts.view = .ok view) : ContentAs .element view (.object (named entries))
  | elementItems {items : List Written} {view : View} (given : ElementItems items view) :
    ContentAs .element view (.list items)
  | list {entries : List (String × Written)} {parts : ListParts} {view : View}
    (run : Run (ListStep True (Tells Json.asBoolean) (Tells Reference.ofJson) fun value view => WrittenAs view value)
      .none entries parts)
    (made : parts.view = .ok view) : ContentAs .list view (.object (named entries))
  | listItems {first second third : Written} {flag : Bool} {place : Reference} {item : View}
    (numbered : first.Tells Json.asBoolean flag) (source : second.Tells Reference.ofJson place)
    (view : WrittenAs item third) : ContentAs .list (.list flag place item) (.list [first, second, third])

end

end View

namespace Reading

open Json Json.Reader

def referenceOfContent : Reference.Kind → Json → Except Cause Reference
  | .field => fun content => do .ok (.field (← content.asString))
  | .data => fun content => do
    content.asNull
    .ok .data

def valueOfContent : Value.Kind → Json → Except Cause Value
  | .reference => fun content => do .ok (.reference (← Reference.ofJson content))
  | .empty => fun content => do
    content.asNull
    .ok .empty
  | .constant => fun content => do .ok (.constant (← content.asString))

theorem reference_ofJson_object (key : String) (content : Json) :
    Reference.ofJson (.object [(key, content)]) =
      variant Reference.Kind.all Reference.Kind.name key >>= fun kind => referenceOfContent kind content := by
  rw [Reference.ofJson]
  congr 1
  funext kind
  cases kind <;> rfl

theorem value_ofJson_object (key : String) (content : Json) :
    Value.ofJson (.object [(key, content)]) =
      variant Value.Kind.all Value.Kind.name key >>= fun kind => valueOfContent kind content := by
  rw [Value.ofJson]
  congr 1
  funext kind
  cases kind <;> rfl

theorem referenceContent_takes (kind : Reference.Kind) (written : Written) :
    written.Takes (fun _ => referenceContent kind) (written.Tells (referenceOfContent kind)) := by
  intro depth text rest stands
  cases kind with
  | field =>
    have read : Gives (written.depth ≤ depth) (referenceContent .field text) rest _ :=
      (written.string_takes stands).map Reference.field fun _ => rfl
    exact read.congr fun _ => Written.Tells.map.symm
  | data =>
    have read : Gives (written.depth ≤ depth) (referenceContent .data text) rest _ :=
      (written.null_takes stands).map (fun () => Reference.data) fun _ => rfl
    exact read.congr fun _ => Written.Tells.map.symm

theorem reference_takes (written : Written) : written.Takes reference (written.Tells Reference.ofJson) := by
  intro depth text rest stands
  have tagged : Gives _ (reference depth text) rest _ :=
    tagged_takes (fun _ inner _ _ kind => referenceContent_takes kind inner) stands
  refine tagged.congr fun said => tagged_iff_tells (fun _ => rfl) reference_ofJson_object ?_
  intro value said decoded
  cases Reference.ofJson_eq_ok.1 decoded with
  | dataName => exact .inl ⟨_, rfl⟩
  | _ => exact .inr ⟨_, _, rfl⟩

theorem valueContent_takes (kind : Value.Kind) (written : Written) :
    written.Takes (fun depth => valueContent depth kind) (written.Tells (valueOfContent kind)) := by
  intro depth text rest stands
  cases kind with
  | reference =>
    have read : Gives (written.depth ≤ depth) (valueContent depth .reference text) rest _ :=
      (reference_takes written stands).map Value.reference fun _ => rfl
    exact read.congr fun _ => Written.Tells.map.symm
  | empty =>
    have read : Gives (written.depth ≤ depth) (valueContent depth .empty text) rest _ :=
      (written.null_takes stands).map (fun () => Value.empty) fun _ => rfl
    exact read.congr fun _ => Written.Tells.map.symm
  | constant =>
    have read : Gives (written.depth ≤ depth) (valueContent depth .constant text) rest _ :=
      (written.string_takes stands).map Value.constant fun _ => rfl
    exact read.congr fun _ => Written.Tells.map.symm

theorem value_takes (written : Written) : written.Takes value (written.Tells Value.ofJson) := by
  intro depth text rest stands
  have tagged : Gives _ (value depth text) rest _ :=
    tagged_takes (fun _ inner _ _ kind => valueContent_takes kind inner) stands
  refine tagged.congr fun said => tagged_iff_tells (fun _ => rfl) value_ofJson_object ?_
  intro value said decoded
  cases Value.ofJson_eq_ok.1 decoded with
  | emptyName => exact .inl ⟨_, rfl⟩
  | _ => exact .inr ⟨_, _, rfl⟩

def PairItems (items : List Written) (declared : String × Value) : Prop :=
  ∃ first second, items = [first, second] ∧ first.Tells Json.asString declared.1 ∧
    second.Tells Value.ofJson declared.2

theorem shallow {items : List Written} {depth : Nat} (fits : Written.depthItems items ≤ depth) :
    ∀ item ∈ items, item.depth ≤ depth :=
  Written.depthItems_le.1 fits

theorem pairItems_take (items : List Written) : TakesItems pairItems items (PairItems items) := by
  intro depth inner rest begins
  have taken : TakesRest (Written.depthItems items ≤ depth) true (pairItems depth) items fun declared =>
      ∃ first others name, items = first :: others ∧ first.Tells Json.asString name ∧
        ∃ second more shown, others = second :: more ∧ second.Tells Value.ofJson shown ∧
          more = [] ∧ (name, shown) = declared :=
    TakesRest.required 0 _ (fun item _ => item.string_takes) shallow "a tuple of size 2"
      fun first others same name => TakesRest.required 1 _ (fun item _ => value_takes item)
        (fun fits item member => shallow fits item (same ▸ List.mem_cons_of_mem _ member)) "a tuple of size 2"
        fun second more _ shown => TakesRest.done _ (name, shown) more
  refine (taken.insideList begins).congr fun declared => ?_
  obtain ⟨name, shown⟩ := declared
  constructor
  · rintro ⟨first, _, name, rfl, named, second, _, shown, rfl, said, rfl, same⟩
    cases same
    exact ⟨first, second, rfl, named, said⟩
  · rintro ⟨first, second, rfl, named, said⟩
    exact ⟨first, _, name, rfl, named, second, _, shown, rfl, said, rfl, rfl⟩

theorem tells_attribute {written : Written} {declared : String × Value} :
    (∃ items, written = .list items ∧ PairItems items declared) ↔ written.Tells View.attributeOfJson declared := by
  obtain ⟨name, shown⟩ := declared
  constructor
  · rintro ⟨_, rfl, first, second, rfl, ⟨value, means, named⟩, ⟨value', means', said⟩⟩
    rw [Json.asString_eq_ok] at named
    subst named
    refine ⟨.list [.string name, value'], ?_, ?_⟩
    · simp only [Written.value?, Written.values?, means, means', Option.bind_some, Option.map_some]
    · exact View.attributeOfJson_eq_ok.2 (.pair (Value.ofJson_eq_ok.1 said))
  · rintro ⟨value, means, decoded⟩
    cases View.attributeOfJson_eq_ok.1 decoded with
    | pair presented =>
      obtain ⟨items, rfl, each⟩ := Written.value?_list means
      rcases each with _ | ⟨named, _ | ⟨said, _ | _⟩⟩
      exact ⟨_, rfl, _, _, rfl, ⟨_, named, rfl⟩, ⟨_, said, Value.ofJson_eq_ok.2 presented⟩⟩

theorem pair_takes (written : Written) : written.Takes pair (written.Tells View.attributeOfJson) := by
  intro depth text rest stands
  have listed : Gives _ (pair depth text) rest _ :=
    Written.list_takes "a tuple of size 2" (fun items _ => pairItems_take items) stands
  exact listed.congr fun declared => tells_attribute

theorem tells_each {α : Type} {decode : Json → Except Cause α} {items : List Written} {told : List α} :
    List.Forall₂ (fun value item => Tells decode item value) told items ↔
      ∃ values, List.Forall₂ (fun value item => Written.value? item = some value) values items ∧
        List.Forall₂ (fun value json => decode json = .ok value) told values := by
  constructor
  · intro each
    induction each with
    | nil => exact ⟨[], .nil, .nil⟩
    | cons first _ ih =>
      obtain ⟨value, means, decoded⟩ := first
      obtain ⟨values, written, read⟩ := ih
      exact ⟨value :: values, .cons means written, .cons decoded read⟩
  · rintro ⟨values, written, read⟩
    induction read generalizing items with
    | nil =>
      cases written
      exact .nil
    | cons decoded _ ih =>
      cases written with
      | cons means written => exact .cons ⟨_, means, decoded⟩ (ih written)

theorem attributes_take (written : Written) : written.Takes attributes (written.Tells View.attributesOfJson) := by
  intro depth text rest stands
  have listed : Gives _ (attributes depth text) rest _ :=
    Written.list_takes "a sequence" (fun items _ _ _ _ begins => items_take (fun item _ => pair_takes item) begins _) stands
  refine listed.congr fun declared => ?_
  constructor
  · rintro ⟨items, rfl, each⟩
    obtain ⟨values, written, read⟩ := tells_each.1 each
    refine ⟨.list values, ?_, mapM_eq_ok.2 read⟩
    rw [Written.value?, Written.values?_eq_some.2 written]
    rfl
  · rintro ⟨value, means, decoded⟩
    cases value with
    | list values =>
      obtain ⟨items, rfl, written⟩ := Written.value?_list means
      exact ⟨items, rfl, tells_each.2 ⟨values, written, mapM_eq_ok.1 decoded⟩⟩
    | _ => cases decoded

theorem elementMember_takes (key : String) (written : Written) :
    TakesMember elementMember (key, written)
      (View.ElementStep True (Tells Json.asString) (Tells View.attributesOfJson) (Tells Value.ofJson) ·
        (key, written)) := by
  intro before depth text rest follows
  by_cases tag : key = "tag"
  · subst tag
    have read := filled_gives follows written.string_takes depth "tag" before.tag
      fun tag => { before with tag := some tag }
    simp only [elementMember, if_true]
    exact read.congr fun after => by simp only [View.ElementStep.tag_iff, true_implies]
  by_cases attrs : key = "attrs"
  · subst attrs
    have read := filled_gives follows (attributes_take written) depth "attrs" before.attributes
      fun declared => { before with attributes := some declared }
    simp only [elementMember, String.reduceEq, if_true, if_false]
    exact read.congr fun after => by simp only [View.ElementStep.attributes_iff, true_implies]
  by_cases inner : key = "inner_text"
  · subst inner
    have read := filled_gives follows (value_takes written) depth "inner_text" before.text
      fun shown => { before with text := some shown }
    simp only [elementMember, String.reduceEq, if_true, if_false]
    exact read.congr fun after => by simp only [View.ElementStep.text_iff, true_implies]
  · have unknown : key ∉ ["tag", "attrs", "inner_text"] := by simp [tag, attrs, inner]
    simp only [elementMember, if_neg tag, if_neg attrs, if_neg inner, unknownField_eq follows]
    exact (Gives.done _ before rest).congr fun after => (View.ElementStep.other_iff unknown).symm

theorem complete_gives (fits : Prop) (view : Except Cause View) (rest : List Char) :
    Gives fits (complete view rest) rest (view = .ok ·) := by
  cases view with
  | ok view => exact (Gives.done fits view rest).congr fun other => by simp
  | error cause => exact (Gives.fails fits _ rest).congr fun other => by simp

theorem elementMembers_take (members : List (Option String × Written)) :
    TakesMembers elementMembers members fun view => ∃ entries parts, members = named entries ∧
      Run (View.ElementStep True (Tells Json.asString) (Tells View.attributesOfJson) (Tells Value.ofJson)) .none
        entries parts ∧ parts.view = .ok view := by
  intro depth inner rest begins
  have read := members_take (fun key written _ => elementMember_takes key written) begins .none depth
  refine Gives.insideObject ?_ (endOfObject_closing (.refl _))
  refine (read.bind fun parts _ => complete_gives _ parts.view _).congr fun view => ?_
  constructor
  · rintro ⟨parts, ⟨entries, same, run⟩, made⟩
    exact ⟨entries, parts, same, run, made⟩
  · rintro ⟨entries, parts, same, run, made⟩
    exact ⟨parts, ⟨entries, same, run⟩, made⟩

def TextItems (tag : String) (declared : List (String × Value)) (items : List Written) (view : View) : Prop :=
  (items = [] ∧ View.element tag declared .empty = view) ∨
    ∃ third more shown, items = third :: more ∧ third.Tells Value.ofJson shown ∧
      more = [] ∧ View.element tag declared shown = view

theorem textItems_take {fits : Prop} {depth : Nat} {items : List Written}
    (enough : fits → ∀ item ∈ items, item.depth ≤ depth) (tag : String)
    (declared : Option (List (String × Value))) :
    TakesRest fits false (fun text => do
        let (shown, text) ← nextItem? false (value depth) text
        complete (View.ElementParts.view ⟨some tag, declared, shown⟩) text) items
      (TextItems tag (declared.getD []) items) := by
  have taken : TakesRest fits false (fun text => do
        let (shown, text) ← nextItem? false (value depth) text
        complete (View.ElementParts.view ⟨some tag, declared, shown⟩) text) items fun view =>
      (items = [] ∧ ([] : List Written) = [] ∧ View.element tag (declared.getD []) .empty = view) ∨
        ∃ third more shown, items = third :: more ∧ third.Tells Value.ofJson shown ∧
          more = [] ∧ View.element tag (declared.getD []) shown = view :=
    TakesRest.next (fun shown => complete (View.ElementParts.view ⟨some tag, declared, shown⟩))
      (fun item _ => value_takes item) enough (.done fits _ []) fun _ others _ shown => .done fits _ others
  exact taken.congr fun view => by simp [TextItems]

def AttributesItems (tag : String) (items : List Written) (view : View) : Prop :=
  (items = [] ∧ TextItems tag [] [] view) ∨
    ∃ second more declared, items = second :: more ∧ second.Tells View.attributesOfJson declared ∧
      TextItems tag declared more view

theorem attributesItems_take {fits : Prop} {depth : Nat} {items : List Written}
    (enough : fits → ∀ item ∈ items, item.depth ≤ depth) (tag : String) :
    TakesRest fits false (fun text => do
        let (declared, text) ← nextItem? false (attributes depth) text
        let (shown, text) ← nextItem? false (value depth) text
        complete (View.ElementParts.view ⟨some tag, declared, shown⟩) text) items (AttributesItems tag items) :=
  TakesRest.next (fun declared text => do
      let (shown, text) ← nextItem? false (value depth) text
      complete (View.ElementParts.view ⟨some tag, declared, shown⟩) text)
    (fun item _ => attributes_take item) enough (textItems_take (fun _ => List.forall_mem_nil _) tag none)
    fun _ _ same declared => textItems_take
      (fun fits item member => enough fits item (same ▸ List.mem_cons_of_mem _ member)) tag (some declared)

theorem elementItems_take (items : List Written) : TakesItems elementItems items (View.ElementItems items) := by
  intro depth inner rest begins
  have taken : TakesRest (Written.depthItems items ≤ depth) true (elementItems depth) items fun view =>
      ∃ first others tag, items = first :: others ∧ first.Tells Json.asString tag ∧
        AttributesItems tag others view :=
    TakesRest.required 0 _ (fun item _ => item.string_takes) shallow (elementWanted ++ " with 3 elements")
      fun first others same tag => attributesItems_take
        (fun fits item member => shallow fits item (same ▸ List.mem_cons_of_mem _ member)) tag
  refine (taken.insideList begins).congr fun view => ?_
  constructor
  · rintro ⟨first, _, tag, rfl, tagged, ⟨rfl, text⟩ | ⟨second, _, declared, rfl, given, text⟩⟩
    · rcases text with ⟨-, rfl⟩ | ⟨_, _, _, same, -⟩
      · exact .tag tagged
      · cases same
    · rcases text with ⟨rfl, rfl⟩ | ⟨third, _, shown, rfl, said, rfl, rfl⟩
      · exact .attributes tagged given
      · exact .text tagged given said
  · intro items
    cases items with
    | tag tagged => exact ⟨_, _, _, rfl, tagged, .inl ⟨rfl, .inl ⟨rfl, rfl⟩⟩⟩
    | attributes tagged given => exact ⟨_, _, _, rfl, tagged, .inr ⟨_, _, _, rfl, given, .inl ⟨rfl, rfl⟩⟩⟩
    | text tagged given said =>
      exact ⟨_, _, _, rfl, tagged, .inr ⟨_, _, _, rfl, given, .inr ⟨_, _, _, rfl, said, rfl, rfl⟩⟩⟩

def ListMember : View.ListParts → String × Written → View.ListParts → Prop :=
  View.ListStep True (Tells Json.asBoolean) (Tells Reference.ofJson) fun value view => view.WrittenAs value

theorem listMember_takes (key : String) {written : Written}
    (taken : written.Takes view fun view => view.WrittenAs written) :
    TakesMember (fun depth => listMember (view depth) depth) (key, written) (ListMember · (key, written)) := by
  intro before depth text rest follows
  by_cases numbered : key = "numbered"
  · subst numbered
    have read := filled_gives follows written.boolean_takes depth "numbered" before.numbered
      fun flag => { before with numbered := some flag }
    simp only [listMember, if_true]
    exact read.congr fun after => by simp only [ListMember, View.ListStep.numbered_iff, true_implies]
  by_cases source : key = "inner_data"
  · subst source
    have read := filled_gives follows (reference_takes written) depth "inner_data" before.source
      fun place => { before with source := some place }
    simp only [listMember, String.reduceEq, if_true, if_false]
    exact read.congr fun after => by simp only [ListMember, View.ListStep.source_iff, true_implies]
  by_cases item : key = "item_code"
  · subst item
    have read := filled_gives follows taken depth "item_code" before.item
      fun code => { before with item := some code }
    simp only [listMember, String.reduceEq, if_true, if_false]
    exact read.congr fun after => by simp only [ListMember, View.ListStep.item_iff, true_implies]
  · have unknown : key ∉ ["numbered", "inner_data", "item_code"] := by simp [numbered, source, item]
    simp only [listMember, if_neg numbered, if_neg source, if_neg item, unknownField_eq follows]
    exact (Gives.done _ before rest).congr fun after => (View.ListStep.other_iff unknown).symm

theorem listMembers_take {members : List (Option String × Written)}
    (each : ∀ member ∈ members, member.2.Takes view fun view => view.WrittenAs member.2) :
    TakesMembers (fun depth => listMembers (view depth) depth) members fun view =>
      ∃ entries parts, members = named entries ∧ Run ListMember .none entries parts ∧ parts.view = .ok view := by
  intro depth inner rest begins
  have read := members_take (fun key written found => listMember_takes key (each (some key, written) found))
    begins .none depth
  refine Gives.insideObject ?_ (endOfObject_closing (.refl _))
  refine (read.bind fun parts _ => complete_gives _ parts.view _).congr fun view => ?_
  constructor
  · rintro ⟨parts, ⟨entries, same, run⟩, made⟩
    exact ⟨entries, parts, same, run, made⟩
  · rintro ⟨entries, parts, same, run, made⟩
    exact ⟨parts, ⟨entries, same, run⟩, made⟩

def SourceItems (flag : Bool) (items : List Written) (shown : View) : Prop :=
  ∃ second third place item, items = [second, third] ∧ second.Tells Reference.ofJson place ∧
    View.WrittenAs item third ∧ shown = .list flag place item

theorem sourceItems_take {fits : Prop} {depth : Nat} {items : List Written}
    (enough : fits → ∀ item ∈ items, item.depth ≤ depth)
    (each : ∀ item ∈ items, item.Takes view fun view => view.WrittenAs item) (numbered : Option Bool) :
    TakesRest fits false (fun text => do
        let (source, text) ← requiredItem 1 (listWanted ++ " with 3 elements") (reference depth) text
        let (item, text) ← requiredItem 2 (listWanted ++ " with 3 elements") (view depth) text
        complete (View.ListParts.view ⟨numbered, some source, some item⟩) text) items
      (SourceItems (numbered.getD false) items) := by
  have later (place : Reference) (second : Written) (others : List Written) (same : items = second :: others) :
      TakesRest fits false (fun text => do
          let (item, text) ← requiredItem 2 (listWanted ++ " with 3 elements") (view depth) text
          complete (View.ListParts.view ⟨numbered, some place, some item⟩) text) others fun shown =>
        ∃ third last item, others = third :: last ∧ View.WrittenAs item third ∧
          last = [] ∧ View.list (numbered.getD false) place item = shown :=
    TakesRest.required 2 (fun item => complete (View.ListParts.view ⟨numbered, some place, some item⟩))
      (fun item member => each item (same ▸ List.mem_cons_of_mem _ member))
      (fun fits item member => enough fits item (same ▸ List.mem_cons_of_mem _ member)) _
      fun third last _ item => .done fits _ last
  have taken : TakesRest fits false (fun text => do
        let (source, text) ← requiredItem 1 (listWanted ++ " with 3 elements") (reference depth) text
        let (item, text) ← requiredItem 2 (listWanted ++ " with 3 elements") (view depth) text
        complete (View.ListParts.view ⟨numbered, some source, some item⟩) text) items fun shown =>
      ∃ second others place, items = second :: others ∧ second.Tells Reference.ofJson place ∧
        ∃ third last item, others = third :: last ∧ View.WrittenAs item third ∧
          last = [] ∧ View.list (numbered.getD false) place item = shown :=
    TakesRest.required 1 _ (fun item _ => reference_takes item) enough _
      fun second others same place => later place second others same
  refine taken.congr fun shown => ?_
  constructor
  · rintro ⟨second, _, place, rfl, source, third, _, item, rfl, inner, rfl, rfl⟩
    exact ⟨second, third, place, item, rfl, source, inner, rfl⟩
  · rintro ⟨second, third, place, item, rfl, source, inner, rfl⟩
    exact ⟨second, _, place, rfl, source, third, _, item, rfl, inner, rfl, rfl⟩

theorem listItems_take {items : List Written}
    (each : ∀ item ∈ items, item.Takes view fun view => view.WrittenAs item) :
    TakesItems (fun depth => listItems (view depth) depth) items fun shown =>
      ∃ first others flag, items = first :: others ∧ first.Tells Json.asBoolean flag ∧
        SourceItems flag others shown := by
  intro depth inner rest begins
  have taken : TakesRest (Written.depthItems items ≤ depth) true (listItems (view depth) depth) items fun shown =>
      (items = [] ∧ SourceItems false [] shown) ∨
        ∃ first others flag, items = first :: others ∧ first.Tells Json.asBoolean flag ∧
          SourceItems flag others shown :=
    TakesRest.next (fun numbered text => do
        let (source, text) ← requiredItem 1 (listWanted ++ " with 3 elements") (reference depth) text
        let (item, text) ← requiredItem 2 (listWanted ++ " with 3 elements") (view depth) text
        complete (View.ListParts.view ⟨numbered, some source, some item⟩) text)
      (fun item _ => item.boolean_takes) shallow
      (sourceItems_take (fun _ => List.forall_mem_nil _) (List.forall_mem_nil _) none)
      fun first others same flag => sourceItems_take
        (fun fits item member => shallow fits item (same ▸ List.mem_cons_of_mem _ member))
        (fun item member => each item (same ▸ List.mem_cons_of_mem _ member)) (some flag)
  refine (taken.insideList begins).congr fun shown => ?_
  constructor
  · rintro (⟨-, _, _, _, _, none, -⟩ | given)
    · cases none
    · exact given
  · exact .inr

theorem elementContent_takes (written : Written) :
    written.Takes (fun depth => viewContent (inside depth fun depth => (depth, view depth)) .element)
      fun shown => View.ContentAs .element shown written := by
  intro depth text rest stands
  simp only [viewContent, map_inside]
  have read := Written.fields_take elementWanted (fun items (_ : written = .list items) => elementItems_take items)
    fun members _ => elementMembers_take members
  refine (read stands).congr fun shown => ?_
  constructor
  · rintro (⟨items, rfl, given⟩ | ⟨_, rfl, entries, parts, rfl, run, made⟩)
    · exact .elementItems given
    · exact .element run made
  · intro content
    cases content with
    | elementItems given => exact .inl ⟨_, rfl, given⟩
    | element run made => exact .inr ⟨_, rfl, _, _, rfl, run, made⟩

theorem listContent_takes {written : Written}
    (items : ∀ items, written = .list items → ∀ item ∈ items, item.Takes view fun view => view.WrittenAs item)
    (members : ∀ members, written = .object members →
      ∀ member ∈ members, member.2.Takes view fun view => view.WrittenAs member.2) :
    written.Takes (fun depth => viewContent (inside depth fun depth => (depth, view depth)) .list)
      fun shown => View.ContentAs .list shown written := by
  intro depth text rest stands
  simp only [viewContent, map_inside]
  have read := Written.fields_take listWanted (fun given same => listItems_take (items given same))
    fun given same => listMembers_take (members given same)
  refine (read stands).congr fun shown => ?_
  constructor
  · rintro (⟨_, rfl, first, _, flag, rfl, numbered, second, third, place, item, rfl, source, inner, rfl⟩ |
      ⟨_, rfl, entries, parts, rfl, run, made⟩)
    · exact .listItems numbered source inner
    · exact .list run made
  · intro content
    cases content with
    | listItems numbered source inner =>
      exact .inl ⟨_, rfl, _, _, _, rfl, numbered, _, _, _, _, rfl, source, inner, rfl⟩
    | list run made => exact .inr ⟨_, rfl, _, _, rfl, run, made⟩

theorem sequenceContent_takes {written : Written}
    (items : ∀ items, written = .list items → ∀ item ∈ items, item.Takes view fun view => view.WrittenAs item) :
    written.Takes (fun depth => viewContent (inside depth fun depth => (depth, view depth)) .sequence)
      fun shown => View.ContentAs .sequence shown written := by
  intro depth text rest stands
  simp only [viewContent, map_inside]
  have listed := Written.list_takes "a sequence" fun given same _ _ _ begins =>
    items_take (items given same) begins _
  refine ((listed stands).map View.sequence fun _ => rfl).congr fun shown => ?_
  constructor
  · rintro ⟨_, ⟨values, rfl, each⟩, rfl⟩
    exact .sequence each
  · intro content
    cases content with
    | sequence each => exact ⟨_, ⟨_, rfl, each⟩, rfl⟩

theorem holeContent_takes (written : Written) :
    written.Takes (fun depth => viewContent (inside depth fun depth => (depth, view depth)) .hole)
      fun shown => View.ContentAs .hole shown written := by
  intro depth text rest stands
  have read : Gives (written.depth ≤ depth) (viewContent (inside depth fun depth => (depth, view depth)) .hole text)
      rest _ := (written.null_takes stands).map (fun () => View.hole) fun _ => rfl
  refine read.congr fun shown => ?_
  constructor
  · rintro ⟨_, ⟨value, means, told⟩, rfl⟩
    rw [Json.asNull_eq_ok.1 told] at means
    rw [Written.value?_null means]
    exact .hole
  · intro content
    cases content with
    | hole => exact ⟨(), ⟨.null, rfl, rfl⟩, rfl⟩

/-- What stands beside the name of a view is read as it says. -/
theorem content_takes {written : Written} (kind : View.Kind)
    (items : ∀ items, written = .list items → ∀ item ∈ items, item.Takes view fun view => view.WrittenAs item)
    (members : ∀ members, written = .object members →
      ∀ member ∈ members, member.2.Takes view fun view => view.WrittenAs member.2) :
    written.Takes (fun depth => viewContent (inside depth fun depth => (depth, view depth)) kind)
      fun view => view.ContentAs kind written := by
  cases kind with
  | element => exact elementContent_takes written
  | list => exact listContent_takes items members
  | sequence => exact sequenceContent_takes items
  | hole => exact holeContent_takes written

/-- A view is read where it stands. -/
theorem view_takes (written : Written) : written.Takes view fun shown => shown.WrittenAs written := by
  intro depth text rest stands
  have tagged : Gives (written.depth ≤ depth) (view depth text) rest
      (Tagged View.Kind.all View.Kind.name View.bare (fun kind inner shown => View.ContentAs kind shown inner) written) := by
    rw [view_eq]
    refine tagged_takes ?_ stands
    intro key inner members same kind
    refine content_takes kind ?_ ?_
    · intro items listed item member
      exact view_takes item
    · intro fields named field member
      exact view_takes field.2
  refine tagged.congr fun shown => ?_
  constructor
  · intro tagged
    cases tagged with
    | @bare key kind _ known plain =>
      rw [Json.name_of_variant known]
      cases kind <;> cases plain
      exact .bare
    | @content key kind _ _ known inner =>
      rw [Json.name_of_variant known]
      exact .tagged inner
  · intro given
    cases given with
    | bare => exact .bare (variant_view .hole) rfl
    | tagged inner => exact .content (variant_view _) inner
termination_by written
decreasing_by
  · rw [same, listed]
    exact Written.sizeOf_lt_listed member
  · rw [same, named]
    exact Written.sizeOf_lt_field member

end Reading

end ViewTree
