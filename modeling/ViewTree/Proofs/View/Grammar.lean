import ViewTree.Proofs.Json.Distinct
import ViewTree.Proofs.View.Depth
import ViewTree.Proofs.View.Fields
import ViewTree.Proofs.View.Reloading
import ViewTree.Proofs.View.Version

namespace ViewTree

open Json (Cause)

inductive Reference.PresentedBy : Reference → Json → Prop
  | dataName : PresentedBy .data (.string "data")
  | data : PresentedBy .data (.object [("data", .null)])
  | field (name : String) : PresentedBy (.field name) (.object [("field", .string name)])

inductive Value.PresentedBy : Value → Json → Prop
  | emptyName : PresentedBy .empty (.string "empty")
  | empty : PresentedBy .empty (.object [("empty", .null)])
  | constant (text : String) : PresentedBy (.constant text) (.object [("constant", .string text)])
  | reference {place : Reference} {value : Json} (presented : place.PresentedBy value) :
    PresentedBy (.reference place) (.object [("reference", value)])

inductive View.AttributePresentedBy : String × Value → Json → Prop
  | pair {name : String} {shown : Value} {value : Json} (presented : shown.PresentedBy value) :
    AttributePresentedBy (name, shown) (.list [.string name, value])

/-- The values that stand for a view. Other fields than those named here are of no account. -/
inductive View.PresentedBy : View → Json → Prop
  | holeName : PresentedBy .hole (.string "hole")
  | hole : PresentedBy .hole (.object [("hole", .null)])
  | sequence {items : List View} {values : List Json} (each : List.Forall₂ PresentedBy items values) :
    PresentedBy (.sequence items) (.object [("sequence", .list values)])
  | list {numbered : Bool} {source : Reference} {item : View} {members : List (String × Json)}
    {place code : Json}
    (marked : Entries.Optional members "numbered" (numbered = false) (· = .boolean numbered))
    (sourceAt : Entries.find? "inner_data" members = some place) (sourcePresented : source.PresentedBy place)
    (itemAt : Entries.find? "item_code" members = some code) (itemPresented : PresentedBy item code) :
    PresentedBy (.list numbered source item) (.object [("html_list", .object members)])
  | element {tag : String} {attributes : List (String × Value)} {text : Value}
    {members : List (String × Json)}
    (tagAt : Entries.find? "tag" members = some (.string tag))
    (declared : Entries.Optional members "attrs" (attributes = []) fun value =>
      ∃ values, value = .list values ∧ List.Forall₂ AttributePresentedBy attributes values)
    (shown : Entries.Optional members "inner_text" (text = .empty) text.PresentedBy) :
    PresentedBy (.element tag attributes text) (.object [("html_element", .object members)])

namespace View.PresentedBy

variable {view : View} {content : Json}

theorem kind {name : String} (presented : view.PresentedBy (.object [(name, content)])) :
    ∃ kind : Kind, name = kind.name := by
  cases presented with
  | hole => exact ⟨.hole, rfl⟩
  | sequence => exact ⟨.sequence, rfl⟩
  | list => exact ⟨.list, rfl⟩
  | element => exact ⟨.element, rfl⟩

theorem of_hole (presented : view.PresentedBy (.object [("hole", content)])) : view = .hole ∧ content = .null := by
  generalize same : Json.object [("hole", content)] = value at presented
  cases presented with
  | hole =>
    cases same
    exact ⟨rfl, rfl⟩
  | _ => simp at same

theorem of_sequence (presented : view.PresentedBy (.object [("sequence", content)])) :
    ∃ items values, view = .sequence items ∧ content = .list values ∧ List.Forall₂ PresentedBy items values := by
  generalize same : Json.object [("sequence", content)] = value at presented
  cases presented with
  | sequence each =>
    cases same
    exact ⟨_, _, rfl, rfl, each⟩
  | _ => simp at same

theorem of_list (presented : view.PresentedBy (.object [("html_list", content)])) :
    ∃ numbered source item members, view = .list numbered source item ∧ content = .object members ∧
      Entries.Optional members "numbered" (numbered = false) (· = .boolean numbered) ∧
      (∃ place, Entries.find? "inner_data" members = some place ∧ source.PresentedBy place) ∧
      ∃ code, Entries.find? "item_code" members = some code ∧ PresentedBy item code := by
  generalize same : Json.object [("html_list", content)] = value at presented
  cases presented with
  | list marked sourceAt source itemAt item =>
    cases same
    exact ⟨_, _, _, _, rfl, rfl, marked, ⟨_, sourceAt, source⟩, _, itemAt, item⟩
  | _ => simp at same

theorem of_element (presented : view.PresentedBy (.object [("html_element", content)])) :
    ∃ tag attributes text members, view = .element tag attributes text ∧ content = .object members ∧
      Entries.find? "tag" members = some (.string tag) ∧
      (Entries.Optional members "attrs" (attributes = []) fun value =>
        ∃ values, value = .list values ∧ List.Forall₂ AttributePresentedBy attributes values) ∧
      Entries.Optional members "inner_text" (text = .empty) text.PresentedBy := by
  generalize same : Json.object [("html_element", content)] = value at presented
  cases presented with
  | element tagAt declared shown =>
    cases same
    exact ⟨_, _, _, _, rfl, rfl, tagAt, declared, shown⟩
  | _ => simp at same

end View.PresentedBy

namespace Json

theorem name_of_variant {ν : Type} {all : List ν} {name : ν → String} {written : String} {v : ν}
    (known : variant all name written = .ok v) : written = name v := by
  unfold variant at known
  split at known
  · rename_i found
    cases known
    have same := List.find?_some found
    exact (of_decide_eq_true same).symm
  · cases known

theorem asString_eq_ok {value : Json} {text : String} : value.asString = .ok text ↔ value = .string text := by
  cases value with
  | string written => simp [asString]
  | _ =>
    constructor
    · intro read
      cases read
    · intro same
      cases same

theorem asBoolean_eq_ok {value : Json} {flag : Bool} : value.asBoolean = .ok flag ↔ value = .boolean flag := by
  cases value with
  | boolean written => simp [asBoolean]
  | _ =>
    constructor
    · intro read
      cases read
    · intro same
      cases same

theorem asNull_eq_ok {value : Json} : value.asNull = .ok () ↔ value = .null := by
  cases value with
  | null => exact ⟨fun _ => rfl, fun _ => rfl⟩
  | _ =>
    constructor
    · intro read
      cases read
    · intro same
      cases same

end Json

theorem Reference.ofJson_eq_ok {value : Json} {place : Reference} :
    ofJson value = .ok place ↔ place.PresentedBy value := by
  constructor
  · intro read
    match value with
    | .string name =>
      obtain ⟨kind, known, plain⟩ := bind_eq_ok.1 read
      rw [Json.name_of_variant known]
      cases kind <;> cases plain
      exact .dataName
    | .object [(name, content)] =>
      obtain ⟨kind, known, read⟩ := bind_eq_ok.1 read
      rw [Json.name_of_variant known]
      cases kind with
      | field =>
        obtain ⟨key, given, same⟩ := bind_eq_ok.1 read
        cases same
        rw [Json.asString_eq_ok.1 given]
        exact .field key
      | data =>
        obtain ⟨_, given, same⟩ := bind_eq_ok.1 read
        cases same
        rw [Json.asNull_eq_ok.1 given]
        exact .data
    | .object [] | .object (_ :: _ :: _) => cases read
    | .null | .boolean _ | .number _ | .list _ => cases read
  · intro presented
    cases presented <;> rfl

theorem Value.ofJson_eq_ok {value : Json} {shown : Value} :
    ofJson value = .ok shown ↔ shown.PresentedBy value := by
  constructor
  · intro read
    match value with
    | .string name =>
      obtain ⟨kind, known, plain⟩ := bind_eq_ok.1 read
      rw [Json.name_of_variant known]
      cases kind <;> cases plain
      exact .emptyName
    | .object [(name, content)] =>
      obtain ⟨kind, known, read⟩ := bind_eq_ok.1 read
      rw [Json.name_of_variant known]
      cases kind with
      | reference =>
        obtain ⟨place, given, same⟩ := bind_eq_ok.1 read
        cases same
        exact .reference (Reference.ofJson_eq_ok.1 given)
      | empty =>
        obtain ⟨_, given, same⟩ := bind_eq_ok.1 read
        cases same
        rw [Json.asNull_eq_ok.1 given]
        exact .empty
      | constant =>
        obtain ⟨text, given, same⟩ := bind_eq_ok.1 read
        cases same
        rw [Json.asString_eq_ok.1 given]
        exact .constant text
    | .object [] | .object (_ :: _ :: _) => cases read
    | .null | .boolean _ | .number _ | .list _ => cases read
  · intro presented
    cases presented with
    | @reference place value presented =>
      have decoded := Reference.ofJson_eq_ok.2 presented
      show (Reference.ofJson value >>= fun place => .ok (Value.reference place)) = _
      rw [decoded]
      rfl
    | _ => rfl

namespace View

theorem attributeOfJson_eq_ok {value : Json} {declared : String × Value} :
    attributeOfJson value = .ok declared ↔ AttributePresentedBy declared value := by
  constructor
  · intro read
    match value with
    | .list (name :: shown :: more) =>
      obtain ⟨written, given, read⟩ := bind_eq_ok.1 read
      obtain ⟨text, found, read⟩ := bind_eq_ok.1 read
      cases more with
      | nil =>
        cases read
        rw [Json.asString_eq_ok.1 given]
        exact .pair (Value.ofJson_eq_ok.1 found)
      | cons _ _ => cases read
    | .list [] => cases read
    | .list [name] =>
      obtain ⟨_, -, read⟩ := bind_eq_ok.1 read
      cases read
    | .null | .boolean _ | .number _ | .string _ | .object _ => cases read
  · intro presented
    cases presented with
    | @pair name shown value presented =>
      have decoded := Value.ofJson_eq_ok.2 presented
      simp only [attributeOfJson, Json.asString, decoded, bind, Except.bind]
      rfl

theorem attributesOfJson_eq_ok {value : Json} {declared : List (String × Value)} :
    attributesOfJson value = .ok declared ↔
      ∃ values, value = .list values ∧ List.Forall₂ AttributePresentedBy declared values := by
  cases value with
  | list items =>
    simp only [attributesOfJson, mapM_eq_ok, attributeOfJson_eq_ok, Json.list.injEq, exists_eq_left']
  | _ =>
    constructor
    · intro read
      cases read
    · rintro ⟨_, same, -⟩
      cases same

open Entries (Optional Run)

theorem elementParts_eq_ok {members : List (String × Json)} {before after : ElementParts} :
    elementParts members before = .ok after ↔
      Run (ElementStep False (fun value tag => value.asString = .ok tag)
        (fun value declared => attributesOfJson value = .ok declared)
        (fun value shown => Value.ofJson value = .ok shown)) before members after := by
  constructor
  · intro read
    induction members generalizing before with
    | nil =>
      cases read
      exact .nil _
    | cons member members ih =>
      obtain ⟨name, value⟩ := member
      simp only [elementParts] at read
      split at read
      · rename_i named
        obtain ⟨tag, given, read⟩ := bind_eq_ok.1 read
        exact .cons (.tag named False.elim given) (ih read)
      split at read
      · rename_i named
        obtain ⟨declared, given, read⟩ := bind_eq_ok.1 read
        exact .cons (.attributes named False.elim given) (ih read)
      split at read
      · rename_i named
        obtain ⟨shown, given, read⟩ := bind_eq_ok.1 read
        exact .cons (.text named False.elim given) (ih read)
      · rename_i notTag notAttributes notText
        exact .cons (.other (by simp [notTag, notAttributes, notText])) (ih read)
  · intro run
    induction run with
    | nil parts => rfl
    | cons first _ ih =>
      cases first with
      | tag named _ takes | attributes named _ takes | text named _ takes =>
        subst named
        simp only [elementParts, String.reduceEq, if_true, if_false, takes, bind, Except.bind]
        exact ih
      | other unknown =>
        simp only [List.mem_cons, List.not_mem_nil, or_false, not_or] at unknown
        simp only [elementParts, if_neg unknown.1, if_neg unknown.2.1, if_neg unknown.2.2]
        exact ih

theorem listParts_eq_ok {members : List (String × Json)} {before after : ListParts} :
    listParts members before = .ok after ↔
      Run (ListStep False (fun value flag => value.asBoolean = .ok flag)
        (fun value place => Reference.ofJson value = .ok place)
        (fun value code => ofJson value = .ok code)) before members after := by
  constructor
  · intro read
    induction members generalizing before with
    | nil =>
      cases read
      exact .nil _
    | cons member members ih =>
      obtain ⟨name, value⟩ := member
      simp only [listParts] at read
      split at read
      · rename_i named
        obtain ⟨flag, given, read⟩ := bind_eq_ok.1 read
        exact .cons (.numbered named False.elim given) (ih read)
      split at read
      · rename_i named
        obtain ⟨place, given, read⟩ := bind_eq_ok.1 read
        exact .cons (.source named False.elim given) (ih read)
      split at read
      · rename_i named
        obtain ⟨code, given, read⟩ := bind_eq_ok.1 read
        exact .cons (.item named False.elim given) (ih read)
      · rename_i notNumbered notSource notItem
        exact .cons (.other (by simp [notNumbered, notSource, notItem])) (ih read)
  · intro run
    induction run with
    | nil parts => rfl
    | cons first _ ih =>
      cases first with
      | numbered named _ takes | source named _ takes | item named _ takes =>
        subst named
        simp only [listParts, String.reduceEq, if_true, if_false, takes, bind, Except.bind]
        exact ih
      | other unknown =>
        simp only [List.mem_cons, List.not_mem_nil, or_false, not_or] at unknown
        simp only [listParts, if_neg unknown.1, if_neg unknown.2.1, if_neg unknown.2.2]
        exact ih

theorem elementOfJson_eq_ok {content : Json} (distinct : content.Distinct) {view : View} :
    elementOfJson content = .ok view ↔ view.PresentedBy (.object [("html_element", content)]) := by
  cases content with
  | object members =>
    rw [elementOfJson, bind_eq_ok]
    simp only [elementParts_eq_ok]
    rw [ElementStep.view_iff distinct.1]
    simp only [Json.asString_eq_ok, attributesOfJson_eq_ok, Value.ofJson_eq_ok, exists_eq_right]
    constructor
    · rintro ⟨tag, declared, shown, rfl, tagAt, attributes, text⟩
      exact .element tagAt attributes text
    · intro presented
      obtain ⟨tag, declared, shown, _, rfl, same, found⟩ := presented.of_element
      cases same
      exact ⟨tag, declared, shown, rfl, found⟩
  | _ =>
    constructor
    · intro read
      cases read
    · intro presented
      obtain ⟨_, _, _, _, -, same, -⟩ := presented.of_element
      cases same

theorem holeOfJson_eq_ok {content : Json} {view : View} :
    (do
      content.asNull
      .ok View.hole) = .ok view ↔ view.PresentedBy (.object [("hole", content)]) := by
  rw [bind_eq_ok]
  constructor
  · rintro ⟨_, given, same⟩
    cases same
    rw [Json.asNull_eq_ok.1 given]
    exact .hole
  · intro presented
    obtain ⟨rfl, rfl⟩ := presented.of_hole
    exact ⟨(), rfl, rfl⟩

theorem ofJson_name_eq_ok {name : String} {view : View} :
    ofJson (.string name) = .ok view ↔ view.PresentedBy (.string name) := by
  constructor
  · intro read
    obtain ⟨kind, known, plain⟩ := bind_eq_ok.1 read
    rw [Json.name_of_variant known]
    cases kind <;> cases plain
    exact .holeName
  · intro presented
    cases presented
    rfl

theorem ofJson_variant_eq_ok {name : String} {content : Json} {view : View}
    (element : elementOfJson content = .ok view ↔ view.PresentedBy (.object [("html_element", content)]))
    (list : listOfJson content = .ok view ↔ view.PresentedBy (.object [("html_list", content)]))
    (sequence : sequenceOfJson content = .ok view ↔ view.PresentedBy (.object [("sequence", content)])) :
    ofJson (.object [(name, content)]) = .ok view ↔ view.PresentedBy (.object [(name, content)]) := by
  rw [ofJson_variant, bind_eq_ok]
  constructor
  · rintro ⟨kind, known, read⟩
    rw [Json.name_of_variant known]
    cases kind with
    | element => exact element.1 read
    | list => exact list.1 read
    | sequence => exact sequence.1 read
    | hole => exact holeOfJson_eq_ok.1 read
  · intro presented
    obtain ⟨kind, rfl⟩ := presented.kind
    refine ⟨kind, by cases kind <;> rfl, ?_⟩
    cases kind with
    | element => exact element.2 presented
    | list => exact list.2 presented
    | sequence => exact sequence.2 presented
    | hole => exact holeOfJson_eq_ok.2 presented

mutual

/-- A value is decoded to a view just where it presents that view. -/
theorem ofJson_eq_ok (value : Json) (distinct : value.Distinct) {view : View} :
    ofJson value = .ok view ↔ view.PresentedBy value := by
  match value with
  | .string name => exact ofJson_name_eq_ok
  | .object [(name, content)] =>
    exact ofJson_variant_eq_ok (elementOfJson_eq_ok distinct.2.1) (listOfJson_eq_ok content distinct.2.1)
      (sequenceOfJson_eq_ok content distinct.2.1)
  | .object [] | .object (_ :: _ :: _) => exact ⟨nofun, nofun⟩
  | .null | .boolean _ | .number _ | .list _ => exact ⟨nofun, nofun⟩

theorem listOfJson_eq_ok (content : Json) (distinct : content.Distinct) {view : View} :
    listOfJson content = .ok view ↔ view.PresentedBy (.object [("html_list", content)]) := by
  match content with
  | .object members =>
    have each := ofJsonMembers_eq_ok members distinct.2
    rw [listOfJson, bind_eq_ok]
    simp only [listParts_eq_ok]
    rw [ListStep.view_iff distinct.1]
    simp only [Json.asBoolean_eq_ok, Reference.ofJson_eq_ok]
    constructor
    · rintro ⟨flag, place, code, rfl, marked, ⟨source, sourceAt, presented⟩, ⟨item, itemAt, decoded⟩⟩
      exact .list marked sourceAt presented itemAt ((each _ (Entries.mem_of_find? itemAt) code).1 decoded)
    · intro presented
      obtain ⟨flag, place, item, _, rfl, same, marked, source, code, itemAt, inner⟩ := presented.of_list
      cases same
      exact ⟨flag, place, item, rfl, marked, source, code, itemAt, (each _ (Entries.mem_of_find? itemAt) _).2 inner⟩
  | .null | .boolean _ | .number _ | .string _ | .list _ =>
    constructor
    · intro read
      cases read
    · intro presented
      obtain ⟨_, _, _, _, -, same, -⟩ := presented.of_list
      cases same

theorem sequenceOfJson_eq_ok (content : Json) (distinct : content.Distinct) {view : View} :
    sequenceOfJson content = .ok view ↔ view.PresentedBy (.object [("sequence", content)]) := by
  match content with
  | .list items =>
    have each {views : List View} : ofJsonItems items = .ok views ↔ _ := ofJsonItems_eq_ok items distinct
    rw [sequenceOfJson, bind_eq_ok]
    constructor
    · rintro ⟨views, found, same⟩
      cases same
      exact .sequence (each.1 found)
    · intro presented
      obtain ⟨views, _, rfl, same, presented⟩ := presented.of_sequence
      cases same
      exact ⟨views, each.2 presented, rfl⟩
  | .null | .boolean _ | .number _ | .string _ | .object _ =>
    constructor
    · intro read
      cases read
    · intro presented
      obtain ⟨_, _, -, same, -⟩ := presented.of_sequence
      cases same

theorem ofJsonItems_eq_ok (items : List Json) (distinct : Json.DistinctItems items) {views : List View} :
    ofJsonItems items = .ok views ↔ List.Forall₂ PresentedBy views items := by
  match items with
  | [] => exact ⟨fun made => by cases made; exact .nil, fun each => by cases each; rfl⟩
  | item :: items =>
    rw [ofJsonItems, bind_eq_ok]
    constructor
    · rintro ⟨view, first, made⟩
      obtain ⟨views, others, same⟩ := bind_eq_ok.1 made
      cases same
      exact .cons ((ofJson_eq_ok item distinct.1).1 first) ((ofJsonItems_eq_ok items distinct.2).1 others)
    · intro each
      cases each with
      | cons first others =>
        exact ⟨_, (ofJson_eq_ok item distinct.1).2 first,
          bind_eq_ok.2 ⟨_, (ofJsonItems_eq_ok items distinct.2).2 others, rfl⟩⟩

theorem ofJsonMembers_eq_ok (members : List (String × Json)) (distinct : Json.DistinctMembers members) :
    ∀ member ∈ members, ∀ item, ofJson member.2 = .ok item ↔ item.PresentedBy member.2 := by
  match members with
  | [] => nofun
  | (name, value) :: members =>
    rw [List.forall_mem_cons]
    exact ⟨fun _ => ofJson_eq_ok value distinct.1, ofJsonMembers_eq_ok members distinct.2⟩

end

end View

namespace Template

open Entries (Run)

theorem parts_eq_ok {members : List (String × Json)} {before after : Parts} :
    parts members before = .ok after ↔
      Run (Step (fun value version => value.asWord = .ok version)
        (fun value code => View.ofJson value = .ok code)) before members after := by
  constructor
  · intro read
    induction members generalizing before with
    | nil =>
      cases read
      exact .nil _
    | cons member members ih =>
      obtain ⟨name, value⟩ := member
      simp only [parts] at read
      split at read
      · rename_i named
        obtain ⟨version, given, read⟩ := bind_eq_ok.1 read
        exact .cons (.version named given) (ih read)
      split at read
      · rename_i named
        obtain ⟨code, given, read⟩ := bind_eq_ok.1 read
        exact .cons (.code named given) (ih read)
      · rename_i notVersion notCode
        exact .cons (.other (by simp [notVersion, notCode])) (ih read)
  · intro run
    induction run with
    | nil found => rfl
    | cons first _ ih =>
      cases first with
      | version named takes | code named takes =>
        subst named
        simp only [parts, String.reduceEq, if_true, if_false, takes, bind, Except.bind]
        exact ih
      | other unknown =>
        simp only [List.mem_cons, List.not_mem_nil, or_false, not_or] at unknown
        simp only [parts, if_neg unknown.1, if_neg unknown.2]
        exact ih

theorem ofJson_object_eq_ok {members : List (String × Json)} (distinct : (members.map Prod.fst).Nodup)
    {template : Template} :
    ofJson (.object members) = .ok template ↔
      (∃ value, Entries.find? "version" members = some value ∧ value.asWord = .ok template.version) ∧
      ∃ value, Entries.find? "code" members = some value ∧ View.ofJson value = .ok template.code := by
  have fields : (∃ parts, Run (Step (fun value version => value.asWord = .ok version)
      fun value code => View.ofJson value = .ok code) ⟨none, none⟩ members parts ∧
        parts = ⟨some template.version, some template.code⟩) ↔ _ := Step.template_iff distinct
  rw [ofJson, bind_eq_ok, ← fields]
  simp only [parts_eq_ok]
  constructor
  · rintro ⟨⟨version, code⟩, run, made⟩
    obtain ⟨first, given, made⟩ := bind_eq_ok.1 made
    obtain ⟨second, given', made⟩ := bind_eq_ok.1 made
    cases made
    cases version <;> cases given
    cases code <;> cases given'
    exact ⟨_, run, rfl⟩
  · rintro ⟨parts, run, rfl⟩
    exact ⟨_, run, rfl⟩

theorem asWord_eq_current {value : Json} :
    value.asWord = .ok currentVersion ↔ value = .number (.integer 1 (by decide)) := by
  rw [asWord_eq_ok]
  constructor
  · rintro ⟨within, same⟩
    exact same
  · intro same
    exact ⟨by decide, same⟩

/-- What stands for the current version is accepted, and so is everything that is no object. -/
theorem checkVersion_eq_ok {members : List (String × Json)} {value : Json}
    (found : Entries.find? "version" members = some value) :
    checkVersion (.object members) = .ok () ↔ value.asWord = .ok currentVersion := by
  simp only [checkVersion, found]
  cases given : value.asWord with
  | error cause =>
    constructor
    · intro passed
      cases passed
    · intro same
      cases same
  | ok version =>
    by_cases current : version = currentVersion
    · simp [current]
    · simp [current]

/-- A template is taken from an object just where the stored grammar has it there. -/
theorem ofValue_canonical_eq_ok {members : List (String × Json)} {template : Template} :
    ofValue (Json.object members).canonical = .ok template ↔
      template.version = currentVersion ∧
      Entries.last? "version" members = some (.number (.integer 1 (by decide))) ∧
      ∃ code, Entries.last? "code" members = some code ∧ template.code.PresentedBy code.canonical := by
  have distinct := (Entries.sorted_sorted (Json.canonicalMembers members)).nodup
  have accepted : ofValue (Json.object members).canonical = .ok template ↔
      checkVersion (Json.object members).canonical = .ok () ∧
        ofJson (Json.object members).canonical = .ok template := by
    rw [ofValue, bind_eq_ok]
    simp only [mapError_eq_ok]
    constructor
    · rintro ⟨_, judged⟩
      exact judged
    · intro judged
      exact ⟨(), judged⟩
  rw [accepted, Json.canonical, ofJson_object_eq_ok distinct, Json.find?_canonicalMembers "code"]
  simp only [Option.map_eq_some_iff]
  constructor
  · rintro ⟨checked, ⟨value, found, given⟩, ⟨_, ⟨code, last, rfl⟩, decoded⟩⟩
    rw [checkVersion_eq_ok found] at checked
    have current : template.version = currentVersion := Except.ok.inj (given.symm.trans checked)
    rw [Json.find?_canonicalMembers, Option.map_eq_some_iff] at found
    obtain ⟨written, last', rfl⟩ := found
    rw [asWord_canonical, asWord_eq_current] at checked
    subst checked
    exact ⟨current, last', code, last, (View.ofJson_eq_ok _ (Json.distinct_canonical _)).1 decoded⟩
  · rintro ⟨current, last', code, last, presented⟩
    have found := (Json.find?_canonicalMembers "version" members).trans (congrArg _ last')
    have word : (Json.number (.integer 1 (by decide))).canonical.asWord = .ok currentVersion := rfl
    refine ⟨(checkVersion_eq_ok found).2 word, ⟨_, found, ?_⟩, ⟨_, ⟨code, last, rfl⟩, ?_⟩⟩
    · rw [current, word]
    · exact (View.ofJson_eq_ok _ (Json.distinct_canonical _)).2 presented

/-- The templates that are accepted are those of the stored grammar. -/
theorem parse_eq_ok {text : String} {members : List (String × Json)}
    (parsed : Json.parse text = .ok (.object members)) (template : Template) :
    parse text = .ok template ↔
      template.version = currentVersion ∧
      Entries.last? "version" members = some (.number (.integer 1 (by decide))) ∧
      ∃ code, Entries.last? "code" members = some code ∧ template.code.PresentedBy code.canonical := by
  rw [parse_eq_ofValue parsed]
  exact ofValue_canonical_eq_ok

/-- The later of two versions counts, and what is not known is passed over. -/
theorem parse_eq_ok_rule :
    let rule := Json.object [("html_element", .object [("tag", .string "hr"), ("id", .list [])])]
    let members := [("version", .number (.ofUInt64 7)), ("note", .null), ("code", rule),
      ("version", .number (.ofUInt64 1))]
    let text := Json.compactText (.object members)
    Json.parse text = .ok (.object members) ∧ parse text = .ok (ofView (.element "hr" [] .empty)) := by
  intro rule members text
  have element : rule.Legible := ⟨⟨trivial, trivial, trivial⟩, trivial⟩
  have legible : (Json.object members).Legible :=
    ⟨Number.integer_readsBack _ _, trivial, element, Number.integer_readsBack _ _, trivial⟩
  have fits : (Json.object members).depth ≤ Json.depthLimit := by decide
  have parsed := Json.parse_compactText legible fits
  have presented : (View.element "hr" [] .empty).PresentedBy rule.canonical := .element rfl rfl rfl
  exact ⟨parsed, (parse_eq_ok parsed _).2 ⟨rfl, rfl, rule, rfl, presented⟩⟩

end Template

end ViewTree
