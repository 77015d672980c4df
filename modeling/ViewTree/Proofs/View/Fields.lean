import ViewTree.Proofs.Record
import ViewTree.View.Decoding

namespace ViewTree.View

open Entries (Optional Run Slot)

variable {β : Type} {members : List (String × β)} {view : View}

section Element

variable {once : Prop} {tag : β → String → Prop} {attributes : β → List (String × Value) → Prop}
  {text : β → Value → Prop}

/-- What a field changes in the parts of an element that were met before it; `once` says that no field may be
given again. -/
inductive ElementStep (once : Prop) (tag : β → String → Prop) (attributes : β → List (String × Value) → Prop)
    (text : β → Value → Prop) : ElementParts → String × β → ElementParts → Prop
  | tag {parts : ElementParts} {name : String} {value : β} {taken : String} (named : name = "tag")
    (new : once → parts.tag = none) (takes : tag value taken) :
    ElementStep once tag attributes text parts (name, value) { parts with tag := some taken }
  | attributes {parts : ElementParts} {name : String} {value : β} {taken : List (String × Value)}
    (named : name = "attrs") (new : once → parts.attributes = none) (takes : attributes value taken) :
    ElementStep once tag attributes text parts (name, value) { parts with attributes := some taken }
  | text {parts : ElementParts} {name : String} {value : β} {taken : Value} (named : name = "inner_text")
    (new : once → parts.text = none) (takes : text value taken) :
    ElementStep once tag attributes text parts (name, value) { parts with text := some taken }
  | other {parts : ElementParts} {name : String} {value : β}
    (unknown : name ∉ ["tag", "attrs", "inner_text"]) :
    ElementStep once tag attributes text parts (name, value) parts

def ElementParts.Lacks (parts : ElementParts) (name : String) : Prop :=
  (name = "tag" → parts.tag = .none) ∧ (name = "attrs" → parts.attributes = .none) ∧
    (name = "inner_text" → parts.text = .none)

theorem ElementParts.lacks_none (name : String) : ElementParts.none.Lacks name :=
  ⟨fun _ => rfl, fun _ => rfl, fun _ => rfl⟩

theorem ElementParts.view_eq_ok {parts : ElementParts} :
    parts.view = .ok view ↔ ∃ tag, parts.tag = some tag ∧
      view = .element tag (parts.attributes.getD []) (parts.text.getD .empty) := by
  rw [ElementParts.view, bind_eq_ok]
  cases parts.tag with
  | none => exact ⟨nofun, nofun⟩
  | some tag => simp [Json.required, @eq_comm _ view]

namespace ElementStep

variable {before after : ElementParts}

theorem tag_iff {value : β} :
    ElementStep once tag attributes text before ("tag", value) after ↔
      ∃ taken, ((once → before.tag = none) ∧ tag value taken) ∧
      { before with tag := some taken } = after := by
  constructor
  · intro step
    cases step with
    | tag _ new takes => exact ⟨_, ⟨new, takes⟩, rfl⟩
    | attributes named | text named => exact absurd named (by decide)
    | other unknown => exact absurd (by decide) unknown
  · rintro ⟨taken, ⟨new, takes⟩, rfl⟩
    exact .tag rfl new takes

theorem attributes_iff {value : β} :
    ElementStep once tag attributes text before ("attrs", value) after ↔
      ∃ taken, ((once → before.attributes = none) ∧ attributes value taken) ∧
      { before with attributes := some taken } = after := by
  constructor
  · intro step
    cases step with
    | attributes _ new takes => exact ⟨_, ⟨new, takes⟩, rfl⟩
    | tag named | text named => exact absurd named (by decide)
    | other unknown => exact absurd (by decide) unknown
  · rintro ⟨taken, ⟨new, takes⟩, rfl⟩
    exact .attributes rfl new takes

theorem text_iff {value : β} :
    ElementStep once tag attributes text before ("inner_text", value) after ↔
      ∃ taken, ((once → before.text = none) ∧ text value taken) ∧
      { before with text := some taken } = after := by
  constructor
  · intro step
    cases step with
    | text _ new takes => exact ⟨_, ⟨new, takes⟩, rfl⟩
    | tag named | attributes named => exact absurd named (by decide)
    | other unknown => exact absurd (by decide) unknown
  · rintro ⟨taken, ⟨new, takes⟩, rfl⟩
    exact .text rfl new takes

theorem other_iff {name : String} {value : β} (unknown : name ∉ ["tag", "attrs", "inner_text"]) :
    ElementStep once tag attributes text before (name, value) after ↔ before = after := by
  constructor
  · intro step
    simp only [List.mem_cons, List.not_mem_nil, or_false, not_or] at unknown
    cases step with
    | tag named => exact absurd named unknown.1
    | attributes named => exact absurd named unknown.2.1
    | text named => exact absurd named unknown.2.2
    | other => rfl
  · rintro rfl
    exact .other unknown

theorem tag_slot : Slot (ElementStep once tag attributes text) "tag" ElementParts.tag tag where
  own := by
    intro before value after step
    obtain ⟨taken, ⟨-, takes⟩, rfl⟩ := tag_iff.1 step
    exact ⟨taken, takes, rfl⟩
  other := by
    intro before name value after differ step
    cases step with
    | tag named => exact absurd named differ
    | attributes | text | other => rfl

theorem attributes_slot : Slot (ElementStep once tag attributes text) "attrs" ElementParts.attributes attributes where
  own := by
    intro before value after step
    obtain ⟨taken, ⟨-, takes⟩, rfl⟩ := attributes_iff.1 step
    exact ⟨taken, takes, rfl⟩
  other := by
    intro before name value after differ step
    cases step with
    | attributes named => exact absurd named differ
    | tag | text | other => rfl

theorem text_slot : Slot (ElementStep once tag attributes text) "inner_text" ElementParts.text text where
  own := by
    intro before value after step
    obtain ⟨taken, ⟨-, takes⟩, rfl⟩ := text_iff.1 step
    exact ⟨taken, takes, rfl⟩
  other := by
    intro before name value after differ step
    cases step with
    | text named => exact absurd named differ
    | tag | attributes | other => rfl

theorem imp {once' : Prop} {tag' : β → String → Prop} {attributes' : β → List (String × Value) → Prop}
    {text' : β → Value → Prop} (less : once' → once) (moreTag : ∀ {value taken}, tag value taken → tag' value taken)
    (moreAttributes : ∀ {value taken}, attributes value taken → attributes' value taken)
    (moreText : ∀ {value taken}, text value taken → text' value taken)
    {entry : String × β} (step : ElementStep once tag attributes text before entry after) :
    ElementStep once' tag' attributes' text' before entry after := by
  cases step with
  | tag named new takes => exact .tag named (fun again => new (less again)) (moreTag takes)
  | attributes named new takes => exact .attributes named (fun again => new (less again)) (moreAttributes takes)
  | text named new takes => exact .text named (fun again => new (less again)) (moreText takes)
  | other unknown => exact .other unknown

theorem view_iff (distinct : (members.map Prod.fst).Nodup) :
    (∃ parts, Run (ElementStep once tag attributes text) .none members parts ∧ parts.view = .ok view) ↔
      ∃ name declared shown, view = .element name declared shown ∧
        (∃ value, Entries.find? "tag" members = some value ∧ tag value name) ∧
        Optional members "attrs" (declared = []) (attributes · declared) ∧
        Optional members "inner_text" (shown = .empty) (text · shown) := by
  constructor
  · rintro ⟨parts, run, made⟩
    obtain ⟨name, given, rfl⟩ := ElementParts.view_eq_ok.1 made
    exact ⟨name, _, _, rfl, (tag_slot.optional run distinct rfl).required given,
      (attributes_slot.optional run distinct rfl).default [],
      (text_slot.optional run distinct rfl).default .empty⟩
  · rintro ⟨name, declared, shown, rfl, ⟨value, found, takes⟩, attrs, inner⟩
    -- Steps that take nothing but what is wanted lead to nothing else.
    have total : ∀ entry ∈ members, ∀ before, ElementParts.Lacks before entry.1 → ∃ after,
        ElementStep once (fun value taken => tag value taken ∧ taken = name)
          (fun value taken => attributes value taken ∧ taken = declared)
          (fun value taken => text value taken ∧ taken = shown) before entry after ∧
        ∀ other, other ≠ entry.1 → before.Lacks other → after.Lacks other := by
      rintro ⟨key, given⟩ member before lacks
      by_cases known : key ∈ ["tag", "attrs", "inner_text"]
      · simp only [List.mem_cons, List.not_mem_nil, or_false] at known
        rcases known with rfl | rfl | rfl
        · rw [Entries.find?_eq_last? distinct, Entries.last?_of_mem distinct member] at found
          cases found
          refine ⟨_, .tag rfl (fun _ => lacks.1 rfl) ⟨takes, rfl⟩, ?_⟩
          exact fun other differ lacks => ⟨fun same => absurd same differ, lacks.2⟩
        · refine ⟨_, .attributes rfl (fun _ => lacks.2.1 rfl) ⟨attrs.of_mem distinct member, rfl⟩, ?_⟩
          exact fun other differ lacks => ⟨lacks.1, fun same => absurd same differ, lacks.2.2⟩
        · refine ⟨_, .text rfl (fun _ => lacks.2.2 rfl) ⟨inner.of_mem distinct member, rfl⟩, ?_⟩
          exact fun other differ lacks => ⟨lacks.1, lacks.2.1, fun same => absurd same differ⟩
      · exact ⟨before, .other known, fun _ _ => id⟩
    obtain ⟨parts, run⟩ := Run.exists ElementParts.Lacks total distinct fun entry _ => ElementParts.lacks_none entry.1
    refine ⟨parts, run.imp (ElementStep.imp id And.left And.left And.left), ElementParts.view_eq_ok.2 ⟨name, ?_, ?_⟩⟩
    · exact (tag_slot.optional run distinct rfl).eq_some found
    · rw [(attributes_slot.optional run distinct rfl).getD_eq attrs,
        (text_slot.optional run distinct rfl).getD_eq inner]

end ElementStep

end Element

section List

variable {once : Prop} {numbered : β → Bool → Prop} {source : β → Reference → Prop} {item : β → View → Prop}

/-- What a field changes in the parts of a list that were met before it. -/
inductive ListStep (once : Prop) (numbered : β → Bool → Prop) (source : β → Reference → Prop)
    (item : β → View → Prop) :
    ListParts → String × β → ListParts → Prop
  | numbered {before : Option Bool} {place : Option Reference} {code : Option View} {name : String} {value : β}
    {taken : Bool} (named : name = "numbered") (new : once → before = none) (takes : numbered value taken) :
    ListStep once numbered source item ⟨before, place, code⟩ (name, value) ⟨some taken, place, code⟩
  | source {flag : Option Bool} {before : Option Reference} {code : Option View} {name : String} {value : β}
    {taken : Reference} (named : name = "inner_data") (new : once → before = none) (takes : source value taken) :
    ListStep once numbered source item ⟨flag, before, code⟩ (name, value) ⟨flag, some taken, code⟩
  | item {flag : Option Bool} {place : Option Reference} {before : Option View} {name : String} {value : β}
    {taken : View} (named : name = "item_code") (new : once → before = none) (takes : item value taken) :
    ListStep once numbered source item ⟨flag, place, before⟩ (name, value) ⟨flag, place, some taken⟩
  | other {parts : ListParts} {name : String} {value : β}
    (unknown : name ∉ ["numbered", "inner_data", "item_code"]) :
    ListStep once numbered source item parts (name, value) parts

def ListParts.Lacks (parts : ListParts) (name : String) : Prop :=
  (name = "numbered" → parts.numbered = .none) ∧ (name = "inner_data" → parts.source = .none) ∧
    (name = "item_code" → parts.item = .none)

theorem ListParts.lacks_none (name : String) : ListParts.none.Lacks name :=
  ⟨fun _ => rfl, fun _ => rfl, fun _ => rfl⟩

theorem ListParts.view_eq_ok {parts : ListParts} :
    parts.view = .ok view ↔ ∃ place code, parts.source = some place ∧ parts.item = some code ∧
      view = .list (parts.numbered.getD false) place code := by
  rw [ListParts.view, bind_eq_ok]
  cases parts.source with
  | none => exact ⟨nofun, nofun⟩
  | some place =>
    cases parts.item with
    | none => exact ⟨nofun, nofun⟩
    | some code => simp [Json.required, bind, Except.bind, @eq_comm _ view]

namespace ListStep

variable {before after : ListParts}

theorem numbered_iff {value : β} :
    ListStep once numbered source item before ("numbered", value) after ↔
      ∃ taken, ((once → before.numbered = none) ∧ numbered value taken) ∧
      { before with numbered := some taken } = after := by
  constructor
  · intro step
    cases step with
    | numbered _ new takes => exact ⟨_, ⟨new, takes⟩, rfl⟩
    | source named | item named => exact absurd named (by decide)
    | other unknown => exact absurd (by decide) unknown
  · rintro ⟨taken, ⟨new, takes⟩, rfl⟩
    exact .numbered rfl new takes

theorem source_iff {value : β} :
    ListStep once numbered source item before ("inner_data", value) after ↔
      ∃ taken, ((once → before.source = none) ∧ source value taken) ∧
      { before with source := some taken } = after := by
  constructor
  · intro step
    cases step with
    | source _ new takes => exact ⟨_, ⟨new, takes⟩, rfl⟩
    | numbered named | item named => exact absurd named (by decide)
    | other unknown => exact absurd (by decide) unknown
  · rintro ⟨taken, ⟨new, takes⟩, rfl⟩
    exact .source rfl new takes

theorem item_iff {value : β} :
    ListStep once numbered source item before ("item_code", value) after ↔
      ∃ taken, ((once → before.item = none) ∧ item value taken) ∧
      { before with item := some taken } = after := by
  constructor
  · intro step
    cases step with
    | item _ new takes => exact ⟨_, ⟨new, takes⟩, rfl⟩
    | numbered named | source named => exact absurd named (by decide)
    | other unknown => exact absurd (by decide) unknown
  · rintro ⟨taken, ⟨new, takes⟩, rfl⟩
    exact .item rfl new takes

theorem other_iff {name : String} {value : β} (unknown : name ∉ ["numbered", "inner_data", "item_code"]) :
    ListStep once numbered source item before (name, value) after ↔ before = after := by
  constructor
  · intro step
    simp only [List.mem_cons, List.not_mem_nil, or_false, not_or] at unknown
    cases step with
    | numbered named => exact absurd named unknown.1
    | source named => exact absurd named unknown.2.1
    | item named => exact absurd named unknown.2.2
    | other => rfl
  · rintro rfl
    exact .other unknown

theorem numbered_slot : Slot (ListStep once numbered source item) "numbered" ListParts.numbered numbered where
  own := by
    intro before value after step
    obtain ⟨taken, ⟨-, takes⟩, rfl⟩ := numbered_iff.1 step
    exact ⟨taken, takes, rfl⟩
  other := by
    intro before name value after differ step
    cases step with
    | numbered named => exact absurd named differ
    | source | item | other => rfl

theorem source_slot : Slot (ListStep once numbered source item) "inner_data" ListParts.source source where
  own := by
    intro before value after step
    obtain ⟨taken, ⟨-, takes⟩, rfl⟩ := source_iff.1 step
    exact ⟨taken, takes, rfl⟩
  other := by
    intro before name value after differ step
    cases step with
    | source named => exact absurd named differ
    | numbered | item | other => rfl

theorem item_slot : Slot (ListStep once numbered source item) "item_code" ListParts.item item where
  own := by
    intro before value after step
    obtain ⟨taken, ⟨-, takes⟩, rfl⟩ := item_iff.1 step
    exact ⟨taken, takes, rfl⟩
  other := by
    intro before name value after differ step
    cases step with
    | item named => exact absurd named differ
    | numbered | source | other => rfl

theorem imp {once' : Prop} {numbered' : β → Bool → Prop} {source' : β → Reference → Prop}
    {item' : β → View → Prop}
    (less : once' → once) (moreNumbered : ∀ {value taken}, numbered value taken → numbered' value taken)
    (moreSource : ∀ {value taken}, source value taken → source' value taken)
    (moreItem : ∀ {value taken}, item value taken → item' value taken)
    {entry : String × β} (step : ListStep once numbered source item before entry after) :
    ListStep once' numbered' source' item' before entry after := by
  cases step with
  | numbered named new takes => exact .numbered named (fun again => new (less again)) (moreNumbered takes)
  | source named new takes => exact .source named (fun again => new (less again)) (moreSource takes)
  | item named new takes => exact .item named (fun again => new (less again)) (moreItem takes)
  | other unknown => exact .other unknown

theorem view_iff (distinct : (members.map Prod.fst).Nodup) :
    (∃ parts, Run (ListStep once numbered source item) .none members parts ∧ parts.view = .ok view) ↔
      ∃ flag place code, view = .list flag place code ∧
        Optional members "numbered" (flag = false) (numbered · flag) ∧
        (∃ value, Entries.find? "inner_data" members = some value ∧ source value place) ∧
        (∃ value, Entries.find? "item_code" members = some value ∧ item value code) := by
  constructor
  · rintro ⟨parts, run, made⟩
    obtain ⟨place, code, first, second, rfl⟩ := ListParts.view_eq_ok.1 made
    exact ⟨_, place, code, rfl, (numbered_slot.optional run distinct rfl).default false,
      (source_slot.optional run distinct rfl).required first,
      (item_slot.optional run distinct rfl).required second⟩
  · rintro ⟨flag, place, code, rfl, marked, ⟨value, found, takes⟩, ⟨value', found', takes'⟩⟩
    have total : ∀ entry ∈ members, ∀ before, ListParts.Lacks before entry.1 → ∃ after,
        ListStep once (fun value taken => numbered value taken ∧ taken = flag)
          (fun value taken => source value taken ∧ taken = place)
          (fun value taken => item value taken ∧ taken = code) before entry after ∧
        ∀ other, other ≠ entry.1 → before.Lacks other → after.Lacks other := by
      rintro ⟨key, given⟩ member before lacks
      by_cases known : key ∈ ["numbered", "inner_data", "item_code"]
      · simp only [List.mem_cons, List.not_mem_nil, or_false] at known
        rcases known with rfl | rfl | rfl
        · refine ⟨_, .numbered rfl (fun _ => lacks.1 rfl) ⟨marked.of_mem distinct member, rfl⟩, ?_⟩
          exact fun other differ lacks => ⟨fun same => absurd same differ, lacks.2⟩
        · rw [Entries.find?_eq_last? distinct, Entries.last?_of_mem distinct member] at found
          cases found
          refine ⟨_, .source rfl (fun _ => lacks.2.1 rfl) ⟨takes, rfl⟩, ?_⟩
          exact fun other differ lacks => ⟨lacks.1, fun same => absurd same differ, lacks.2.2⟩
        · rw [Entries.find?_eq_last? distinct, Entries.last?_of_mem distinct member] at found'
          cases found'
          refine ⟨_, .item rfl (fun _ => lacks.2.2 rfl) ⟨takes', rfl⟩, ?_⟩
          exact fun other differ lacks => ⟨lacks.1, lacks.2.1, fun same => absurd same differ⟩
      · exact ⟨before, .other known, fun _ _ => id⟩
    obtain ⟨parts, run⟩ := Run.exists ListParts.Lacks total distinct fun entry _ => ListParts.lacks_none entry.1
    refine ⟨parts, run.imp (ListStep.imp id And.left And.left And.left),
      ListParts.view_eq_ok.2 ⟨place, code, ?_, ?_, ?_⟩⟩
    · exact (source_slot.optional run distinct rfl).eq_some found
    · exact (item_slot.optional run distinct rfl).eq_some found'
    · rw [(numbered_slot.optional run distinct rfl).getD_eq marked]

end ListStep

end List

end ViewTree.View

namespace ViewTree.Template

open Entries (Optional Run Slot)

variable {β : Type} {members : List (String × β)} {version : β → UInt32 → Prop} {code : β → View → Prop}

/-- What a field changes in the parts of a template that were met before it. -/
inductive Step (version : β → UInt32 → Prop) (code : β → View → Prop) : Parts → String × β → Parts → Prop
  | version {parts : Parts} {name : String} {value : β} {taken : UInt32} (named : name = "version")
    (takes : version value taken) : Step version code parts (name, value) { parts with version := some taken }
  | code {parts : Parts} {name : String} {value : β} {taken : View} (named : name = "code")
    (takes : code value taken) : Step version code parts (name, value) { parts with code := some taken }
  | other {parts : Parts} {name : String} {value : β} (unknown : name ∉ ["version", "code"]) :
    Step version code parts (name, value) parts

namespace Step

theorem version_slot : Slot (Step version code) "version" Parts.version version where
  own := by
    intro before value after step
    cases step with
    | version _ takes => exact ⟨_, takes, rfl⟩
    | code named => exact absurd named (by decide)
    | other unknown => exact absurd (by decide) unknown
  other := by
    intro before name value after differ step
    cases step with
    | version named => exact absurd named differ
    | code | other => rfl

theorem code_slot : Slot (Step version code) "code" Parts.code code where
  own := by
    intro before value after step
    cases step with
    | code _ takes => exact ⟨_, takes, rfl⟩
    | version named => exact absurd named (by decide)
    | other unknown => exact absurd (by decide) unknown
  other := by
    intro before name value after differ step
    cases step with
    | code named => exact absurd named differ
    | version | other => rfl

theorem imp {version' : β → UInt32 → Prop} {code' : β → View → Prop}
    (moreVersion : ∀ {value taken}, version value taken → version' value taken)
    (moreCode : ∀ {value taken}, code value taken → code' value taken) {before after : Parts}
    {entry : String × β} (step : Step version code before entry after) :
    Step version' code' before entry after := by
  cases step with
  | version named takes => exact .version named (moreVersion takes)
  | code named takes => exact .code named (moreCode takes)
  | other unknown => exact .other unknown

theorem template_iff (distinct : (members.map Prod.fst).Nodup) {template : Template} :
    (∃ parts, Run (Step version code) ⟨none, none⟩ members parts ∧
        parts = ⟨some template.version, some template.code⟩) ↔
      (∃ value, Entries.find? "version" members = some value ∧ version value template.version) ∧
      ∃ value, Entries.find? "code" members = some value ∧ code value template.code := by
  constructor
  · rintro ⟨parts, run, rfl⟩
    exact ⟨(version_slot.optional run distinct rfl).required rfl,
      (code_slot.optional run distinct rfl).required rfl⟩
  · rintro ⟨⟨value, found, takes⟩, ⟨value', found', takes'⟩⟩
    have total : ∀ entry ∈ members, ∀ before, True → ∃ after,
        Step (fun value taken => version value taken ∧ taken = template.version)
          (fun value taken => code value taken ∧ taken = template.code) before entry after ∧
        ∀ other, other ≠ entry.1 → True → True := by
      rintro ⟨key, given⟩ member before -
      by_cases known : key ∈ ["version", "code"]
      · simp only [List.mem_cons, List.not_mem_nil, or_false] at known
        rcases known with rfl | rfl
        · rw [Entries.find?_eq_last? distinct, Entries.last?_of_mem distinct member] at found
          cases found
          exact ⟨_, .version rfl ⟨takes, rfl⟩, fun _ _ => id⟩
        · rw [Entries.find?_eq_last? distinct, Entries.last?_of_mem distinct member] at found'
          cases found'
          exact ⟨_, .code rfl ⟨takes', rfl⟩, fun _ _ => id⟩
      · exact ⟨before, .other known, fun _ _ => id⟩
    have given : ∃ parts, Run _ (⟨none, none⟩ : Parts) members parts :=
      Run.exists (fun _ _ => True) total distinct fun _ _ => trivial
    obtain ⟨parts, run⟩ := given
    have first := (version_slot.optional run distinct rfl).eq_some found
    have second := (code_slot.optional run distinct rfl).eq_some found'
    refine ⟨parts, run.imp (Step.imp And.left And.left), ?_⟩
    rw [← first, ← second]

end Step

end ViewTree.Template
