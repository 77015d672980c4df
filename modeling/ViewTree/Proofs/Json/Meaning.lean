import ViewTree.Json.Reader.Tree
import ViewTree.Proofs.Json.Distinct
import ViewTree.Proofs.Json.Grammar

namespace ViewTree.Json

namespace Written

def token? : Written → Option Token
  | .null => some .null
  | .boolean value => some (.boolean value)
  | .number value => value.map .number
  | .string text => text.map .string
  | .list _ => some .list
  | .object _ => some .object

mutual

/-- The value that is written, if all its strings and numbers can be taken in. -/
def value? : Written → Option Json
  | .null => some .null
  | .boolean value => some (.boolean value)
  | .number value => value.map .number
  | .string text => text.map .string
  | .list items => (values? items).map .list
  | .object members => (members? members).map .object

def values? : List Written → Option (List Json)
  | [] => some []
  | item :: items => (value? item).bind fun value => (values? items).map (value :: ·)

def members? : List (Option String × Written) → Option (List (String × Json))
  | [] => some []
  | (key, value) :: members =>
    key.bind fun key => (value? value).bind fun value => (members? members).map ((key, value) :: ·)

end

/-- Members whose keys can be taken in. -/
def named (entries : List (String × Written)) : List (Option String × Written) :=
  entries.map fun (key, value) => (some key, value)

def MembersMean (entries : List (String × Written)) (values : List (String × Json)) : Prop :=
  List.Forall₂ (fun value entry => value.1 = entry.1 ∧ value? entry.2 = some value.2) values entries

theorem values?_eq_some {items : List Written} {values : List Json} :
    values? items = some values ↔ List.Forall₂ (fun value item => value? item = some value) values items := by
  induction items generalizing values with
  | nil =>
    constructor
    · intro made
      cases made
      exact .nil
    · intro each
      cases each
      rfl
  | cons item items ih =>
    simp only [values?, Option.bind_eq_some_iff, Option.map_eq_some_iff]
    constructor
    · rintro ⟨value, first, rest, others, rfl⟩
      exact .cons first (ih.1 others)
    · intro each
      cases each with
      | cons first others => exact ⟨_, first, _, ih.2 others, rfl⟩

theorem members?_eq_some {members : List (Option String × Written)} {values : List (String × Json)} :
    members? members = some values ↔ ∃ entries, members = named entries ∧
      MembersMean entries values := by
  induction members generalizing values with
  | nil =>
    constructor
    · intro made
      cases made
      exact ⟨[], rfl, .nil⟩
    · rintro ⟨entries, same, each⟩
      cases entries with
      | nil =>
        cases each
        rfl
      | cons => cases same
  | cons member members ih =>
    obtain ⟨key, written⟩ := member
    simp only [members?, Option.bind_eq_some_iff, Option.map_eq_some_iff]
    constructor
    · rintro ⟨key, rfl, value, first, rest, others, rfl⟩
      obtain ⟨entries, rfl, each⟩ := ih.1 others
      exact ⟨(key, written) :: entries, rfl, .cons ⟨rfl, first⟩ each⟩
    · rintro ⟨entries, same, each⟩
      cases entries with
      | nil => cases same
      | cons entry entries =>
        cases same
        cases each with
        | @cons value _ values _ first others =>
          obtain ⟨key, value⟩ := value
          obtain ⟨rfl, means⟩ := first
          exact ⟨_, rfl, _, means, values, ih.2 ⟨entries, rfl, others⟩, rfl⟩

theorem depthItems_le {items : List Written} {bound : Nat} :
    depthItems items ≤ bound ↔ ∀ item ∈ items, item.depth ≤ bound := by
  induction items with
  | nil => simp [depthItems]
  | cons item items ih => rw [depthItems, Nat.max_le, ih, List.forall_mem_cons]

theorem depthMembers_le {members : List (Option String × Written)} {bound : Nat} :
    depthMembers members ≤ bound ↔ ∀ member ∈ members, member.2.depth ≤ bound := by
  induction members with
  | nil => simp [depthMembers]
  | cons member members ih => rw [depthMembers, Nat.max_le, ih, List.forall_mem_cons]

/-- What a value means, constructor by constructor. -/
inductive Means : Written → Json → Prop
  | null : Means .null .null
  | boolean (value : Bool) : Means (.boolean value) (.boolean value)
  | number (value : Number) : Means (.number (some value)) (.number value)
  | string (text : String) : Means (.string (some text)) (.string text)
  | list {items : List Written} {values : List Json}
    (each : List.Forall₂ (fun value item => value? item = some value) values items) : Means (.list items) (.list values)
  | object {entries : List (String × Written)} {values : List (String × Json)} (mean : MembersMean entries values) :
    Means (.object (named entries)) (.object values)

variable {written : Written}

theorem means_of_value? {value : Json} (means : written.value? = some value) : Means written value := by
  match written with
  | .null | .boolean _ | .number (some _) | .string (some _) =>
    cases means
    constructor
  | .number none | .string none => cases means
  | .list items =>
    obtain ⟨values, each, rfl⟩ := Option.map_eq_some_iff.1 means
    exact .list (values?_eq_some.1 each)
  | .object members =>
    obtain ⟨values, each, rfl⟩ := Option.map_eq_some_iff.1 means
    obtain ⟨entries, rfl, mean⟩ := members?_eq_some.1 each
    exact .object mean

theorem value?_null (means : written.value? = some .null) : written = .null := by
  cases means_of_value? means
  rfl

theorem value?_string {content : String} (means : written.value? = some (.string content)) :
    written = .string (some content) := by
  cases means_of_value? means
  rfl

theorem value?_list {values : List Json} (means : written.value? = some (.list values)) :
    ∃ items, written = .list items ∧ List.Forall₂ (fun value item => value? item = some value) values items := by
  cases means_of_value? means with
  | list each => exact ⟨_, rfl, each⟩

theorem value?_object {values : List (String × Json)} (means : written.value? = some (.object values)) :
    ∃ entries, written = .object (named entries) ∧ MembersMean entries values := by
  cases means_of_value? means with
  | object mean => exact ⟨_, rfl, mean⟩

theorem value?_single {key : String} {content : Written} {value : Json} :
    value? (.object [(some key, content)]) = some value ↔
      ∃ inner, content.value? = some inner ∧ value = .object [(key, inner)] := by
  cases held : content.value? with
  | none => simp [value?, members?, held]
  | some inner => simp [value?, members?, held, @eq_comm _ value]

theorem members?_named {entries : List (String × Written)} {values : List (String × Json)} :
    members? (named entries) = some values ↔ MembersMean entries values := by
  rw [members?_eq_some]
  constructor
  · rintro ⟨entries', same, mean⟩
    have injective : Function.Injective fun entry : String × Written => (some entry.1, entry.2) := by
      rintro ⟨key, value⟩ ⟨key', value'⟩ same
      cases same
      rfl
    rw [List.map_injective_iff.2 injective same]
    exact mean
  · intro mean
    exact ⟨entries, rfl, mean⟩

theorem sizeOf_lt_listed {key : Option String} {items : List Written} {members : List (Option String × Written)}
    {item : Written} (member : item ∈ items) : sizeOf item < sizeOf (object ((key, list items) :: members)) := by
  have smaller := List.sizeOf_lt_of_mem member
  simp only [object.sizeOf_spec, list.sizeOf_spec, List.cons.sizeOf_spec, Prod.mk.sizeOf_spec]
  omega

theorem sizeOf_lt_field {key : Option String} {fields members : List (Option String × Written)}
    {field : Option String × Written} (member : field ∈ fields) :
    sizeOf field.2 < sizeOf (object ((key, object fields) :: members)) := by
  have smaller := List.sizeOf_lt_of_mem member
  obtain ⟨name, value⟩ := field
  simp only [object.sizeOf_spec, List.cons.sizeOf_spec, Prod.mk.sizeOf_spec] at smaller ⊢
  omega

theorem mem_named {key : String} {value : Written} {entries : List (String × Written)}
    (member : (key, value) ∈ entries) : (some key, value) ∈ named entries :=
  List.mem_map.2 ⟨_, member, rfl⟩

namespace MembersMean

variable {entries : List (String × Written)} {values : List (String × Json)} {key : String}

theorem value?_of_last? (mean : MembersMean entries values) {written : Written}
    (last : Entries.last? key entries = some written) : ∃ value, written.value? = some value := by
  have member := Entries.mem_of_last? last
  clear last
  induction mean with
  | nil => cases member
  | @cons value _ _ _ first _ ih =>
    rcases List.mem_cons.1 member with same | member
    · subst same
      exact ⟨value.2, first.2⟩
    · exact ih member

theorem last?_eq (mean : MembersMean entries values) (key : String) :
    Entries.last? key values = (Entries.last? key entries).bind value? := by
  induction mean with
  | nil => rfl
  | @cons value entry values entries first others ih =>
    obtain ⟨name, value⟩ := value
    obtain ⟨name', written⟩ := entry
    obtain ⟨rfl, means⟩ := first
    rw [Entries.last?, Entries.last?, ih]
    cases later : Entries.last? key entries with
    | none =>
      by_cases same : key = name
      · simp [same, means]
      · simp [same]
    | some written =>
      obtain ⟨value, given⟩ := value?_of_last? others later
      simp [given]

theorem find?_eq (mean : MembersMean entries values) (key : String) :
    Entries.find? key (Entries.sorted (canonicalMembers values)) =
      (Entries.last? key entries).bind fun written => written.value?.map canonical := by
  rw [find?_canonicalMembers, mean.last?_eq, Option.map_bind]
  rfl

theorem required (mean : MembersMean entries values) (distinct : (entries.map Prod.fst).Nodup) {content : Json}
    (found : Entries.find? key (Entries.sorted (canonicalMembers values)) = some content) :
    ∃ written value, Entries.find? key entries = some written ∧ (key, written) ∈ entries ∧
      written.value? = some value ∧ value.canonical = content := by
  rw [mean.find?_eq, Option.bind_eq_some_iff] at found
  obtain ⟨written, last, found⟩ := found
  obtain ⟨value, means, same⟩ := Option.map_eq_some_iff.1 found
  exact ⟨written, value, (Entries.find?_eq_last? distinct).trans last, Entries.mem_of_last? last, means, same⟩

theorem optional (mean : MembersMean entries values) (distinct : (entries.map Prod.fst).Nodup) {absent : Prop}
    {present : Json → Prop} {present' : Written → Prop}
    (found : Entries.Optional (Entries.sorted (canonicalMembers values)) key absent present)
    (same : ∀ {written value}, (key, written) ∈ entries → written.value? = some value → present value.canonical →
      present' written) : Entries.Optional entries key absent present' := by
  rw [Entries.Optional, mean.find?_eq] at found
  rw [Entries.Optional, Entries.find?_eq_last? distinct]
  cases last : Entries.last? key entries with
  | none =>
    rw [last] at found
    exact found
  | some written =>
    obtain ⟨value, means⟩ := mean.value?_of_last? last
    rw [last, Option.bind_some, means] at found
    exact same (Entries.mem_of_last? last) means found

theorem keys_eq (mean : MembersMean entries values) : values.map Prod.fst = entries.map Prod.fst := by
  induction mean with
  | nil => rfl
  | cons first _ ih => rw [List.map_cons, List.map_cons, first.1, ih]

end MembersMean

theorem keys_named (entries : List (String × Written)) :
    (named entries).filterMap Prod.fst = entries.map Prod.fst := by
  induction entries with
  | nil => rfl
  | cons entry entries ih => exact congrArg (entry.1 :: ·) ih

mutual

/-- No object repeats a key that can be taken in. -/
def Distinct : Written → Prop
  | .list items => DistinctItems items
  | .object members => (members.filterMap Prod.fst).Nodup ∧ DistinctMembers members
  | _ => True

def DistinctItems : List Written → Prop
  | [] => True
  | item :: items => Distinct item ∧ DistinctItems items

def DistinctMembers : List (Option String × Written) → Prop
  | [] => True
  | (_, value) :: members => Distinct value ∧ DistinctMembers members

end

theorem distinctItems_iff {items : List Written} : DistinctItems items ↔ ∀ item ∈ items, item.Distinct := by
  induction items with
  | nil => exact ⟨fun _ => nofun, fun _ => trivial⟩
  | cons item items ih => rw [DistinctItems, ih, List.forall_mem_cons]

theorem distinctMembers_iff {members : List (Option String × Written)} :
    DistinctMembers members ↔ ∀ member ∈ members, member.2.Distinct := by
  induction members with
  | nil => exact ⟨fun _ => nofun, fun _ => trivial⟩
  | cons member members ih => rw [DistinctMembers, ih, List.forall_mem_cons]

theorem Distinct.keys_nodup {entries : List (String × Written)} (distinct : Distinct (.object (named entries))) :
    (entries.map Prod.fst).Nodup := by
  rw [← keys_named]
  exact distinct.1

theorem Distinct.entry {entries : List (String × Written)} (distinct : Distinct (.object (named entries)))
    {key : String} {value : Written} (member : (key, value) ∈ entries) : value.Distinct :=
  distinctMembers_iff.1 distinct.2 _ (mem_named member)

mutual

theorem distinct_value (written : Written) (distinct : written.Distinct) {value : Json}
    (means : written.value? = some value) : value.Distinct := by
  match written with
  | .null | .boolean _ | .number (some _) | .string (some _) =>
    cases means
    trivial
  | .number none | .string none => cases means
  | .list items =>
    obtain ⟨values, each, rfl⟩ := Option.map_eq_some_iff.1 means
    exact distinct_values items distinct each
  | .object members =>
    obtain ⟨values, each, rfl⟩ := Option.map_eq_some_iff.1 means
    refine ⟨?_, distinct_members members distinct.2 each⟩
    obtain ⟨entries, rfl, mean⟩ := members?_eq_some.1 each
    rw [mean.keys_eq]
    exact distinct.keys_nodup

theorem distinct_values (items : List Written) (distinct : DistinctItems items) {values : List Json}
    (means : values? items = some values) : Json.DistinctItems values := by
  match items with
  | [] =>
    cases means
    trivial
  | item :: items =>
    obtain ⟨value, first, means⟩ := Option.bind_eq_some_iff.1 means
    obtain ⟨values, others, rfl⟩ := Option.map_eq_some_iff.1 means
    exact ⟨distinct_value item distinct.1 first, distinct_values items distinct.2 others⟩

theorem distinct_members (members : List (Option String × Written)) (distinct : DistinctMembers members)
    {values : List (String × Json)} (means : members? members = some values) : Json.DistinctMembers values := by
  match members with
  | [] =>
    cases means
    trivial
  | (key, written) :: members =>
    obtain ⟨key, -, means⟩ := Option.bind_eq_some_iff.1 means
    obtain ⟨value, first, means⟩ := Option.bind_eq_some_iff.1 means
    obtain ⟨values, others, rfl⟩ := Option.map_eq_some_iff.1 means
    exact ⟨distinct_value written distinct.1 first, distinct_members members distinct.2 others⟩

end

theorem Distinct.single {key : String} {value content : Json} (distinct : written.Distinct)
    (means : written.value? = some value) (single : value.canonical = .object [(key, content)]) :
    ∃ inner held, written = .object [(some key, inner)] ∧ inner.Distinct ∧ inner.value? = some held ∧
      held.canonical = content := by
  obtain ⟨held, rfl, same⟩ := canonical_eq_single (distinct_value written distinct means) single
  obtain ⟨entries, rfl, mean⟩ := value?_object means
  rcases mean with _ | @⟨_, ⟨name, inner⟩, _, _, ⟨rfl, meant⟩, none⟩
  cases none
  exact ⟨inner, held, rfl, distinct.2.1, meant, same⟩

theorem value?_list_of_each {items : List Written} (each : ∀ item ∈ items, ∃ value, item.value? = some value) :
    ∃ value, value? (.list items) = some value := by
  have all : ∃ values, values? items = some values := by
    induction items with
    | nil => exact ⟨[], rfl⟩
    | cons item items ih =>
      rw [List.forall_mem_cons] at each
      obtain ⟨value, first⟩ := each.1
      obtain ⟨values, others⟩ := ih each.2
      exact ⟨value :: values, by simp [values?, first, others]⟩
  obtain ⟨values, all⟩ := all
  exact ⟨.list values, by rw [value?, all, Option.map_some]⟩

theorem value?_object_of_each {entries : List (String × Written)}
    (each : ∀ entry ∈ entries, ∃ value, entry.2.value? = some value) :
    ∃ value, value? (.object (named entries)) = some value := by
  have all : ∃ values, MembersMean entries values := by
    induction entries with
    | nil => exact ⟨[], .nil⟩
    | cons entry entries ih =>
      rw [List.forall_mem_cons] at each
      obtain ⟨value, first⟩ := each.1
      obtain ⟨values, others⟩ := ih each.2
      exact ⟨(entry.1, value) :: values, .cons ⟨rfl, first⟩ others⟩
  obtain ⟨values, mean⟩ := all
  exact ⟨.object values, by rw [value?, members?_named.2 mean, Option.map_some]⟩

end Written

end ViewTree.Json
