import ViewTree.Proofs.Json.Skipping
import ViewTree.View.Reading

namespace ViewTree.Json

open Reader
open Reading (inside)

variable {α β ν σ : Type} {written : Written} {text rest : List Char}

namespace Written

/-- What a decoder makes of the value that is written. -/
def Tells (decode : Json → Except Cause α) (written : Written) (said : α) : Prop :=
  ∃ value, written.value? = some value ∧ decode value = .ok said

theorem Tells.map {decode : Json → Except Cause α} {f : α → β} {said : β} :
    Tells (fun value => do .ok (f (← decode value))) written said ↔
      ∃ value, Tells decode written value ∧ f value = said := by
  constructor
  · rintro ⟨value, means, read⟩
    obtain ⟨inner, decoded, same⟩ := bind_eq_ok.1 read
    cases same
    exact ⟨inner, ⟨value, means, decoded⟩, rfl⟩
  · rintro ⟨inner, ⟨value, means, decoded⟩, rfl⟩
    exact ⟨value, means, bind_eq_ok.2 ⟨inner, decoded, rfl⟩⟩

end Written

namespace Token

def string? : Token → Option String
  | .string text => some text
  | _ => none

def boolean? : Token → Option Bool
  | .boolean value => some value
  | _ => none

def null? : Token → Option Unit
  | .null => some ()
  | _ => none

end Token

theorem Stands.token (stands : Stands written text rest) :
    (∃ token after, written.token? = some token ∧ startOfValue text = .ok (token, after) ∧
      (token ≠ .list → token ≠ .object → after = rest)) ∨
    written.token? = none ∧ ∃ fault, startOfValue text = .error fault := by
  by_cases isList : ∃ items, written = .list items
  · obtain ⟨items, rfl⟩ := isList
    obtain ⟨inner, start, -⟩ := stands.list
    exact .inl ⟨_, _, rfl, start, fun notList => absurd rfl notList⟩
  by_cases isObject : ∃ members, written = .object members
  · obtain ⟨members, rfl⟩ := isObject
    obtain ⟨inner, start, -⟩ := stands.object
    exact .inl ⟨_, _, rfl, start, fun _ notObject => absurd rfl notObject⟩
  · have read := stands.scalar (fun items same => isList ⟨items, same⟩) (fun members same => isObject ⟨members, same⟩)
    cases means : written.token? with
    | some token => exact .inl ⟨token, rest, rfl, read.complete trivial means, fun _ _ => rfl⟩
    | none =>
      rw [means] at read
      exact .inr ⟨rfl, read.eq_error⟩

namespace Written

theorem tells_of_token {decode : Json → Except Cause α} {pick : Token → Option α}
    (decodes : ∀ value said, decode value = .ok said ↔ pick value.token = some said)
    (notList : pick .list = none) (notObject : pick .object = none) {said : α} :
    written.Tells decode said ↔ written.token?.bind pick = some said := by
  cases written with
  | number value => cases value <;> simp [Tells, value?, token?, decodes, token]
  | string value => cases value <;> simp [Tells, value?, token?, decodes, token]
  | _ => simp [Tells, value?, token?, decodes, token, notList, notObject]

theorem takes_of_token {decode : Json → Except Cause α} (pick : Token → Option α) {reader : Reader α}
    (wanted : String)
    (reads : ∀ text, reader text = (do
      let (token, text) ← startOfValue text
      match pick token with
      | some value => .ok (value, text)
      | none => .error (Reader.mismatch token wanted text)))
    (decodes : ∀ value said, decode value = .ok said ↔ pick value.token = some said)
    (notList : pick .list = none) (notObject : pick .object = none) (written : Written) :
    written.Takes (fun _ => reader) (written.Tells decode) := by
  intro depth text rest stands
  have tells (said : α) : written.Tells decode said ↔ written.token?.bind pick = some said :=
    tells_of_token decodes notList notObject
  change Gives _ (reader text) _ _
  rw [reads]
  rcases stands.token with ⟨token, after, means, start, scalar⟩ | ⟨none, fault, failed⟩
  · rw [means] at tells
    rw [start]
    cases picked : pick token with
    | some value =>
      have same := scalar (by rintro rfl; cases notList.symm.trans picked) (by rintro rfl; cases notObject.symm.trans picked)
      subst same
      simp only [bind, Except.bind, picked]
      exact (Gives.done _ value after).congr fun said => by simp [tells, picked]
    | none =>
      simp only [bind, Except.bind, picked]
      exact (Gives.fails _ _ rest).congr fun said => by simp [tells, picked]
  · rw [failed]
    exact (Gives.fails _ fault rest).congr fun said => by simp [tells, none]

theorem string_takes (written : Written) : written.Takes (fun _ => Reader.string) (written.Tells asString) := by
  refine takes_of_token Token.string? "a string" ?_ ?_ rfl rfl written
  · intro text
    rw [Reader.string]
    congr 1
    funext ⟨token, text⟩
    cases token <;> rfl
  · intro value said
    cases value <;> simp [asString, token, Token.string?, Json.mismatch]

theorem boolean_takes (written : Written) : written.Takes (fun _ => Reader.boolean) (written.Tells asBoolean) := by
  refine takes_of_token Token.boolean? "a boolean" ?_ ?_ rfl rfl written
  · intro text
    rw [Reader.boolean]
    congr 1
    funext ⟨token, text⟩
    cases token <;> rfl
  · intro value said
    cases value <;> simp [asBoolean, token, Token.boolean?, Json.mismatch]

theorem null_takes (written : Written) : written.Takes (fun _ => Reader.null) (written.Tells asNull) := by
  refine takes_of_token Token.null? "unit" ?_ ?_ rfl rfl written
  · intro text
    rw [Reader.null]
    congr 1
    funext ⟨token, text⟩
    cases token <;> rfl
  · intro value said
    cases value <;> simp [asNull, token, Token.null?, Json.mismatch]

end Written

/-- What is read of the items of a list up to its end. -/
def TakesItems (content : Nat → Reader α) (items : List Written) (means : α → Prop) : Prop :=
  ∀ ⦃depth : Nat⦄ ⦃inner rest : List Char⦄, ItemsBegin true items inner rest →
    Gives (Written.depthItems items ≤ depth) (insideList (content depth) ('[' :: inner)) rest means

def TakesMembers (content : Nat → Reader α) (members : List (Option String × Written)) (means : α → Prop) : Prop :=
  ∀ ⦃depth : Nat⦄ ⦃inner rest : List Char⦄, MembersBegin true members inner rest →
    Gives (Written.depthMembers members ≤ depth) (insideObject (content depth) ('{' :: inner)) rest means

namespace Written

theorem token?_list (token : written.token? = some .list) : ∃ items, written = .list items := by
  cases written with
  | list items => exact ⟨items, rfl⟩
  | number value => cases value <;> cases token
  | string text => cases text <;> cases token
  | _ => cases token

theorem token?_object (token : written.token? = some .object) : ∃ members, written = .object members := by
  cases written with
  | object members => exact ⟨members, rfl⟩
  | number value => cases value <;> cases token
  | string text => cases text <;> cases token
  | _ => cases token

theorem list_takes (wanted : String) {content : Nat → Reader α} {means : List Written → α → Prop}
    (each : ∀ items, written = .list items → TakesItems content items (means items)) :
    written.Takes (fun depth => Reader.list wanted (inside depth content))
      fun said => ∃ items, written = .list items ∧ means items said := by
  intro depth text rest stands
  rcases stands.token with ⟨token, after, known, start, -⟩ | ⟨none, fault, failed⟩
  · by_cases listed : token = .list
    · subst listed
      obtain ⟨items, rfl⟩ := token?_list known
      obtain ⟨inner, start', begins⟩ := stands.list
      simp only [Reader.list, start', bind, Except.bind]
      cases depth with
      | zero => exact .refused (Nat.not_succ_le_zero _) _ rest _
      | succ depth =>
        have content : Gives (depthItems items ≤ depth) _ rest _ := each items rfl begins
        exact (content.within Nat.le_of_succ_le_succ).congr fun said => by simp
    · have other : Reader.list wanted (inside depth content) text = .error (Reader.mismatch token wanted after) := by
        cases token with
        | list => exact absurd rfl listed
        | _ => simp only [Reader.list, start, bind, Except.bind]
      simp only [other]
      refine (Gives.fails _ _ rest).congr fun said => ⟨False.elim, ?_⟩
      rintro ⟨items, rfl, -⟩
      cases known
      exact listed rfl
  · simp only [Reader.list, failed, bind, Except.bind]
    refine (Gives.fails _ fault rest).congr fun said => ⟨False.elim, ?_⟩
    rintro ⟨items, rfl, -⟩
    cases none

theorem fields_take (wanted : String) {listed named : Nat → Reader α} {meansItems : List Written → α → Prop}
    {meansMembers : List (Option String × Written) → α → Prop}
    (eachItems : ∀ items, written = .list items → TakesItems listed items (meansItems items))
    (eachMembers : ∀ members, written = .object members → TakesMembers named members (meansMembers members)) :
    written.Takes (fun depth => fields wanted (inside depth listed) (inside depth named))
      fun said => (∃ items, written = .list items ∧ meansItems items said) ∨
        ∃ members, written = .object members ∧ meansMembers members said := by
  intro depth text rest stands
  rcases stands.token with ⟨token, after, known, start, -⟩ | ⟨none, fault, failed⟩
  · by_cases isList : token = .list
    · subst isList
      obtain ⟨items, rfl⟩ := token?_list known
      obtain ⟨inner, start', begins⟩ := stands.list
      simp only [fields, start', bind, Except.bind]
      cases depth with
      | zero => exact .refused (Nat.not_succ_le_zero _) _ rest _
      | succ depth =>
        have content : Gives (depthItems items ≤ depth) _ rest _ := eachItems items rfl begins
        exact (content.within Nat.le_of_succ_le_succ).congr fun said => by simp
    by_cases isObject : token = .object
    · subst isObject
      obtain ⟨members, rfl⟩ := token?_object known
      obtain ⟨inner, start', begins⟩ := stands.object
      simp only [fields, start', bind, Except.bind]
      cases depth with
      | zero => exact .refused (Nat.not_succ_le_zero _) _ rest _
      | succ depth =>
        have content : Gives (depthMembers members ≤ depth) _ rest _ := eachMembers members rfl begins
        exact (content.within Nat.le_of_succ_le_succ).congr fun said => by simp
    · have other : fields wanted (inside depth listed) (inside depth named) text =
          .error (Reader.mismatch token wanted after) := by
        cases token with
        | list => exact absurd rfl isList
        | object => exact absurd rfl isObject
        | _ => simp only [fields, start, bind, Except.bind]
      simp only [other]
      refine (Gives.fails _ _ rest).congr fun said => ⟨False.elim, ?_⟩
      rintro (⟨items, rfl, -⟩ | ⟨members, rfl, -⟩)
      · cases known
        exact isList rfl
      · cases known
        exact isObject rfl
  · simp only [fields, failed, bind, Except.bind]
    refine (Gives.fails _ fault rest).congr fun said => ⟨False.elim, ?_⟩
    rintro (⟨items, rfl, -⟩ | ⟨members, rfl, -⟩)
    · cases none
    · cases none

end Written

/-- What a variant stands for: a name by itself, or a name that is the only key of an object. -/
inductive Tagged (all : List ν) (name : ν → String) (bare : ν → Except Cause α)
    (content : ν → Written → α → Prop) :
    Written → α → Prop
  | bare {key : String} {v : ν} {said : α} (known : variant all name key = .ok v) (plain : bare v = .ok said) :
    Tagged all name bare content (.string (some key)) said
  | content {key : String} {v : ν} {inner : Written} {said : α} (known : variant all name key = .ok v)
    (means : content v inner said) : Tagged all name bare content (.object [(some key, inner)]) said

section

variable {all : List ν} {name : ν → String} {fits : Prop}

theorem decided_gives (fits : Prop) (decided : Except Cause α) (fault : Cause → Fault) (rest : List Char) :
    Gives fits (match decided with
      | .ok value => .ok (value, rest)
      | .error cause => .error (fault cause)) rest (decided = .ok ·) := by
  cases decided with
  | ok value => exact (Gives.done fits value rest).congr fun other => by simp
  | error cause => exact (Gives.fails fits _ rest).congr fun other => by simp

theorem variantName_gives {key : Option String} (quoted : Quoted key ('"' :: text) rest) :
    Gives fits (variantName all name text) rest fun v =>
      ∃ written, key = some written ∧ variant all name written = .ok v := by
  have named := quoted.characters_gives.within (fun _ : fits => trivial)
  exact (named.bind fun written _ => decided_gives fits (variant all name written) (Cause.before · rest) rest).congr
    fun v => Iff.rfl

theorem onlyKey_quoted {start : List Char} {key : Option String} (gap : Gap text start)
    (quoted : Quoted key start rest) : ∃ inner, start = '"' :: inner ∧ onlyKey text = .ok inner := by
  obtain ⟨inner, rfl⟩ := quoted.start
  exact ⟨inner, rfl, by simp only [onlyKey, gap.skipSpace_cons rfl]⟩

theorem endOfVariant_closing (begins : MembersBegin false [] text rest) : endOfVariant text = .ok rest := by
  cases begins with
  | close gap => simp only [endOfVariant, gap.skipSpace_cons rfl]

theorem endOfVariant_left {member : Option String × Written} {members : List (Option String × Written)}
    (begins : MembersBegin false (member :: members) text rest) : ∃ fault, endOfVariant text = .error fault := by
  cases begins with
  | member separated =>
    obtain ⟨inner, before, -⟩ := separated.next_eq
    refine ⟨(Cause.malformed .expectedValue).before (',' :: inner), ?_⟩
    rw [endOfVariant, before.skipSpace_cons rfl]
    rfl

theorem lastContent_gives {reader : Reader α} {means : α → Prop} {inner next : List Char}
    (held : Gives fits (reader inner) next means) (before : Gap text (':' :: inner))
    (closed : MembersBegin false [] next rest) :
    Gives fits (do
        let (value, text) ← reader (← colon text)
        .ok (value, ← endOfVariant text)) rest means := by
  simp only [before.colon_eq]
  refine (held.map id fun value => ?_).congr fun said => by simp
  simp only [endOfVariant_closing closed]
  rfl

theorem furtherContent_gives {reader : Reader α} {means : α → Prop} {inner next : List Char}
    {member : Option String × Written} {members : List (Option String × Written)}
    (held : Gives fits (reader inner) next means) (before : Gap text (':' :: inner))
    (left : MembersBegin false (member :: members) next rest) :
    Gives fits (do
        let (value, text) ← reader (← colon text)
        .ok (value, ← endOfVariant text)) rest fun _ => False := by
  obtain ⟨fault, failed⟩ := endOfVariant_left left
  have ended (value : α) : Gives fits (do .ok (value, ← endOfVariant next)) rest fun _ => False := by
    rw [failed]
    exact .fails fits fault rest
  simp only [before.colon_eq]
  exact (held.bind fun value _ => ended value).congr fun said => by simp

variable {bare : ν → Except Cause α} {content : Nat → ν → Reader α} {means : ν → Written → α → Prop}

theorem tagged_string_gives {key : Option String} {start : List Char} (gap : Gap text start)
    (quoted : Quoted key start rest) (content : Option (ν → Reader α)) :
    Gives fits (tagged all name bare content text) rest (Tagged all name bare means (.string key)) := by
  obtain ⟨inner, rfl⟩ := quoted.start
  simp only [tagged, gap.skipSpace_cons rfl]
  refine ((variantName_gives quoted).bind fun v _ => decided_gives _ (bare v) (.pending · rest) rest).congr fun said => ?_
  constructor
  · rintro ⟨v, ⟨key, rfl, known⟩, plain⟩
    exact .bare known plain
  · intro tagged
    cases tagged with
    | bare known plain => exact ⟨_, ⟨_, rfl, known⟩, plain⟩

/-- The content of a variant stands beside its name, which is the first key. -/
theorem tagged_member_gives {key : Option String} {inner : Written} {members : List (Option String × Written)}
    {reader : ν → Reader α} {name' colonAt place next : List Char} (quoted : Quoted key ('"' :: name') colonAt)
    (before : Gap colonAt (':' :: place)) (held : ∀ v, Gives fits (reader v place) next (means v inner))
    (others : MembersBegin false members next rest) :
    Gives fits (do
        let (v, text) ← variantName all name name'
        let (value, text) ← reader v (← colon text)
        .ok (value, ← endOfVariant text)) rest (Tagged all name bare means (.object ((key, inner) :: members))) := by
  cases members with
  | nil =>
    refine ((variantName_gives quoted).bind fun v _ => lastContent_gives (held v) before others).congr fun said => ?_
    constructor
    · rintro ⟨v, ⟨key, rfl, known⟩, means⟩
      exact .content known means
    · intro tagged
      cases tagged with
      | content known means => exact ⟨_, ⟨_, rfl, known⟩, means⟩
  | cons member members =>
    refine ((variantName_gives quoted).bind fun v _ =>
      furtherContent_gives (held v) before others).congr fun said => ⟨?_, ?_⟩
    · rintro ⟨_, _, contrary⟩
      exact contrary.elim
    · intro tagged
      cases tagged

theorem tagged_members_gives {members : List (Option String × Written)} {depth : Nat}
    (begins : MembersBegin true members text rest)
    (each : ∀ key inner others, members = (key, inner) :: others → ∀ v,
      inner.Takes (fun depth => content depth v) (means v inner)) :
    Gives (Written.depthMembers members ≤ depth) (do
        let (v, text) ← variantName all name (← onlyKey text)
        let (value, text) ← content depth v (← colon text)
        .ok (value, ← endOfVariant text)) rest (Tagged all name bare means (.object members)) := by
  cases begins with
  | close gap =>
    simp only [onlyKey, gap.skipSpace_cons rfl, bind, Except.bind]
    refine (Gives.fails _ _ rest).congr fun said => ⟨False.elim, ?_⟩
    intro tagged
    cases tagged
  | @member _ key inner members _ _ _ _ _ _ _ separated quoted before after begins others =>
    obtain ⟨name', rfl, only⟩ := onlyKey_quoted separated.first_eq quoted
    have shallow : Written.depthMembers ((key, inner) :: members) ≤ depth → inner.depth ≤ depth := by
      simp only [Written.depthMembers]
      omega
    have held (v : ν) := (each key inner members rfl v (.behind after begins others.ends)).within shallow
    simp only [only]
    exact tagged_member_gives quoted before held others

theorem tagged_other_gives {c : Char} {start : List Char} (gap : Gap text (c :: start)) (dark : isSpace c = false)
    (noString : c ≠ '"') (noObject : c ≠ '{') (content : Option (ν → Reader α))
    (untagged : ∀ said, ¬Tagged all name bare means written said) :
    Gives fits (tagged all name bare content text) rest (Tagged all name bare means written) := by
  have failed : tagged all name bare content text = .error (Flaw.expectedValue.on (c :: start)) := by
    rw [tagged, gap.skipSpace_cons dark]
    split
    · rename_i same
      cases same
    · rename_i same
      exact absurd (List.cons.inj same).1 noString
    · rename_i same
      exact absurd (List.cons.inj same).1 noObject
    · rfl
  rw [failed]
  exact (Gives.fails _ _ rest).congr fun said => ⟨False.elim, untagged said⟩

theorem tagged_takes
    (each : ∀ key inner members, written = .object ((key, inner) :: members) → ∀ v,
      inner.Takes (fun depth => content depth v) (means v inner)) :
    written.Takes (fun depth => tagged all name bare (inside depth content))
      (Tagged all name bare means written) := by
  intro depth text rest stands
  obtain ⟨gap, begins, ends⟩ := stands
  cases begins with
  | string quoted => exact tagged_string_gives gap quoted _
  | object begins =>
    simp only [tagged, gap.skipSpace_cons rfl]
    cases depth with
    | zero => exact .refused (Nat.not_succ_le_zero _) _ rest _
    | succ depth =>
      refine (tagged_members_gives begins ?_).within Nat.le_of_succ_le_succ
      intro key inner others same
      exact each key inner others (congrArg _ same)
  | number spelled =>
    obtain ⟨c, more, rfl, first⟩ := spelled.cons
    have plain := plain_of_numeral first
    exact tagged_other_gives gap (isSpace_of_numeral first) (plain _ (by decide)) (plain _ (by decide)) _ nofun
  | _ => exact tagged_other_gives gap rfl (by decide) (by decide) _ nofun

/-- A variant is told as it is decoded, if nothing but names and objects of one key is decoded. -/
theorem tagged_iff_tells {decode : Json → Except Cause α}
    {inner : ν → Json → Except Cause α}
    (string : ∀ key, decode (.string key) = variant all name key >>= bare)
    (object : ∀ key value, decode (.object [(key, value)]) = variant all name key >>= fun v => inner v value)
    (others : ∀ value said, decode value = .ok said →
      (∃ key, value = .string key) ∨ ∃ key content, value = .object [(key, content)]) {said : α} :
    Tagged all name bare (fun v => Written.Tells (inner v)) written said ↔ written.Tells decode said := by
  constructor
  · intro tagged
    cases tagged with
    | @bare key v _ known plain => exact ⟨.string key, rfl, by rw [string]; exact bind_eq_ok.2 ⟨v, known, plain⟩⟩
    | @content key v _ _ known means =>
      obtain ⟨value, means, decoded⟩ := means
      refine ⟨.object [(key, value)], ?_, by rw [object]; exact bind_eq_ok.2 ⟨v, known, decoded⟩⟩
      simp only [Written.value?, Written.members?, means, Option.bind_some, Option.map_some]
  · rintro ⟨value, means, decoded⟩
    rcases others value said decoded with ⟨key, rfl⟩ | ⟨key, content, rfl⟩
    · rw [string] at decoded
      obtain ⟨v, known, plain⟩ := bind_eq_ok.1 decoded
      rw [Written.value?_string means]
      exact .bare known plain
    · rw [object] at decoded
      obtain ⟨v, known, decoded⟩ := bind_eq_ok.1 decoded
      obtain ⟨entries, rfl, each⟩ := Written.value?_object means
      rcases each with _ | @⟨_, ⟨key', written⟩, _, _, ⟨same, told⟩, none⟩
      cases none
      cases same
      exact .content known ⟨content, told, decoded⟩

end

theorem nextItem?_begins {first : Bool} {start next : List Char} (separated : Separated first text start)
    (begins : Begins written start next) (item : Reader α) :
    nextItem? first item text = (do
      let (value, text) ← item start
      .ok (some value, text)) := by
  rw [nextItem?, nextItem_begins separated begins]
  rfl

theorem requiredItem_begins {length : Nat} {start next : List Char}
    (separated : Separated (decide (length = 0)) text start) (begins : Begins written start next) (wanted : String)
    (item : Reader α) : requiredItem length wanted item text = item start := by
  rw [requiredItem, nextItem?_begins separated begins]
  cases item start <;> rfl

/-- What is read of the items from some item on, up to the end of the list. -/
def TakesRest (fits : Prop) (first : Bool) (content : Reader α) (items : List Written) (means : α → Prop) : Prop :=
  ∀ ⦃text rest : List Char⦄, ItemsBegin first items text rest →
    Gives fits (do
      let (value, text) ← content text
      .ok (value, ← endOfList text)) rest means

namespace TakesRest

variable {fits : Prop} {first : Bool} {items : List Written} {depth : Nat} {item : Nat → Reader α}
  {means : Written → α → Prop}

theorem congr {content : Reader α} {means means' : α → Prop} (taken : TakesRest fits first content items means)
    (same : ∀ said, means said ↔ means' said) : TakesRest fits first content items means' :=
  fun _ _ begins => (taken begins).congr same

theorem insideList {content : Reader α} {means : α → Prop} (taken : TakesRest fits true content items means)
    (begins : ItemsBegin true items text rest) :
    Gives fits (Reader.insideList content ('[' :: text)) rest means where
  sound := by
    intro value after read
    simp only [Reader.insideList, List.drop_one, List.tail_cons] at read
    split at read
    · cases read
    · rename_i inner
      exact (taken begins).sound (bind_eq_ok.2 ⟨_, inner, read⟩)
  complete := by
    intro value enough said
    obtain ⟨⟨value', text'⟩, inner, closed⟩ := bind_eq_ok.1 ((taken begins).complete enough said)
    simp only [Reader.insideList, List.drop_one, List.tail_cons, inner]
    exact closed

theorem done (fits : Prop) (value : α) (items : List Written) :
    TakesRest fits false (fun text => .ok (value, text)) items fun said => items = [] ∧ value = said := by
  intro text rest begins
  cases items with
  | nil =>
    cases begins with
    | close gap =>
      simp only [endOfList_closing gap, bind, Except.bind]
      exact (Gives.done fits value rest).congr fun said => by simp
  | cons item items =>
    obtain ⟨fault, failed⟩ := endOfList_left begins
    simp only [failed, bind, Except.bind]
    exact (Gives.fails fits fault rest).congr fun said => by simp

theorem next (content : Option α → Reader β) {ended : β → Prop} {further : α → List Written → β → Prop}
    (taken : ∀ written ∈ items, written.Takes item (means written))
    (enough : fits → ∀ written ∈ items, written.depth ≤ depth)
    (absent : TakesRest fits false (content none) [] ended)
    (present : ∀ written others, items = written :: others → ∀ value,
      TakesRest fits false (content (some value)) others (further value others)) :
    TakesRest fits first (fun text => do
        let (value, text) ← nextItem? first (item depth) text
        content value text) items
      fun said => (items = [] ∧ ended said) ∨
        ∃ written others value, items = written :: others ∧ means written value ∧ further value others said := by
  intro text rest begins
  cases begins with
  | close gap =>
    simp only [nextItem?, nextItem_closing gap]
    exact (absent (.close (.refl _))).congr fun said => by simp
  | @item _ written others _ start next _ separated begins following =>
    have stands := begins.stands following.ends
    have value : Gives fits (item depth start) next (means written) :=
      (taken written List.mem_cons_self stands).within fun room => enough room written List.mem_cons_self
    have later (value : α) := present written others rfl value following
    have read : Gives fits (do
        let (value, text) ← item depth start
        let (said, text) ← content (some value) text
        .ok (said, ← endOfList text)) rest fun said => ∃ value, means written value ∧ further value others said :=
      value.bind fun value _ => later value
    simp only [nextItem?_begins separated begins, bind_assoc]
    exact read.congr fun said => by simp

theorem required (length : Nat) (content : α → Reader β) {means' : α → List Written → β → Prop}
    (taken : ∀ written ∈ items, written.Takes item (means written))
    (enough : fits → ∀ written ∈ items, written.depth ≤ depth) (wanted : String)
    (present : ∀ written others, items = written :: others → ∀ value,
      TakesRest fits false (content value) others (means' value others)) :
    TakesRest fits (decide (length = 0)) (fun text => do
        let (value, text) ← requiredItem length wanted (item depth) text
        content value text) items
      fun said => ∃ written others value,
        items = written :: others ∧ means written value ∧ means' value others said := by
  intro text rest begins
  cases begins with
  | close gap =>
    simp only [requiredItem, nextItem?, nextItem_closing gap, bind, Except.bind]
    exact (Gives.fails fits _ rest).congr fun said => by simp
  | @item _ written others _ start next _ separated begins following =>
    have stands := begins.stands following.ends
    have value : Gives fits (item depth start) next (means written) :=
      (taken written List.mem_cons_self stands).within fun room => enough room written List.mem_cons_self
    have later (value : α) := present written others rfl value following
    have read : Gives fits (do
        let (value, text) ← item depth start
        let (said, text) ← content value text
        .ok (said, ← endOfList text)) rest fun said => ∃ value, means written value ∧ means' value others said :=
      value.bind fun value _ => later value
    simp only [requiredItem_begins separated begins, bind_assoc]
    exact read.congr fun said => by simp

end TakesRest

section

variable {depth : Nat} {reader : Nat → Reader α} {means : α → Prop}

theorem field_gives (follows : Follows written text rest) (taken : written.Takes reader means) (name : String)
    (before : Option α) :
    Gives (written.depth ≤ depth) (field name before (reader depth) text) rest
      fun value => before = none ∧ means value := by
  obtain ⟨gap, stands⟩ := follows
  cases before with
  | some value =>
    simp only [field, Option.isSome_some, if_true]
    exact (Gives.fails _ _ rest).congr fun value => by simp
  | none =>
    simp only [field, gap.colon_eq]
    exact (taken stands).congr fun value => by simp

theorem filled_gives (follows : Follows written text rest) (taken : written.Takes reader means) (depth : Nat)
    (name : String) (before : Option α) (fill : α → σ) :
    Gives (written.depth ≤ depth) (do
        let (value, text) ← field name before (reader depth) text
        .ok (fill value, text)) rest fun after => ∃ value, (before = none ∧ means value) ∧ fill value = after :=
  (field_gives follows taken name before).map fill fun _ => rfl

theorem unknownField_eq (follows : Follows written text rest) : unknownField text = .ok rest := by
  obtain ⟨gap, stands⟩ := follows
  simp only [unknownField, gap.colon_eq]
  exact stands.skip_eq

end

end ViewTree.Json
