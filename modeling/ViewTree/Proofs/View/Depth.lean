import ViewTree.Proofs.Json.Depth
import ViewTree.View.Decoding
import ViewTree.View.Encoding

namespace ViewTree

open Json (depthItems depthMembers)

theorem Json.eq_of_required {α : Type} {name : String} {given : Option α} {value : α}
    (found : required name given = .ok value) : given = some value := by
  cases given with
  | none => cases found
  | some other =>
    cases found
    rfl

theorem Reference.ofJson_depth {value : Json} {place : Reference} (read : ofJson value = .ok place) :
    place.toJson.depth ≤ value.depth := by
  match value with
  | .string name =>
    obtain ⟨kind, -, plain⟩ := bind_eq_ok.1 read
    cases kind <;> cases plain
    exact Nat.le_refl 0
  | .object [(name, content)] =>
    have shallow : place.toJson.depth ≤ 1 := by cases place <;> exact Nat.le_add_left _ _
    exact Nat.le_trans shallow (Nat.le_add_left 1 _)
  | .object [] | .object (_ :: _ :: _) => cases read
  | .null | .boolean _ | .number _ | .list _ => cases read

theorem Value.ofJson_depth {value : Json} {shown : Value} (read : ofJson value = .ok shown) :
    shown.toJson.depth ≤ value.depth := by
  match value with
  | .string name =>
    obtain ⟨kind, -, plain⟩ := bind_eq_ok.1 read
    cases kind <;> cases plain
    exact Nat.le_refl 0
  | .object [(name, content)] =>
    obtain ⟨kind, -, read⟩ := bind_eq_ok.1 read
    cases kind with
    | reference =>
      obtain ⟨place, found, same⟩ := bind_eq_ok.1 read
      cases same
      have inner := Reference.ofJson_depth found
      simp only [toJson, Json.depth, depthMembers]
      omega
    | empty =>
      obtain ⟨_, -, same⟩ := bind_eq_ok.1 read
      cases same
      exact Nat.zero_le _
    | constant =>
      obtain ⟨_, -, same⟩ := bind_eq_ok.1 read
      cases same
      exact Nat.le_add_left 1 _
  | .object [] | .object (_ :: _ :: _) => cases read
  | .null | .boolean _ | .number _ | .list _ => cases read

namespace View

theorem attributeOfJson_depth {value : Json} {declared : String × Value}
    (read : attributeOfJson value = .ok declared) : (attributeToJson declared).depth ≤ value.depth := by
  match value with
  | .list (name :: shown :: more) =>
    obtain ⟨name, -, read⟩ := bind_eq_ok.1 read
    obtain ⟨shown, found, read⟩ := bind_eq_ok.1 read
    have inner := Value.ofJson_depth found
    have same := eq_of_ite_ok read
    subst same
    simp only [attributeToJson, Json.depth, depthItems]
    omega
  | .list [] => cases read
  | .list [name] =>
    obtain ⟨_, -, read⟩ := bind_eq_ok.1 read
    cases read
  | .null | .boolean _ | .number _ | .string _ | .object _ => cases read

theorem attributesOfJson_depth {value : Json} {declared : List (String × Value)}
    (read : attributesOfJson value = .ok declared) :
    (Json.list (declared.map attributeToJson)).depth ≤ value.depth := by
  cases value with
  | list items =>
    apply Nat.succ_le_succ
    change items.mapM attributeOfJson = .ok declared at read
    induction items generalizing declared with
    | nil =>
      cases read
      exact Nat.le_refl 0
    | cons item items ih =>
      rw [List.mapM_cons] at read
      obtain ⟨first, found, read⟩ := bind_eq_ok.1 read
      obtain ⟨rest, others, same⟩ := bind_eq_ok.1 read
      cases same
      have head := attributeOfJson_depth found
      have tail := ih others
      simp only [List.map_cons, depthItems]
      omega
  | _ => cases read

structure ElementParts.Within (bound : Nat) (parts : ElementParts) : Prop where
  attributes : ∀ declared, parts.attributes = some declared →
    (Json.list (declared.map attributeToJson)).depth ≤ bound
  text : ∀ shown, parts.text = some shown → shown.toJson.depth ≤ bound

theorem elementParts_within {members : List (String × Json)} {before after : ElementParts} {bound : Nat}
    (read : elementParts members before = .ok after) (start : before.Within bound)
    (deep : ∀ member ∈ members, member.2.depth ≤ bound) : after.Within bound := by
  induction members generalizing before with
  | nil =>
    cases read
    exact start
  | cons member members ih =>
    obtain ⟨name, value⟩ := member
    rw [List.forall_mem_cons] at deep
    simp only [elementParts] at read
    split at read
    · obtain ⟨tag, -, read⟩ := bind_eq_ok.1 read
      exact ih read ⟨start.attributes, start.text⟩ deep.2
    split at read
    · obtain ⟨declared, found, read⟩ := bind_eq_ok.1 read
      refine ih read ⟨?_, start.text⟩ deep.2
      rintro _ ⟨⟩
      exact Nat.le_trans (attributesOfJson_depth found) deep.1
    split at read
    · obtain ⟨shown, found, read⟩ := bind_eq_ok.1 read
      refine ih read ⟨start.attributes, ?_⟩ deep.2
      rintro _ ⟨⟩
      exact Nat.le_trans (Value.ofJson_depth found) deep.1
    · exact ih read start deep.2

-- An empty list stands for attributes that were left out, which is where a level may be added.
theorem elementOfJson_depth {value : Json} {view : View} (read : elementOfJson value = .ok view) :
    view.toJson.depth ≤ value.depth + 2 := by
  cases value with
  | object members =>
    obtain ⟨parts, met, made⟩ := bind_eq_ok.1 read
    obtain ⟨tag, -, same⟩ := bind_eq_ok.1 made
    cases same
    have deep : ∀ member ∈ members, member.2.depth ≤ depthMembers members :=
      Json.depthMembers_le.1 (Nat.le_refl _)
    have within := elementParts_within met ⟨nofun, nofun⟩ deep
    have attributes : (Json.list ((parts.attributes.getD []).map attributeToJson)).depth ≤
        depthMembers members + 1 := by
      cases given : parts.attributes with
      | none => exact Nat.le_add_left 1 _
      | some declared => exact Nat.le_succ_of_le (within.attributes declared given)
    have text : (parts.text.getD .empty).toJson.depth ≤ depthMembers members := by
      cases given : parts.text with
      | none => exact Nat.zero_le _
      | some shown => exact within.text shown given
    simp only [toJson, Json.depth, depthMembers] at attributes ⊢
    omega
  | _ => cases read

def listOfJson : Json → Except Json.Cause View
  | .object members => do (← listParts members .none).view
  | value => value.mismatch "struct variant"

def sequenceOfJson : Json → Except Json.Cause View
  | .list items => do .ok (.sequence (← ofJsonItems items))
  | value => value.mismatch "a sequence"

/-- An object is decoded by its only key, each variant by a decoder of its own. -/
theorem ofJson_variant (name : String) (content : Json) :
    ofJson (.object [(name, content)]) = (do
      match ← Json.variant Kind.all Kind.name name with
      | .element => elementOfJson content
      | .list => listOfJson content
      | .sequence => sequenceOfJson content
      | .hole => do
        content.asNull
        .ok .hole) := by
  cases content <;> rfl

-- A view may be written a level deeper than it was met, a reference may not.
structure ListParts.Within (bound : Nat) (parts : ListParts) : Prop where
  source : ∀ place, parts.source = some place → place.toJson.depth ≤ bound
  item : ∀ view, parts.item = some view → view.toJson.depth ≤ bound + 1

mutual

theorem ofJson_depth (value : Json) {view : View} (read : ofJson value = .ok view) :
    view.toJson.depth ≤ value.depth + 1 := by
  match value with
  | .string name =>
    obtain ⟨kind, -, plain⟩ := bind_eq_ok.1 read
    cases kind <;> cases plain
    exact Nat.zero_le _
  | .object [(name, content)] =>
    rw [ofJson_variant] at read
    obtain ⟨kind, -, read⟩ := bind_eq_ok.1 read
    have inner : view.toJson.depth ≤ content.depth + 2 := by
      cases kind with
      | element => exact elementOfJson_depth read
      | list => exact listOfJson_depth content read
      | sequence => exact sequenceOfJson_depth content read
      | hole =>
        obtain ⟨_, -, same⟩ := bind_eq_ok.1 read
        cases same
        exact Nat.zero_le _
    simp only [Json.depth, depthMembers]
    omega
  | .object [] | .object (_ :: _ :: _) => cases read
  | .null | .boolean _ | .number _ | .list _ => cases read

theorem listOfJson_depth (content : Json) {view : View} (read : listOfJson content = .ok view) :
    view.toJson.depth ≤ content.depth + 2 := by
  match content with
  | .object members =>
    obtain ⟨parts, met, made⟩ := bind_eq_ok.1 read
    obtain ⟨source, given, made⟩ := bind_eq_ok.1 made
    obtain ⟨item, given', same⟩ := bind_eq_ok.1 made
    cases same
    have within := listParts_within members met ⟨nofun, nofun⟩ (Nat.le_refl _)
    have first := within.source source (Json.eq_of_required given)
    have second := within.item item (Json.eq_of_required given')
    simp only [toJson, Json.depth, depthMembers]
    omega
  | .null | .boolean _ | .number _ | .string _ | .list _ => cases read

theorem sequenceOfJson_depth (content : Json) {view : View} (read : sequenceOfJson content = .ok view) :
    view.toJson.depth ≤ content.depth + 2 := by
  match content with
  | .list items =>
    obtain ⟨views, found, same⟩ := bind_eq_ok.1 read
    cases same
    have inner := ofJsonItems_depth items found
    simp only [toJson, Json.depth, depthMembers]
    omega
  | .null | .boolean _ | .number _ | .string _ | .object _ => cases read

theorem ofJsonItems_depth (items : List Json) {views : List View} (read : ofJsonItems items = .ok views) :
    depthItems (toJsonItems views) ≤ depthItems items + 1 := by
  match items with
  | [] =>
    cases read
    exact Nat.zero_le _
  | item :: items =>
    obtain ⟨view, found, read⟩ := bind_eq_ok.1 read
    obtain ⟨views, others, same⟩ := bind_eq_ok.1 read
    cases same
    have head := ofJson_depth item found
    have tail := ofJsonItems_depth items others
    simp only [toJsonItems, depthItems]
    omega

theorem listParts_within (members : List (String × Json)) {before after : ListParts} {bound : Nat}
    (read : listParts members before = .ok after) (start : before.Within bound)
    (deep : depthMembers members ≤ bound) : after.Within bound := by
  match members with
  | [] =>
    cases read
    exact start
  | (name, value) :: members =>
    obtain ⟨shallow, deep⟩ := Nat.max_le.1 deep
    simp only [listParts] at read
    split at read
    · obtain ⟨numbered, -, read⟩ := bind_eq_ok.1 read
      exact listParts_within members read ⟨start.source, start.item⟩ deep
    split at read
    · obtain ⟨source, found, read⟩ := bind_eq_ok.1 read
      refine listParts_within members read ⟨?_, start.item⟩ deep
      rintro _ ⟨⟩
      exact Nat.le_trans (Reference.ofJson_depth found) shallow
    split at read
    · obtain ⟨item, found, read⟩ := bind_eq_ok.1 read
      refine listParts_within members read ⟨start.source, ?_⟩ deep
      rintro _ ⟨⟩
      exact Nat.le_trans (ofJson_depth value found) (Nat.succ_le_succ shallow)
    · exact listParts_within members read start deep

end

end View

namespace Template

theorem parts_depth {members : List (String × Json)} {before after : Parts} {bound : Nat}
    (read : parts members before = .ok after)
    (start : ∀ view, before.code = some view → view.toJson.depth ≤ bound + 1)
    (deep : ∀ member ∈ members, member.2.depth ≤ bound) :
    ∀ view, after.code = some view → view.toJson.depth ≤ bound + 1 := by
  induction members generalizing before with
  | nil =>
    cases read
    exact start
  | cons member members ih =>
    obtain ⟨name, value⟩ := member
    rw [List.forall_mem_cons] at deep
    simp only [parts] at read
    split at read
    · obtain ⟨version, -, read⟩ := bind_eq_ok.1 read
      exact ih read start deep.2
    split at read
    · obtain ⟨code, found, read⟩ := bind_eq_ok.1 read
      refine ih read ?_ deep.2
      rintro _ ⟨⟩
      exact Nat.le_trans (View.ofJson_depth value found) (Nat.succ_le_succ deep.1)
    · exact ih read start deep.2

theorem depth_toJson (template : Template) : template.toJson.depth = template.code.toJson.depth + 1 := by
  simp only [toJson, Json.depth, depthMembers, Nat.max_zero, Nat.zero_max]

theorem ofJson_depth {value : Json} {template : Template} (read : ofJson value = .ok template) :
    template.toJson.depth ≤ value.depth + 1 := by
  rw [depth_toJson]
  match value with
  | .object members =>
    obtain ⟨found, fields, made⟩ := bind_eq_ok.1 read
    obtain ⟨version, -, made⟩ := bind_eq_ok.1 made
    obtain ⟨code, given, same⟩ := bind_eq_ok.1 made
    cases same
    have deep : ∀ member ∈ members, member.2.depth ≤ depthMembers members :=
      Json.depthMembers_le.1 (Nat.le_refl _)
    have within := parts_depth fields nofun deep code (Json.eq_of_required given)
    exact Nat.succ_le_succ within
  | .list (version :: code :: more) =>
    obtain ⟨version, -, read⟩ := bind_eq_ok.1 read
    obtain ⟨view, seen, read⟩ := bind_eq_ok.1 read
    have inner := View.ofJson_depth code seen
    have same := eq_of_ite_ok read
    subst same
    simp only [Json.depth, depthItems]
    omega
  | .list [] => cases read
  | .list [_] =>
    obtain ⟨_, -, read⟩ := bind_eq_ok.1 read
    cases read
  | .null | .boolean _ | .number _ | .string _ => cases read

end Template

end ViewTree
