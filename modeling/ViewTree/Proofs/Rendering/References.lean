import ViewTree.Proofs.Rendering.Scope
import ViewTree.Proofs.Rendering.Steps

namespace ViewTree

/-- What a reference is for: to show data, or to give the items of a list. -/
inductive Role where
  | shown
  | source

def Role.Takes : Role → Data.Kind → Prop
  | .shown, kind => kind = .none ∨ kind = .boolean ∨ kind = .number ∨ kind = .string
  | .source, kind => kind = .list

def Role.refusal : Role → Data.Kind → RenderError
  | .shown, kind => .notShowable kind
  | .source, kind => .notIterable kind

/-- A reference in a view with the data in scope there. -/
structure Use where
  role : Role
  place : Reference
  context : Data

namespace Use

def Good (use : Use) : Prop := ∃ found, use.place.Leads use.context found ∧ use.role.Takes found.kind

/-- A bad reference leads nowhere, or to data that is not for its role. -/
inductive Fails : Use → RenderError → Prop
  | unbound {role : Role} {name : String} {context : Data}
    (astray : ∀ found, ¬ (Reference.field name).Leads context found) :
    Fails ⟨role, .field name, context⟩ (.unboundField name context.kind)
  | refused {use : Use} {found : Data} (leads : use.place.Leads use.context found)
    (unfit : ¬ use.role.Takes found.kind) : Fails use (use.role.refusal found.kind)

instance (role : Role) (kind : Data.Kind) : Decidable (role.Takes kind) :=
  match role with
  | .shown => inferInstanceAs (Decidable (_ ∨ _ ∨ _ ∨ _))
  | .source => inferInstanceAs (Decidable (kind = .list))

def check (use : Use) : Except RenderError Unit := do
  let found ← use.place.resolve use.context
  if use.role.Takes found.kind then .ok () else .error (use.role.refusal found.kind)

theorem check_eq_ok {use : Use} : use.check = .ok () ↔ use.Good := by
  rw [check, bind_eq_ok]
  constructor
  · rintro ⟨found, resolved, passed⟩
    refine ⟨found, Reference.resolve_eq_ok.1 resolved, ?_⟩
    by_contra unfit
    rw [if_neg unfit] at passed
    cases passed
  · rintro ⟨found, leads, fit⟩
    exact ⟨found, Reference.resolve_eq_ok.2 leads, if_pos fit⟩

theorem check_eq_error {use : Use} {error : RenderError} : use.check = .error error ↔ use.Fails error := by
  constructor
  · intro failed
    unfold check at failed
    cases resolved : use.place.resolve use.context with
    | error other =>
      rw [resolved] at failed
      cases failed
      obtain ⟨role, place, context⟩ := use
      obtain ⟨name, rfl, astray, rfl⟩ := Reference.resolve_eq_error.1 resolved
      exact .unbound astray
    | ok found =>
      rw [resolved] at failed
      have leads := Reference.resolve_eq_ok.1 resolved
      by_cases fit : use.role.Takes found.kind
      · simp only [bind, Except.bind, if_pos fit] at failed
        cases failed
      · simp only [bind, Except.bind, if_neg fit] at failed
        cases failed
        exact .refused leads fit
  · intro fails
    cases fails with
    | unbound astray =>
      rw [check, Reference.resolve_of_astray astray]
      rfl
    | refused leads unfit =>
      rw [check, Reference.resolve_eq_ok.2 leads]
      exact if_neg unfit

end Use

def Value.uses (value : Value) (context : Data) : List Use :=
  match value with
  | .reference place => [⟨.shown, place, context⟩]
  | _ => []

mutual

/-- The references that rendering comes to: those of the attributes of an element before that of its text,
and the source of a list before what is in its items. -/
def View.uses : View → Data → List Use
  | .element _ attributes text, context =>
    attributes.flatMap (fun (_, value) => value.uses context) ++ text.uses context
  | .list _ source item, context =>
    ⟨.source, source, context⟩ :: (source.listed context).flatMap (View.uses item)
  | .sequence items, context => View.usesOf items context
  | .hole, _ => []

def View.usesOf : List View → Data → List Use
  | [], _ => []
  | item :: items, context => View.uses item context ++ View.usesOf items context

end

theorem Data.scalar_check (found : Data) :
    Agree (fun _ _ => True) found.scalar
      (if Role.shown.Takes found.kind then .ok () else .error (Role.shown.refusal found.kind)) := by
  cases found with
  | list items => rfl
  | dict entries => rfl
  | _ => trivial

theorem Value.evaluate_check (value : Value) (context : Data) :
    Agree (fun _ _ => True) (value.evaluate context) (forM (value.uses context) Use.check) := by
  cases value with
  | empty => trivial
  | constant text => trivial
  | reference place =>
    have first : Agree (fun a b => a = b) (place.resolve context) (place.resolve context) := by
      cases place.resolve context <;> rfl
    have shown : Agree (fun _ _ => True) (Value.evaluate (.reference place) context)
        (Use.check ⟨.shown, place, context⟩) := by
      apply first.bind
      rintro found _ rfl
      exact found.scalar_check
    simpa [Value.uses] using shown

theorem Reference.items_check (place : Reference) (context : Data) :
    Agree (fun items _ => place.listed context = items) (place.items context)
      (Use.check ⟨.source, place, context⟩) := by
  cases resolved : place.resolve context with
  | error error =>
    rw [Reference.items, Use.check, resolved]
    rfl
  | ok found =>
    have leads := resolve_eq_ok.1 resolved
    cases found with
    | list items =>
      have good : Use.Good ⟨.source, place, context⟩ := ⟨_, leads, rfl⟩
      rw [items_eq_ok.2 leads, Use.check_eq_ok.2 good]
      exact listed_of_leads leads
    | _ =>
      rw [Reference.items, Use.check, resolved]
      rfl

namespace View

theorem attributeValues_check (attributes : List (String × Value)) (context : Data) :
    Agree (fun _ _ => True) (attributeValues attributes context)
      (forM (attributes.flatMap fun (_, value) => value.uses context) Use.check) := by
  induction attributes with
  | nil => trivial
  | cons declared attributes ih =>
    obtain ⟨name, value⟩ := declared
    rw [attributeValues_cons, List.flatMap_cons, List.forM_append]
    apply (value.evaluate_check context).bind
    intro _ _ _
    exact ih.bind_ok fun _ _ _ => trivial

theorem renderEach_check {item : View}
    (each : ∀ context, Agree (fun _ _ => True) (item.render context) (forM (item.uses context) Use.check))
    (position : Nat) (items : List Data) :
    Agree (fun _ _ => True) (renderEach item position items) (forM (items.flatMap item.uses) Use.check) := by
  induction items generalizing position with
  | nil => trivial
  | cons data items ih =>
    rw [renderEach_cons, List.flatMap_cons, List.forM_append]
    apply (each data).bind
    intro _ _ _
    exact (ih (position + 1)).bind_ok fun _ _ _ => trivial

mutual

theorem render_check (view : View) (context : Data) :
    Agree (fun _ _ => True) (view.render context) (forM (view.uses context) Use.check) := by
  cases view with
  | element tag attributes text =>
    rw [render_element, uses, List.forM_append]
    apply (attributeValues_check attributes context).bind
    intro _ _ _
    exact (text.evaluate_check context).bind_ok fun _ _ _ => trivial
  | list numbered source item =>
    rw [render_list, uses, List.forM_cons]
    apply (source.items_check context).bind
    -- What is gone through is what the source was found to be.
    rintro items _ rfl
    exact (renderEach_check (fun _ => render_check item _) 0 _).bind_ok fun _ _ _ => trivial
  | sequence items =>
    rw [render_sequence, uses]
    exact (renderItems_check items context).bind_ok fun _ _ _ => trivial
  | hole => trivial

theorem renderItems_check (items : List View) (context : Data) :
    Agree (fun _ _ => True) (renderItems items context) (forM (usesOf items context) Use.check) := by
  cases items with
  | nil => trivial
  | cons item items =>
    rw [renderItems_cons, usesOf, List.forM_append]
    apply (render_check item context).bind
    intro _ _ _
    exact (renderItems_check items context).bind_ok fun _ _ _ => trivial

end

/-- Rendering succeeds just where every reference that it comes to is good, and fails otherwise for the first
that is not. It comes to none in the item of a list that is empty. -/
theorem render_outcome (view : View) (context : Data) :
    ((∃ node, view.render context = .ok node) ↔ ∀ use ∈ view.uses context, use.Good) ∧
    (∀ error, view.render context = .error error ↔
      ∃ before use after, view.uses context = before ++ use :: after ∧
        (∀ earlier ∈ before, earlier.Good) ∧ use.Fails error) ∧
    ∀ numbered place item, place.Leads context (.list []) →
      uses (.list numbered place item) context = [⟨.source, place, context⟩] ∧
        render (.list numbered place item) context = .ok (.element (Head.ofTag (listTag numbered)) []) := by
  have alike := render_check view context
  refine ⟨?_, ?_, ?_⟩
  · rw [alike.ok_iff]
    simp only [← Use.check_eq_ok]
    rw [← forM_eq_ok]
    exact ⟨fun ⟨_, passed⟩ => passed, fun passed => ⟨(), passed⟩⟩
  · intro error
    rw [alike.error_iff, forM_eq_error]
    simp only [Use.check_eq_ok, Use.check_eq_error]
  · intro numbered place item leads
    constructor
    · rw [uses, Reference.listed_of_leads leads, List.flatMap_nil]
    · exact render_list_eq_ok.2 ⟨[], [], Reference.items_eq_ok.2 leads, rfl, rfl⟩

/-- Of two bad references the one that comes first is told. -/
example :
    render (.sequence [.element "p" [("id", .field "items")] .data, .list true (.field "rows") .hole])
      (.dict [("items", .list [])]) = .error (.notShowable .list) :=
  rfl

end View

end ViewTree
