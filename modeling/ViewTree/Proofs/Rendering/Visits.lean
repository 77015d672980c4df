import ViewTree.Proofs.Rendering.References

namespace ViewTree

/-- A view that rendering comes to, with the data in scope there. -/
structure Visit where
  view : View
  context : Data

namespace Visit

/-- The references of the view itself, what is inside it left aside. -/
def uses : Visit → List Use
  | ⟨.element tag attributes text, context⟩ => View.uses (.element tag attributes text) context
  | ⟨.list _ source _, context⟩ => [⟨.source, source, context⟩]
  | _ => []

def Passes (visit : Visit) : Prop := ∀ use ∈ visit.uses, use.Good

def Fails (visit : Visit) (error : RenderError) : Prop :=
  ∃ before use after, visit.uses = before ++ use :: after ∧ (∀ earlier ∈ before, earlier.Good) ∧ use.Fails error

def entry (visit : Visit) : Record := .entering visit.view.kind visit.context.kind

/-- The records of a visit that does not fail: of a list also how many items it has. -/
def records : Visit → List Record
  | ⟨.list numbered source item, context⟩ =>
    [entry ⟨.list numbered source item, context⟩, .expanding (source.listed context).length]
  | visit => [visit.entry]

theorem forM_eq_ok_iff {visit : Visit} : forM visit.uses Use.check = .ok () ↔ visit.Passes := by
  simp only [forM_eq_ok, Use.check_eq_ok, Passes]

theorem forM_eq_error_iff {visit : Visit} {error : RenderError} :
    forM visit.uses Use.check = .error error ↔ visit.Fails error := by
  simp only [forM_eq_error, Use.check_eq_ok, Use.check_eq_error, Fails]

theorem filter_records (visit : Visit) : (visit.records.filter fun record => record.level = .trace) = [visit.entry] := by
  obtain ⟨view, context⟩ := visit
  cases view <;> rfl

end Visit

namespace View

mutual

/-- The views that rendering comes to: what is inside a view after the view, and the item of a list once for each item
of its source. -/
def visits : View → Data → List Visit
  | .element tag attributes text, context => [⟨.element tag attributes text, context⟩]
  | .list numbered source item, context =>
    ⟨.list numbered source item, context⟩ :: (source.listed context).flatMap (visits item)
  | .sequence items, context => ⟨.sequence items, context⟩ :: visitsOf items context
  | .hole, context => [⟨.hole, context⟩]

def visitsOf : List View → Data → List Visit
  | [], _ => []
  | item :: items, context => visits item context ++ visitsOf items context

end

end View

/-- A computation follows visits one by one, to the end of them or up to the first that fails. -/
inductive Follows {α : Type} (visits : List Visit) : Logged RenderError α → Prop
  | passed {value : α} (pass : ∀ visit ∈ visits, visit.Passes) :
    Follows visits ⟨visits.flatMap Visit.records, .ok value⟩
  | stopped {before after : List Visit} {visit : Visit} {error : RenderError} (whole : visits = before ++ visit :: after)
    (pass : ∀ earlier ∈ before, earlier.Passes) (fails : visit.Fails error) :
    Follows visits ⟨before.flatMap Visit.records ++ [visit.entry], .error error⟩

namespace Follows

variable {α β : Type} {visits others : List Visit}

theorem done (value : α) : Follows [] (pure value : Logged RenderError α) := passed nofun

theorem bind {first : Logged RenderError α} {next : α → Logged RenderError β} (start : Follows visits first)
    (rest : ∀ value, Follows others (next value)) : Follows (visits ++ others) (first >>= next) := by
  cases start with
  | @passed value pass =>
    show Follows _ ⟨visits.flatMap Visit.records ++ (next value).log, (next value).outcome⟩
    have second := rest value
    generalize next value = further at second ⊢
    cases second with
    | passed pass' =>
      rw [← List.flatMap_append]
      exact .passed (List.forall_mem_append.2 ⟨pass, pass'⟩)
    | @stopped before after visit error whole pass' fails =>
      rw [← List.append_assoc, ← List.flatMap_append]
      have whole' : visits ++ others = (visits ++ before) ++ visit :: after := by rw [whole, List.append_assoc]
      exact .stopped whole' (List.forall_mem_append.2 ⟨pass, pass'⟩) fails
  | @stopped before after visit error whole pass fails =>
    have whole' : visits ++ others = before ++ visit :: (after ++ others) := by
      rw [whole, List.append_assoc, List.cons_append]
    exact .stopped whole' pass fails

theorem map {computation : Logged RenderError α} (follows : Follows visits computation) (f : α → β) :
    Follows visits (computation >>= fun value => pure (f value)) := by
  have ended := follows.bind fun value => done (f value)
  rwa [List.append_nil] at ended

theorem visit {outcome : Except RenderError α} (visit : Visit) (records : visit.records = [visit.entry])
    (checked : Agree (fun _ _ => True) outcome (forM visit.uses Use.check)) :
    Follows [visit] ⟨[visit.entry], outcome⟩ := by
  cases outcome with
  | error error =>
    have fails : visit.Fails error := Visit.forM_eq_error_iff.1 ((checked.error_iff error).1 rfl)
    have whole : [visit] = [] ++ visit :: [] := rfl
    exact stopped whole nofun fails
  | ok value =>
    obtain ⟨⟨⟩, passes⟩ := checked.ok_iff.1 ⟨value, rfl⟩
    have followed : Follows [visit] ⟨[visit].flatMap Visit.records, .ok value⟩ :=
      passed (List.forall_mem_singleton.2 (Visit.forM_eq_ok_iff.1 passes))
    rwa [List.flatMap_singleton, records] at followed

end Follows

namespace View

theorem trace_element (tag : String) (attributes : List (String × Value)) (text : Value) (context : Data) :
    trace (.element tag attributes text) context =
      ⟨[.entering .element context.kind], render (.element tag attributes text) context⟩ := by
  rw [render_element, trace]
  cases attributeValues attributes context with
  | error error => rfl
  | ok values => cases text.evaluate context <;> rfl

theorem trace_list_of_error {source : Reference} {context : Data} {error : RenderError}
    (failed : source.items context = .error error) (numbered : Bool) (item : View) :
    trace (.list numbered source item) context = ⟨[.entering .list context.kind], .error error⟩ := by
  rw [trace, failed]
  rfl

theorem trace_list_of_ok {source : Reference} {context : Data} {items : List Data}
    (found : source.items context = .ok items) (numbered : Bool) (item : View) :
    trace (.list numbered source item) context = (do
      let () ← ⟨[.entering .list context.kind, .expanding items.length], .ok ()⟩
      let children ← listItems item.trace 0 items
      pure (.element (Head.ofTag (listTag numbered)) children)) := by
  rw [trace, found]
  rfl

theorem listItems_follows {item : View} (each : ∀ data, Follows (item.visits data) (item.trace data)) (position : Nat)
    (items : List Data) : Follows (items.flatMap item.visits) (listItems item.trace position items) := by
  induction items generalizing position with
  | nil => exact .done []
  | cons data items ih =>
    rw [List.flatMap_cons, listItems]
    exact (each data).bind fun node => (ih (position + 1)).map _

mutual

theorem trace_follows (view : View) (context : Data) : Follows (view.visits context) (view.trace context) := by
  cases view with
  | element tag attributes text =>
    rw [trace_element, visits]
    exact .visit ⟨.element tag attributes text, context⟩ rfl (render_check _ context)
  | list numbered source item =>
    have checked := source.items_check context
    cases found : source.items context with
    | error error =>
      have refused : Use.check ⟨.source, source, context⟩ = .error error := (checked.error_iff error).1 found
      have fails : Visit.Fails ⟨.list numbered source item, context⟩ error :=
        ⟨[], _, [], rfl, nofun, Use.check_eq_error.1 refused⟩
      have whole : visits (.list numbered source item) context =
          [] ++ ⟨.list numbered source item, context⟩ :: (source.listed context).flatMap item.visits := rfl
      rw [trace_list_of_error found]
      exact .stopped whole nofun fails
    | ok items =>
      obtain ⟨⟨⟩, good⟩ := checked.ok_iff.1 ⟨items, found⟩
      have passes : Visit.Passes ⟨.list numbered source item, context⟩ :=
        List.forall_mem_singleton.2 (Use.check_eq_ok.1 good)
      have listed : source.listed context = items := Reference.listed_of_leads (Reference.items_eq_ok.1 found)
      have opened : Follows [⟨.list numbered source item, context⟩]
          ⟨[.entering .list context.kind, .expanding (source.listed context).length], .ok ()⟩ :=
        .passed (List.forall_mem_singleton.2 passes)
      rw [trace_list_of_ok found, visits, ← listed]
      exact opened.bind fun _ => (listItems_follows (trace_follows item) 0 _).map _
  | sequence items =>
    have entered : Follows [⟨.sequence items, context⟩] (Logged.record (.entering .sequence context.kind)) :=
      .passed (List.forall_mem_singleton.2 nofun)
    rw [trace, visits]
    exact entered.bind fun _ => (traceItems_follows items context).map _
  | hole => exact .passed (List.forall_mem_singleton.2 nofun)

theorem traceItems_follows (items : List View) (context : Data) :
    Follows (visitsOf items context) (traceItems items context) := by
  cases items with
  | nil => exact .done []
  | cons item items =>
    rw [visitsOf, traceItems]
    exact (trace_follows item context).bind fun node => (traceItems_follows items context).map _

end

end View

/-- The visit is one at which an error of this kind can come up: what is not shown is in an element, and what is not
iterated is in a list. The data that a field is not bound in is that of the visit. -/
def RenderError.ArisesAt (visit : Visit) : RenderError → Prop
  | .unboundField _ context =>
    (visit.view.kind = .element ∨ visit.view.kind = .list) ∧ context = visit.context.kind
  | .notShowable _ => visit.view.kind = .element
  | .notIterable _ => visit.view.kind = .list
  | .illegalName _ => False

def Role.At (kind : View.Kind) : Role → Prop
  | .shown => kind = .element
  | .source => kind = .list

namespace Visit

theorem mem_uses {visit : Visit} {use : Use} (member : use ∈ visit.uses) :
    use.context = visit.context ∧ use.role.At visit.view.kind := by
  obtain ⟨view, context⟩ := visit
  have inValue {value : Value} (member : use ∈ value.uses context) : use.context = context ∧ use.role = .shown := by
    cases value with
    | reference place =>
      cases List.mem_singleton.1 member
      exact ⟨rfl, rfl⟩
    | _ => cases member
  cases view with
  | element tag attributes text =>
    have shown : use.context = context ∧ use.role = .shown := by
      rcases List.mem_append.1 member with declared | inside
      · obtain ⟨_, -, found⟩ := List.mem_flatMap.1 declared
        exact inValue found
      · exact inValue inside
    rw [shown.2]
    exact ⟨shown.1, rfl⟩
  | list numbered source item =>
    cases List.mem_singleton.1 member
    exact ⟨rfl, rfl⟩
  | _ => cases member

theorem Fails.arisesAt {visit : Visit} {error : RenderError} (fails : visit.Fails error) : error.ArisesAt visit := by
  obtain ⟨before, use, after, listed, -, bad⟩ := fails
  have member : use ∈ visit.uses := by
    rw [listed]
    exact List.mem_append_right before List.mem_cons_self
  obtain ⟨scope, place⟩ := mem_uses member
  cases bad with
  | @unbound role name context astray =>
    refine ⟨?_, congrArg Data.kind scope⟩
    cases role with
    | shown => exact .inl place
    | source => exact .inr place
  | refused leads unfit =>
    obtain ⟨role, reference, context⟩ := use
    cases role <;> exact place

end Visit

/-- A rendering that succeeds records all visits, and one that fails records them up to the first view that has a bad
reference. The last record is then that this view was come to. -/
theorem View.trace_log (view : View) (context : Data) :
    (∀ node, view.render context = .ok node →
      (view.trace context).log = (view.visits context).flatMap Visit.records ∧
      ((view.trace context).log.filter fun record => record.level = .trace) =
        (view.visits context).map Visit.entry ∧
      ∀ visit ∈ view.visits context, visit.Passes) ∧
    ∀ error, view.render context = .error error → ∃ before visit after,
      view.visits context = before ++ visit :: after ∧
      (view.trace context).log = before.flatMap Visit.records ++ [visit.entry] ∧
      (∀ earlier ∈ before, earlier.Passes) ∧ visit.Fails error ∧ error.ArisesAt visit := by
  have follows := view.trace_follows context
  rw [render]
  generalize view.trace context = computation at follows ⊢
  cases follows with
  | @passed value pass =>
    constructor
    · intro node _
      refine ⟨rfl, ?_, pass⟩
      simp only [List.filter_flatMap, Visit.filter_records]
      exact List.map_eq_flatMap.symm
    · intro error failed
      cases failed
  | @stopped before after visit error whole pass fails =>
    constructor
    · intro node rendered
      cases rendered
    · intro error' failed
      cases failed
      exact ⟨before, visit, after, whole, rfl, pass, fails, fails.arisesAt⟩

/-- The second of two tasks cannot be shown; what stands behind the list is not come to. -/
theorem View.trace_log_tasks :
    let view : View := .sequence [.textElement "h1" (.constant "Tasks"),
      .list false (.field "tasks") (.element "li" [("title", .data)] .empty), .textElement "p" (.field "note")]
    let context (second : Data) : Data := .dict [("note", .none), ("tasks", .list [.string "milk", second])]
    let start : List Record := [.entering .sequence .dict, .entering .element .dict, .entering .list .dict,
      .expanding 2, .entering .element .string]
    (∃ node, view.render (context .none) = .ok node) ∧
      (view.trace (context .none)).log = start ++ [.entering .element .none, .entering .element .dict] ∧
      view.render (context (.list [])) = .error (.notShowable .list) ∧
      (view.trace (context (.list []))).log = start ++ [.entering .element .list] ∧
      ∃ before visit after, view.visits (context (.list [])) = before ++ visit :: after ∧
        start ++ [.entering .element .list] = before.flatMap Visit.records ++ [visit.entry] ∧
        visit.Fails (.notShowable .list) := by
  intro view context start
  have rendered : ∃ node, view.render (context .none) = .ok node := ⟨_, rfl⟩
  have failed : view.render (context (.list [])) = .error (.notShowable .list) := rfl
  obtain ⟨node, same⟩ := rendered
  have whole := ((view.trace_log (context .none)).1 node same).1
  obtain ⟨before, visit, after, visits, log, -, fails, -⟩ := (view.trace_log (context (.list []))).2 _ failed
  exact ⟨⟨node, same⟩, whole.trans rfl, failed, rfl, before, visit, after, visits, log, fails⟩

end ViewTree
