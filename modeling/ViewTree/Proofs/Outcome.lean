import Mathlib.Data.List.Forall2

namespace ViewTree

variable {ε ε' α β γ δ : Type}

theorem bind_eq_ok {first : Except ε α} {next : α → Except ε β} {result : β} :
    (first >>= next) = .ok result ↔ ∃ value, first = .ok value ∧ next value = .ok result := by
  cases first with
  | error e => exact ⟨nofun, nofun⟩
  | ok value => exact ⟨fun h => ⟨value, rfl, h⟩, fun ⟨_, same, h⟩ => by cases same; exact h⟩

theorem bind_eq_error {first : Except ε α} {next : α → Except ε β} {error : ε} :
    (first >>= next) = .error error ↔
      first = .error error ∨ ∃ value, first = .ok value ∧ next value = .error error := by
  cases first with
  | error e => simp [bind, Except.bind]
  | ok value => simp [bind, Except.bind]

theorem map_eq_ok {outcome : Except ε α} {f : α → β} {result : β} :
    outcome.map f = .ok result ↔ ∃ value, outcome = .ok value ∧ f value = result := by
  cases outcome with
  | error e => exact ⟨nofun, nofun⟩
  | ok value => simp [Except.map]

theorem mapError_eq_ok {outcome : Except ε α} {f : ε → ε'} {result : α} :
    outcome.mapError f = .ok result ↔ outcome = .ok result := by
  cases outcome with
  | error e => exact ⟨nofun, nofun⟩
  | ok value => simp [Except.mapError]

theorem mapError_eq_error {outcome : Except ε α} {f : ε → ε'} {error : ε'} :
    outcome.mapError f = .error error ↔ ∃ cause, outcome = .error cause ∧ f cause = error := by
  cases outcome <;> simp [Except.mapError]

theorem toOption_eq_some {outcome : Except ε α} {result : α} :
    outcome.toOption = some result ↔ outcome = .ok result := by
  cases outcome <;> simp [Except.toOption]

theorem eq_of_ite_ok {holds : Prop} [Decidable holds] {value result : α} {error : ε}
    (passed : (if holds then .ok value else .error error) = Except.ok result) : value = result := by
  split at passed
  · exact Except.ok.inj passed
  · cases passed

theorem mapM_eq_ok {f : α → Except ε β} {values : List α} {results : List β} :
    values.mapM f = .ok results ↔ List.Forall₂ (fun result value => f value = .ok result) results values := by
  induction values generalizing results with
  | nil => exact ⟨fun made => by cases made; exact .nil, fun each => by cases each; rfl⟩
  | cons value values ih =>
    rw [List.mapM_cons, bind_eq_ok]
    constructor
    · rintro ⟨result, first, made⟩
      obtain ⟨rest, others, same⟩ := bind_eq_ok.1 made
      cases same
      exact .cons first (ih.1 others)
    · intro each
      cases each with
      | @cons result _ rest _ first others =>
        exact ⟨result, first, bind_eq_ok.2 ⟨rest, ih.2 others, rfl⟩⟩

theorem exists_of_forall₂ {related : α → β → Prop} {firsts : List α} {seconds : List β}
    (each : List.Forall₂ related firsts seconds) {second : β} (member : second ∈ seconds) :
    ∃ first ∈ firsts, related first second := by
  induction each with
  | nil => cases member
  | cons here _ ih =>
    rcases List.mem_cons.1 member with rfl | member
    · exact ⟨_, List.mem_cons_self, here⟩
    · obtain ⟨first, found, there⟩ := ih member
      exact ⟨first, List.mem_cons_of_mem _ found, there⟩

theorem forM_eq_ok {check : α → Except ε Unit} {values : List α} :
    forM values check = .ok () ↔ ∀ value ∈ values, check value = .ok () := by
  induction values with
  | nil => exact ⟨fun _ => nofun, fun _ => rfl⟩
  | cons value values ih =>
    rw [List.forM_cons, bind_eq_ok, List.forall_mem_cons]
    constructor
    · rintro ⟨⟨⟩, first, rest⟩
      exact ⟨first, ih.1 rest⟩
    · rintro ⟨first, rest⟩
      exact ⟨(), first, ih.2 rest⟩

theorem forM_eq_error {check : α → Except ε Unit} {values : List α} {error : ε} :
    forM values check = .error error ↔ ∃ before value after, values = before ++ value :: after ∧
      (∀ earlier ∈ before, check earlier = .ok ()) ∧ check value = .error error := by
  constructor
  · intro failed
    induction values with
    | nil => cases failed
    | cons value values ih =>
      rw [List.forM_cons] at failed
      cases first : check value with
      | error other =>
        rw [first] at failed
        exact ⟨[], value, values, rfl, nofun, first.trans failed⟩
      | ok done =>
        rw [first] at failed
        obtain ⟨before, other, after, rfl, passed, fails⟩ := ih failed
        refine ⟨value :: before, other, after, rfl, ?_, fails⟩
        rw [List.forall_mem_cons]
        exact ⟨first, passed⟩
  · rintro ⟨before, value, after, rfl, passed, fails⟩
    rw [List.forM_append, forM_eq_ok.2 passed, List.forM_cons, fails]
    rfl

def Agree (related : α → β → Prop) : Except ε α → Except ε β → Prop
  | .ok first, .ok second => related first second
  | .error first, .error second => first = second
  | _, _ => False

namespace Agree

theorem refl (outcome : Except ε α) : Agree Eq outcome outcome := by
  cases outcome <;> rfl

theorem eq {first second : Except ε α} (agree : Agree Eq first second) : first = second := by
  cases first with
  | error e =>
    cases second with
    | error e' => exact congrArg Except.error agree
    | ok b => exact agree.elim
  | ok a =>
    cases second with
    | error e' => exact agree.elim
    | ok b => exact congrArg Except.ok agree

theorem trans {related : α → β → Prop} {related' : β → γ → Prop} {after : α → γ → Prop} {first : Except ε α}
    {second : Except ε β} {third : Except ε γ} (agree : Agree related first second)
    (agree' : Agree related' second third) (compose : ∀ a b c, related a b → related' b c → after a c) :
    Agree after first third := by
  cases first with
  | error e =>
    cases second with
    | error e' =>
      cases third with
      | error e'' => exact Eq.trans agree agree'
      | ok c => exact agree'
    | ok b => exact agree.elim
  | ok a =>
    cases second with
    | error e' => exact agree.elim
    | ok b =>
      cases third with
      | error e'' => exact agree'
      | ok c => exact compose a b c agree agree'

theorem ok_eq {value : α} {f : α → β} {second : Except ε β}
    (agree : Agree (fun a b => b = f a) (.ok value) second) : second = .ok (f value) := by
  cases second with
  | error e => exact agree.elim
  | ok b => exact congrArg Except.ok agree

theorem imp {related after : α → β → Prop} {first : Except ε α} {second : Except ε β}
    (agree : Agree related first second)
    (more : ∀ a b, first = .ok a → second = .ok b → related a b → after a b) : Agree after first second := by
  cases first with
  | error e => cases second <;> exact agree
  | ok a =>
    cases second with
    | error e' => exact agree
    | ok b => exact more a b rfl rfl agree

theorem bind {related : α → β → Prop} {after : γ → δ → Prop} {first : Except ε α} {second : Except ε β}
    {next : α → Except ε γ} {next' : β → Except ε δ} (start : Agree related first second)
    (rest : ∀ a b, related a b → Agree after (next a) (next' b)) :
    Agree after (first >>= next) (second >>= next') := by
  cases first with
  | error e =>
    cases second with
    | error e' => exact start
    | ok b => exact start.elim
  | ok a =>
    cases second with
    | error e' => exact start.elim
    | ok b => exact rest a b start

theorem bind_ok {related : α → β → Prop} {after : γ → β → Prop} {first : Except ε α} {second : Except ε β}
    {f : α → γ} (agree : Agree related first second) (rest : ∀ a b, related a b → after (f a) b) :
    Agree after (first >>= fun a => .ok (f a)) second := by
  cases first with
  | error e => cases second <;> exact agree
  | ok a =>
    cases second with
    | error e' => exact agree
    | ok b => exact rest a b agree

theorem ok_iff {related : α → β → Prop} {first : Except ε α} {second : Except ε β}
    (agree : Agree related first second) : (∃ a, first = .ok a) ↔ ∃ b, second = .ok b := by
  cases first with
  | error e =>
    cases second with
    | error e' => exact ⟨nofun, nofun⟩
    | ok b => exact agree.elim
  | ok a =>
    cases second with
    | error e' => exact agree.elim
    | ok b => exact ⟨fun _ => ⟨b, rfl⟩, fun _ => ⟨a, rfl⟩⟩

theorem error_iff {related : α → β → Prop} {first : Except ε α} {second : Except ε β}
    (agree : Agree related first second) (error : ε) : first = .error error ↔ second = .error error := by
  cases first with
  | error e =>
    cases second with
    | error e' => rw [show e = e' from agree, Except.error.injEq, Except.error.injEq]
    | ok b => exact agree.elim
  | ok a =>
    cases second with
    | error e' => exact agree.elim
    | ok b => exact ⟨nofun, nofun⟩

theorem map {related : α → β → Prop} {after : γ → δ → Prop} {first : Except ε α} {second : Except ε β}
    {f : α → γ} {g : β → δ} (agree : Agree related first second)
    (rest : ∀ a b, related a b → after (f a) (g b)) : Agree after (first.map f) (second.map g) := by
  cases first with
  | error e => cases second <;> exact agree
  | ok a =>
    cases second with
    | error e' => exact agree
    | ok b => exact rest a b agree

theorem of_map {f : α → γ} {g : β → γ} {first : Except ε α} {second : Except ε β}
    (same : first.map f = second.map g) : Agree (fun a b => f a = g b) first second := by
  cases first with
  | error e => cases second <;> cases same; rfl
  | ok a =>
    cases second with
    | error e' => cases same
    | ok b => exact Except.ok.inj same

end Agree

def Persists (related : α → β → Prop) (first : Except ε α) (second : Except ε' β) : Prop :=
  ∀ a, first = .ok a → ∃ b, second = .ok b ∧ related a b

namespace Persists

variable {related : α → β → Prop} {after : γ → δ → Prop} {first : Except ε α} {second : Except ε' β}

theorem refl (outcome : Except ε α) : Persists Eq outcome outcome := fun value succeeds => ⟨value, succeeds, rfl⟩

theorem ok {a : α} {b : β} (same : related a b) :
    Persists related (.ok a : Except ε α) (.ok b : Except ε' β) := by
  intro value succeeds
  cases succeeds
  exact ⟨b, rfl, same⟩

theorem bind {next : α → Except ε γ} {next' : β → Except ε' δ} (start : Persists related first second)
    (rest : ∀ a b, related a b → Persists after (next a) (next' b)) :
    Persists after (first >>= next) (second >>= next') := by
  intro result succeeds
  obtain ⟨a, here, there⟩ := bind_eq_ok.1 succeeds
  obtain ⟨b, here', same⟩ := start a here
  obtain ⟨result', there', sames⟩ := rest a b same result there
  exact ⟨result', bind_eq_ok.2 ⟨b, here', there'⟩, sames⟩

theorem map {f : α → γ} {g : β → δ} (persists : Persists related first second)
    (rest : ∀ a b, related a b → after (f a) (g b)) : Persists after (first.map f) (second.map g) := by
  intro result succeeds
  obtain ⟨a, here, rfl⟩ := map_eq_ok.1 succeeds
  obtain ⟨b, here', same⟩ := persists a here
  exact ⟨g b, map_eq_ok.2 ⟨b, here', rfl⟩, rest a b same⟩

end Persists

end ViewTree
