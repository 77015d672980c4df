import ViewTree.Proofs.Json.Distinct
import ViewTree.Proofs.View.Reloading

namespace ViewTree.Template

/-- An object whose version, the last one that it gives, is written as that integer. -/
def GivesVersion (value : Json) (version : UInt32) : Prop :=
  ∃ members number within, value = .object members ∧
    Entries.last? "version" members = some (.number (.integer number within)) ∧ number = version.toNat

variable {members : List (String × Json)} {value : Json} {found supported : UInt32}

theorem givesVersion_object :
    GivesVersion (.object members) found ↔
      ∃ value, Entries.last? "version" members = some value ∧ value.asWord = .ok found := by
  constructor
  · rintro ⟨_, number, within, same, last, rfl⟩
    cases same
    exact ⟨_, last, asWord_eq_ok.2 ⟨within, rfl⟩⟩
  · rintro ⟨value, last, read⟩
    obtain ⟨within, rfl⟩ := asWord_eq_ok.1 read
    exact ⟨members, found.toNat, within, rfl, last, rfl⟩

theorem checkVersion_eq_unsupported :
    checkVersion (.object members) = .error (.unsupportedVersion found supported) ↔
      (∃ value, Entries.find? "version" members = some value ∧ value.asWord = .ok found) ∧
        found ≠ currentVersion ∧ supported = currentVersion := by
  simp only [checkVersion]
  cases given : Entries.find? "version" members with
  | none => simp
  | some value =>
    cases read : value.asWord with
    | error cause => simp [read]
    | ok version =>
      simp only [Option.some.injEq, exists_eq_left', read, Except.ok.injEq]
      by_cases current : version = currentVersion
      · rw [if_pos current]
        constructor
        · intro refused
          cases refused
        · rintro ⟨rfl, foreign, -⟩
          exact absurd current foreign
      · rw [if_neg current, Except.error.injEq, LoadError.unsupportedVersion.injEq]
        constructor
        · rintro ⟨rfl, rfl⟩
          exact ⟨rfl, current, rfl⟩
        · rintro ⟨rfl, -, rfl⟩
          exact ⟨rfl, rfl⟩

/-- What comes after the version can only make a value malformed. -/
theorem ofValue_eq_unsupported :
    ofValue value = .error (.unsupportedVersion found supported) ↔
      checkVersion value = .error (.unsupportedVersion found supported) := by
  rw [ofValue, bind_eq_error]
  constructor
  · rintro (refused | ⟨⟨⟩, -, failed⟩)
    · exact refused
    · obtain ⟨cause, -, same⟩ := mapError_eq_error.1 failed
      cases same
  · exact .inl

theorem ofValue_canonical_eq_unsupported :
    ofValue value.canonical = .error (.unsupportedVersion found supported) ↔
      GivesVersion value found ∧ found ≠ currentVersion ∧ supported = currentVersion := by
  rw [ofValue_eq_unsupported]
  cases value with
  | object members =>
    rw [Json.canonical, checkVersion_eq_unsupported, givesVersion_object, Json.find?_canonicalMembers]
    simp only [Option.map_eq_some_iff, exists_exists_and_eq_and, asWord_canonical]
  | _ =>
    constructor
    · intro refused
      cases refused
    · rintro ⟨⟨_, _, _, same, -, -⟩, -⟩
      cases same

theorem parse_eq_malformed {text : String} {error : Json.Error} (failed : Json.parse text = .error error) :
    parse text = .error (.malformed error) := by
  rw [parse, failed]
  rfl

/-- A template is refused for its version just where it is an object that gives another one, whatever else it gives.
Otherwise it is accepted or malformed, and a text that has no value is malformed whatever it starts with. -/
theorem parse_unsupported (text : String) :
    (∀ value, Json.parse text = .ok value → ∀ found supported,
      parse text = .error (.unsupportedVersion found supported) ↔
        GivesVersion value found ∧ found ≠ currentVersion ∧ supported = currentVersion) ∧
    ((∀ value found, Json.parse text = .ok value → GivesVersion value found → found = currentVersion) →
      (∃ template, parse text = .ok template) ∨ ∃ error, parse text = .error (.malformed error)) ∧
    ∀ error, Json.parse text = .error error → parse text = .error (.malformed error) := by
  have judged : ∀ value, Json.parse text = .ok value → ∀ found supported,
      parse text = .error (.unsupportedVersion found supported) ↔
        GivesVersion value found ∧ found ≠ currentVersion ∧ supported = currentVersion := by
    intro value parsed found supported
    rw [parse_eq_ofValue parsed, ofValue_canonical_eq_unsupported]
  refine ⟨judged, ?_, fun error => parse_eq_malformed⟩
  intro current
  cases taken : parse text with
  | ok template => exact .inl ⟨template, rfl⟩
  | error error =>
    cases error with
    | malformed error => exact .inr ⟨error, rfl⟩
    | unsupportedVersion found supported =>
      cases parsed : Json.parse text with
      | error error => cases (parse_eq_malformed parsed).symm.trans taken
      | ok value =>
        obtain ⟨gives, foreign, -⟩ := (judged value parsed found supported).1 taken
        exact absurd (current value found parsed gives) foreign

/-- The later version counts, before a view of an unknown kind; a negative number is no version; and a text that
stops short has no value. -/
theorem parse_unsupported_later :
    let members : List (String × Json) := [("version", .number (.integer 1 (by decide))),
      ("code", .object [("html_grid", .number (.integer 3 (by decide)))]),
      ("version", .number (.integer 4294967295 (by decide)))]
    let members' : List (String × Json) := [("version", .number (.integer (-2) (by decide))), ("code", .null)]
    let later := Json.compactText (.object members)
    let negative := Json.compactText (.object members')
    let short := "\x7b\"version\":2,"
    Json.parse later = .ok (.object members) ∧ GivesVersion (.object members) 4294967295 ∧
      parse later = .error (.unsupportedVersion 4294967295 1) ∧ Json.parse negative = .ok (.object members') ∧
      ((∃ template, parse negative = .ok template) ∨ ∃ error, parse negative = .error (.malformed error)) ∧
      ∃ error, Json.parse short = .error error ∧ parse short = .error (.malformed error) := by
  intro members members' later negative short
  have grid : (Json.object [("html_grid", .number (.integer 3 (by decide)))]).Legible :=
    ⟨Number.integer_readsBack _ _, trivial⟩
  have parsed : Json.parse later = .ok (.object members) :=
    Json.parse_compactText ⟨Number.integer_readsBack _ _, grid, Number.integer_readsBack _ _, trivial⟩ (by decide)
  have parsed' : Json.parse negative = .ok (.object members') :=
    Json.parse_compactText ⟨Number.integer_readsBack _ _, trivial, trivial⟩ (by decide)
  have stops : (Json.parse short).toOption.isNone = true := by decide +kernel
  have gives : GivesVersion (.object members) 4294967295 := ⟨members, 4294967295, by decide, rfl, rfl, rfl⟩
  refine ⟨parsed, gives, ((parse_unsupported later).1 _ parsed _ _).2 ⟨gives, by decide, rfl⟩, parsed', ?_, ?_⟩
  · apply (parse_unsupported negative).2.1
    rintro value found read ⟨_, number, _, rfl, last, same⟩
    rw [parsed'] at read
    cases read
    cases last
    omega
  · cases failed : Json.parse short with
    | ok value =>
      rw [failed] at stops
      cases stops
    | error error => exact ⟨error, rfl, (parse_unsupported short).2.2 error failed⟩

end ViewTree.Template
