import ViewTree.Proofs.View.Depth
import ViewTree.Proofs.View.Storage
import ViewTree.View.Reading

namespace ViewTree

theorem Json.parse_compactText {value : Json} (legible : value.Legible) (fits : value.depth ≤ depthLimit) :
    parse value.compactText = .ok value := by
  have parsed := parse_text .dense value legible
  rwa [if_pos fits, ← Layout.compact_eq] at parsed

namespace Template

theorem depth_of_parse {text : String} {template : Template} (loaded : parse text = .ok template) :
    ∃ value, Json.parse text = .ok value ∧ template.toJson.depth ≤ value.depth + 1 := by
  obtain ⟨value, parsed, taken⟩ := bind_eq_ok.1 loaded
  obtain ⟨_, -, decoded⟩ := bind_eq_ok.1 taken
  rw [mapError_eq_ok] at parsed decoded
  have stored := ofJson_depth decoded
  have sorted := value.depth_canonical
  exact ⟨value, parsed, by omega⟩

theorem parse_eq_ofValue {text : String} {value : Json} (parsed : Json.parse text = .ok value) :
    parse text = ofValue value.canonical := by
  rw [parse, parsed]
  rfl

theorem parse_text_of_depth_le {view : View} (fits : (ofView view).toJson.depth ≤ Json.depthLimit) :
    parse (ofView view).text = .ok (ofView view) := by
  have stored := parse_text view
  rwa [if_pos fits] at stored

theorem parse_text_of_lt_depth {view : View} (deep : Json.depthLimit < (ofView view).toJson.depth) :
    ∃ position, parse (ofView view).text = .error (.malformed ⟨.malformed .tooDeep, position⟩) := by
  have stored := parse_text view
  rwa [if_neg (Nat.not_le.2 deep)] at stored

/-- A current template that was loaded is loaded again from its own text just where that does not nest too
deep, and so wherever the text it came from was not already as deep as may be read. -/
theorem reload_iff {text : String} {template : Template} (loaded : parse text = .ok template)
    (current : template.version = currentVersion) :
    (parse template.text = .ok template ↔ template.toJson.depth ≤ Json.depthLimit) ∧
    (Json.depthLimit < template.toJson.depth →
      ∃ position, parse template.text = .error (.malformed ⟨.malformed .tooDeep, position⟩)) ∧
    ∃ value, Json.parse text = .ok value ∧ value.depth ≤ Json.depthLimit ∧
      template.toJson.depth ≤ value.depth + 1 ∧
      (value.depth < Json.depthLimit → parse template.text = .ok template) := by
  obtain ⟨version, view⟩ := template
  cases current
  obtain ⟨value, parsed, deeper⟩ := depth_of_parse loaded
  have within := Json.depth_of_parse parsed
  refine ⟨⟨?_, parse_text_of_depth_le⟩, parse_text_of_lt_depth, value, parsed, within, deeper, ?_⟩
  · intro again
    by_contra deep
    obtain ⟨position, failed⟩ := parse_text_of_lt_depth (Nat.not_le.1 deep)
    cases again.symm.trans failed
  · intro room
    exact parse_text_of_depth_le (Nat.le_trans deeper room)

theorem reload_iff_line :
    let text := Json.compactText (.object [("version", .number (.ofUInt64 1)),
      ("code", .object [("html_element", .object [("tag", .string "hr")])])])
    let template := ofView (.element "hr" [] .empty)
    parse text = .ok template ∧ template.version = currentVersion ∧
      (parse template.text = .ok template ↔ template.toJson.depth ≤ Json.depthLimit) ∧
      (Json.depthLimit < template.toJson.depth →
        ∃ position, parse template.text = .error (.malformed ⟨.malformed .tooDeep, position⟩)) ∧
      ∃ value, Json.parse text = .ok value ∧ value.depth ≤ Json.depthLimit ∧
        template.toJson.depth ≤ value.depth + 1 ∧
        (value.depth < Json.depthLimit → parse template.text = .ok template) := by
  intro text template
  have loaded : parse text = .ok template := by decide +kernel
  exact ⟨loaded, rfl, reload_iff loaded rfl⟩

def writtenInSequences : Nat → Json → Json
  | 0, inner => inner
  | count + 1, inner => .object [("sequence", .list [writtenInSequences count inner])]

def inSequences : Nat → View → View
  | 0, inner => inner
  | count + 1, inner => .sequence [inSequences count inner]

def deepestWritten : Json :=
  .object [("version", .number (.ofUInt64 1)),
    ("code", writtenInSequences 62 (.object [("html_element", .object [("tag", .string "p")])]))]

def deepest : View := inSequences 62 (.element "p" [] .empty)

theorem legible_writtenInSequences (count : Nat) {inner : Json} (legible : inner.Legible) :
    (writtenInSequences count inner).Legible := by
  induction count with
  | zero => exact legible
  | succ count ih => exact ⟨⟨ih, trivial⟩, trivial⟩

theorem reload_deepest :
    parse deepestWritten.compactText = .ok (ofView deepest) ∧
      (ofView deepest).version = currentVersion ∧
      parse (ofView deepest).text ≠ .ok (ofView deepest) := by
  have element : (Json.object [("html_element", .object [("tag", .string "p")])]).Legible :=
    ⟨⟨trivial, trivial⟩, trivial⟩
  have legible : deepestWritten.Legible :=
    ⟨Number.integer_readsBack _ _, legible_writtenInSequences 62 element, trivial⟩
  have fits : deepestWritten.depth ≤ Json.depthLimit := by decide +kernel
  have deep : Json.depthLimit < (ofView deepest).toJson.depth := by decide +kernel
  have decoded : ofValue deepestWritten.canonical = .ok (ofView deepest) := by
    decide +kernel
  refine ⟨?_, rfl, ?_⟩
  · rw [parse_eq_ofValue (Json.parse_compactText legible fits), decoded]
  · obtain ⟨position, failed⟩ := parse_text_of_lt_depth deep
    intro again
    cases again.symm.trans failed

end Template

end ViewTree
