import ViewTree.Proofs.View.Acceptance

namespace ViewTree

namespace Json

/-- A character that stands for itself in a string. -/
def standsPlain (c : Char) : Bool := c != '"' && c != '\\' && decide (0x20 ≤ c.toNat)

theorem PiecesBegin.plain {content : List Char} (plain : content.all standsPlain = true) (rest : List Char) :
    PiecesBegin (content.map .plain) (content ++ '"' :: rest) rest := by
  induction content with
  | nil => exact .close rest
  | cons c content ih =>
    simp only [List.all_cons, standsPlain, Bool.and_eq_true, bne_iff_ne, decide_eq_true_eq] at plain
    obtain ⟨⟨⟨notQuote, notBackslash⟩, printable⟩, others⟩ := plain
    exact .piece (.plain notQuote notBackslash (Nat.not_lt.2 printable) _) (ih others)

theorem Piece.content_plain (content : List Char) : Piece.content (content.map .plain) = some content := by
  induction content with
  | nil => rfl
  | cons c content ih => rw [List.map_cons, Piece.content, ih, Option.map_some]

theorem Quoted.plain {content : List Char} (plain : content.all standsPlain = true) (rest : List Char) :
    Quoted (some (String.ofList content)) ('"' :: (content ++ '"' :: rest)) rest := by
  have quoted := Quoted.quote (PiecesBegin.plain plain rest)
  rwa [Piece.content_plain] at quoted

end Json

open Json (Written)
open Json.Reader (Blank)

namespace Json.Written.Spells

variable {written : Written} {text : String}

theorem value?_of_parse (spells : written.Spells text) {value : Json} (parsed : Json.parse text = .ok value) :
    written.value? = some value :=
  spells.sound written.value_takes parsed

theorem parse_of_value? (spells : written.Spells text) (fits : written.depth ≤ depthLimit) {value : Json}
    (means : written.value? = some value) : Json.parse text = .ok value :=
  spells.complete written.value_takes fits means

theorem writtenAs_of_parse (spells : written.Spells text) {view : View} (parsed : View.parse text = .ok view) :
    view.WrittenAs written :=
  spells.sound (Reading.view_takes written) parsed

theorem parse_of_writtenAs (spells : written.Spells text) (fits : written.depth ≤ depthLimit) {view : View}
    (given : view.WrittenAs written) : View.parse text = .ok view :=
  spells.complete (Reading.view_takes written) fits given

end Json.Written.Spells

/-- The text of a template of the current version around the text of a view. -/
def Template.enveloped (text : String) : String := "\x7b\"version\":1,\"code\":" ++ text ++ "\x7d"

theorem Template.toList_enveloped (text : String) :
    (enveloped text).toList = '{' :: '"' :: ("version".toList ++ '"' :: ':' :: '1' :: ',' :: '"' ::
      ("code".toList ++ '"' :: ':' :: (text.toList ++ ['}']))) := by
  have front : "\x7b\"version\":1,\"code\":".toList =
      '{' :: '"' :: ("version".toList ++ '"' :: ':' :: '1' :: ',' :: '"' :: ("code".toList ++ ['"', ':'])) := by
    decide
  have back : "\x7d".toList = ['}'] := by decide
  have parts : (enveloped text).toList = "\x7b\"version\":1,\"code\":".toList ++ text.toList ++ "\x7d".toList :=
    String.toList_append.trans (congrArg (· ++ _) String.toList_append)
  generalize text.toList = characters at parts ⊢
  rw [parts, front, back]
  simp only [List.append_assoc, List.cons_append, List.nil_append]

namespace Json.Written

def enveloped (written : Written) : Written :=
  .object [(some "version", .number (some (.integer 1 (by decide)))), (some "code", written)]

theorem depth_enveloped (written : Written) : written.enveloped.depth = written.depth + 1 := by
  simp [enveloped, depth, depthMembers]

theorem value?_enveloped {written : Written} {value : Json} :
    written.enveloped.value? = some value ↔ ∃ held, written.value? = some held ∧
      value = .object [("version", .number (.integer 1 (by decide))), ("code", held)] := by
  cases held : written.value? with
  | none => simp [enveloped, value?, members?, held]
  | some inner => simp [enveloped, value?, members?, held, @eq_comm _ value]

theorem begins_one (rest : List Char) : Begins (.number (some (.integer 1 (by decide)))) ('1' :: rest) rest := by
  have one : Numeral.Spelled ⟨false, ['1'], [], none⟩ ['1'] :=
    .positive (.digits (by decide) (List.forall_mem_singleton.2 rfl)) .absent .absent
  exact .number one rest

theorem Spells.enveloped {written : Written} {text : String} (spells : written.Spells text) :
    written.enveloped.Spells (Template.enveloped text) := by
  obtain ⟨start, rest, gap, begins, spaces⟩ := spells
  refine ⟨_, [], .refl _, ?_, nofun⟩
  rw [Template.toList_enveloped]
  refine .object (.member (.first (.refl _)) (Quoted.plain (by decide) _) (.refl _) (.refl _) (begins_one _) ?_)
  refine .member (.next (.refl _) (.refl _)) (Quoted.plain (by decide) _) (.refl _) (gap.append _) (begins.append _) ?_
  exact .close (.blank spaces _)

end Json.Written

/-- A template of the current version around a view is read to the view that is decoded from its value. -/
theorem Template.ofValue_enveloped {value : Json} {template : Template} :
    ofValue (Json.object [("version", .number (.integer 1 (by decide))), ("code", value)]).canonical = .ok template ↔
      template.version = currentVersion ∧ template.code.PresentedBy value.canonical := by
  rw [ofValue_canonical_eq_ok]
  simp [Entries.last?]

theorem Template.parse_enveloped_eq_ok {written : Written} {text : String} {template : Template}
    (spells : written.Spells text) (parsed : Template.parse (enveloped text) = .ok template) :
    template.version = currentVersion ∧
      ∃ value, written.value? = some value ∧ template.code.PresentedBy value.canonical := by
  obtain ⟨value, read, taken⟩ := bind_eq_ok.1 parsed
  rw [mapError_eq_ok] at read
  obtain ⟨held, means, rfl⟩ := Written.value?_enveloped.1 (spells.enveloped.value?_of_parse read)
  obtain ⟨current, presented⟩ := ofValue_enveloped.1 taken
  exact ⟨current, held, means, presented⟩

namespace View

/-- A view and the template around it. Where both are read they hold the same view; and either both are read or
neither is, where no key is repeated, all fields of elements and lists are known and stand beside their names,
and there is room for the brackets of the template. -/
theorem parse_enveloped {written : Written} {text : String} (spells : written.Spells text) :
    (∀ view template, parse text = .ok view → Template.parse (Template.enveloped text) = .ok template →
      template.code = view ∧ template.version = 1) ∧
    (written.Distinct → written.Plain → written.depth ≤ 126 →
      ((∃ view, parse text = .ok view) ↔ ∃ template, Template.parse (Template.enveloped text) = .ok template)) := by
  constructor
  · intro view template read loaded
    obtain ⟨current, value, means, presented⟩ := Template.parse_enveloped_eq_ok spells loaded
    have given := spells.writtenAs_of_parse read
    have presented' := given.presented written means (.inr ⟨template.code, presented⟩)
    have decoded := (ofJson_eq_ok value.canonical value.distinct_canonical).2 presented
    have decoded' := (ofJson_eq_ok value.canonical value.distinct_canonical).2 presented'
    exact ⟨Except.ok.inj (decoded.symm.trans decoded'), current⟩
  · intro distinct plain fits
    have room : written.enveloped.depth ≤ Json.depthLimit := by
      rw [Written.depth_enveloped, Json.depthLimit]
      omega
    constructor
    · rintro ⟨view, read⟩
      obtain ⟨value, means, presented⟩ := (writtenAs_iff plain distinct view).1 (spells.writtenAs_of_parse read)
      have parsed := spells.enveloped.parse_of_value? room (Written.value?_enveloped.2 ⟨value, means, rfl⟩)
      refine ⟨.ofView view, ?_⟩
      rw [Template.parse_eq_ofValue parsed]
      exact Template.ofValue_enveloped.2 ⟨rfl, presented⟩
    · rintro ⟨template, loaded⟩
      obtain ⟨-, given⟩ := Template.parse_enveloped_eq_ok spells loaded
      have read := (writtenAs_iff plain distinct template.code).2 given
      exact ⟨template.code, spells.parse_of_writtenAs (Nat.le_trans fits (by decide)) read⟩

theorem parse_enveloped_paragraph :
    let text := "\x7b\"html_element\":\x7b\"tag\":\"p\"\x7d\x7d"
    let written : Written := .object [(some "html_element", .object [(some "tag", .string (some "p"))])]
    written.Spells text ∧ written.Distinct ∧ written.Plain ∧ written.depth ≤ 126 ∧
      parse text = .ok (.element "p" [] .empty) ∧
      Template.parse (Template.enveloped text) = .ok (.ofView (.element "p" [] .empty)) := by
  intro text written
  have spells : written.Spells text := by
    have characters : text.toList = '{' :: '"' :: ("html_element".toList ++ '"' :: ':' :: '{' :: '"' ::
        ("tag".toList ++ '"' :: ':' :: '"' :: ("p".toList ++ ['"', '}', '}']))) := by
      decide
    refine ⟨_, [], .refl _, ?_, nofun⟩
    rw [characters]
    refine .object (.member (.first (.refl _)) (.plain (by decide) _) (.refl _) (.refl _) ?_ (.close (.refl _)))
    refine .object (.member (.first (.refl _)) (.plain (by decide) _) (.refl _) (.refl _) ?_ (.close (.refl _)))
    exact .string (.plain (by decide) _)
  have distinct : written.Distinct := by
    simp [written, Written.Distinct, Written.DistinctMembers]
  have nowhere (value : Written) (place : written.ViewAt value) : value = written := by
    induction place with
    | root => rfl
    | item _ _ ih | code _ _ ih => simp [written] at ih
  have plain : written.Plain := by
    constructor
    · intro payload place
      have same := nowhere _ place
      simp only [written, Written.object.injEq, List.cons.injEq, Prod.mk.injEq, and_true, true_and] at same
      subst same
      refine ⟨_, rfl, fun key value member => ⟨"tag", List.mem_cons_self, ?_⟩⟩
      exact congrArg Prod.fst (List.mem_singleton.1 member)
    · intro payload place
      have same := nowhere _ place
      simp [written] at same
  have fits : written.depth ≤ 126 := by decide
  have given : WrittenAs (.element "p" [] .empty) written := by
    have told : Written.Tells Json.asString (.string (some "p")) "p" := ⟨.string "p", rfl, rfl⟩
    exact .tagged (@ContentAs.element [("tag", .string (some "p"))] _ _ (.cons (.tag rfl (fun _ => rfl) told) (.nil _)) rfl)
  have read := spells.parse_of_writtenAs (Nat.le_trans fits (by decide)) given
  obtain ⟨agree, both⟩ := parse_enveloped spells
  obtain ⟨template, loaded⟩ := (both distinct plain fits).1 ⟨_, read⟩
  obtain ⟨code, version⟩ := agree _ _ read loaded
  obtain ⟨version, code⟩ := template
  cases code
  cases version
  exact ⟨spells, distinct, plain, fits, read, loaded⟩

end View

end ViewTree
