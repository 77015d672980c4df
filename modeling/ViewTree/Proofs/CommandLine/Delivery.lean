import ViewTree.Proofs.CommandLine.Runs

namespace ViewTree.CommandLine

section Making

variable {files : Files} {path text : String} {raw : Bool} {view : View} {data : Data}

/-- The view that a file holds, in a template or alone. -/
inductive Loads (files : Files) (path : String) : (raw : Bool) → View → Prop
  | stored {text : String} {template : Template} (found : files path = .ok text)
      (read : Template.parse text = .ok template) : Loads files path false template.code
  | alone {text : String} {view : View} (found : files path = .ok text) (read : View.parse text = .ok view) :
      Loads files path true view

/-- The data that a file holds; without a file there is none. -/
inductive Finds (files : Files) : Option String → Data → Prop
  | absent : Finds files none .none
  | stored {path text : String} {data : Data} (found : files path = .ok text)
      (read : Data.parse text = .ok data) : Finds files (some path) data

/-- The text of a node in a format. -/
inductive Prints (node : Node) : Format → String → Prop
  | markup {text : String} (written : node.markup = .ok text) : Prints node .markup text
  | tree : Prints node .tree node.toJson.indentedText

/-- The text that a template makes of data. -/
inductive Makes (files : Files) (template : String) (data : Option String) (format : String) (raw : Bool)
    (text : String) : Prop
  | intro {chosen : Format} {view : View} {context : Data} {node : Node}
      (known : Format.ofName? format = some chosen) (loaded : Loads files template raw view)
      (given : Finds files data context) (rendered : view.render context = .ok node)
      (printed : Prints node chosen text)

theorem loadView_eq_ok : (loadView files path raw).outcome = .ok view ↔ Loads files path raw view := by
  rw [loadView, Logged.outcome_do, bind_eq_ok]
  simp only [Logged.outcome_ofExcept, mapError_eq_ok]
  cases raw with
  | false =>
    simp only [Bool.false_eq_true, ↓reduceIte, Logged.outcome_do, Logged.outcome_mapError, bind_eq_ok,
      mapError_eq_ok, Template.outcome_load]
    constructor
    · rintro ⟨text, found, template, read, same⟩
      cases same
      exact .stored found read
    · rintro ⟨found, read⟩
      exact ⟨_, found, _, read, rfl⟩
  | true =>
    simp only [↓reduceIte, Logged.outcome_mapError, mapError_eq_ok, View.outcome_load]
    constructor
    · rintro ⟨text, found, read⟩
      exact .alone found read
    · intro loads
      cases loads with
      | alone found read => exact ⟨_, found, read⟩

theorem loadData_eq_ok {file : Option String} : loadData files file = .ok data ↔ Finds files file data := by
  cases file with
  | none =>
    constructor
    · rintro ⟨⟩
      exact .absent
    · rintro ⟨⟩
      rfl
  | some path =>
    rw [loadData, bind_eq_ok]
    simp only [mapError_eq_ok, Data.load]
    constructor
    · rintro ⟨text, found, read⟩
      exact .stored found read
    · intro finds
      cases finds with
      | stored found read => exact ⟨_, found, read⟩

theorem writeNode_eq_ok {format : Format} {node : Node} :
    writeNode format node = .ok text ↔ Prints node format text := by
  cases format with
  | markup =>
    refine mapError_eq_ok.trans ⟨.markup, fun prints => ?_⟩
    cases prints with
    | markup written => exact written
  | tree =>
    constructor
    · rintro ⟨⟩
      exact .tree
    · rintro ⟨⟩
      rfl

theorem page_eq_ok {options : RenderOptions} : (page files options).outcome = .ok text ↔
    Makes files options.template options.data options.format options.raw text := by
  unfold page
  cases chosen : Format.ofName? options.format with
  | none =>
    constructor
    · intro made
      cases made
    · rintro ⟨known, -⟩
      cases chosen.symm.trans known
  | some format =>
    simp only [Logged.outcome_do, bind_eq_ok, Logged.outcome_ofExcept, Logged.outcome_record]
    constructor
    · rintro ⟨view, loaded, context, given, ⟨⟩, -, node, rendered, printed⟩
      exact .intro chosen (loadView_eq_ok.1 loaded) (loadData_eq_ok.1 given) (mapError_eq_ok.1 rendered)
        (writeNode_eq_ok.1 printed)
    · rintro ⟨known, loaded, given, rendered, printed⟩
      cases chosen.symm.trans known
      exact ⟨_, loadView_eq_ok.2 loaded, _, loadData_eq_ok.2 given, (), trivial, _, mapError_eq_ok.2 rendered,
        writeNode_eq_ok.2 printed⟩

/-- A page is made without a look at where it goes. -/
theorem page_switches (files : Files) (template : String) (data : Option String) (format : String)
    (out : Option String) (raw quiet : Bool) :
    page files ⟨template, data, format, out, raw, quiet⟩ = page files ⟨template, data, format, none, raw, false⟩ := rfl

end Making

variable {File : Type} [DecidableEq File]

/-- What a run leaves behind, by the text that was made, if any, and by where it should go. A run that fails
leaves all files as they were. -/
inductive Leaves (store : Store File) : (made out : Option String) → Report → Store File → Prop
  | unmade {out : Option String} {notices : List Notice} : Leaves store none out ⟨1, "", notices⟩ store
  | printed {text : String} {notices : List Notice} :
      Leaves store (some text) none ⟨0, text ++ "\n", notices⟩ store
  | unwritten {text path : String} {error : FileError} {notices : List Notice}
      (refused : store.write path text = .error error) :
      Leaves store (some text) (some path) ⟨1, "", notices⟩ store
  | written {text path : String} {file : File} {later : Store File} {notices : List Notice}
      (found : store.find (.write text.toUTF8) path = .ok file) (whole : later.content file = some text.toUTF8)
      (kept : ∀ other ≠ file, later.content other = store.content other) (paths : later.paths = store.paths) :
      Leaves store (some text) (some path) ⟨0, "", notices⟩ later

variable {store later : Store File}

theorem Leaves.of_write {text path : String} {notices : List Notice}
    (written : store.write path text = .ok later) :
    Leaves store (some text) (some path) ⟨0, "", notices⟩ later := by
  obtain ⟨file, found, rfl⟩ := Store.write_eq_ok.1 written
  exact .written found (store.content_put_self file text.toUTF8)
    (fun _ differ => store.content_put_other differ text.toUTF8) rfl

theorem Leaves.whole {text path : String} {report : Report}
    (leaves : Leaves store (some text) (some path) report later)
    (writable : (store.write path text).isOk = true) :
    report.exit = 0 ∧ report.output = "" ∧
      ∃ file, store.find (.write text.toUTF8) path = .ok file ∧ later.content file = some text.toUTF8 := by
  cases leaves with
  | unwritten refused =>
    rw [refused] at writable
    cases writable
  | written found whole => exact ⟨rfl, rfl, _, found, whole⟩

theorem leaves_of_asked {arguments : List String} {verbose : Bool} {options : RenderOptions}
    (asked : Request.ofArguments arguments = some (.perform verbose (.render options))) :
    Leaves store (page store.read options).outcome.toOption options.out
      (store.run arguments).1 (store.run arguments).2 := by
  simp only [Store.run, runOn_eq, answer, asked, deliver, render]
  cases (page store.read options).outcome with
  | error failure => exact .unmade
  | ok text =>
    cases options.out with
    | none => exact .printed
    | some path =>
      dsimp only
      cases written : store.write path text with
      | error error => exact .unwritten written
      | ok later => exact .of_write written

/-- A page is delivered whole or not at all, and its text is the same whether the run is verbose or quiet and
wherever the page goes. -/
theorem run_render (store : Store File) (template : String) (data : Option String) (format : String)
    (raw : Bool) : ∃ made : Option String,
      (∀ text, made = some text ↔ Makes store.read template data format raw text) ∧
      ∀ arguments verbose out quiet,
        Request.ofArguments arguments = some (.perform verbose (.render ⟨template, data, format, out, raw, quiet⟩)) →
          Leaves store made out (store.run arguments).1 (store.run arguments).2 := by
  refine ⟨(page store.read ⟨template, data, format, none, raw, false⟩).outcome.toOption, fun text => ?_, ?_⟩
  · exact toOption_eq_some.trans page_eq_ok
  · intro arguments verbose out quiet asked
    rw [← page_switches store.read template data format out raw quiet]
    exact leaves_of_asked asked

/-- A view that stands alone, rendered without data, in place of the page that there was. -/
theorem run_render_paragraph :
    let view := "\x7b\"html_element\":\x7b\"tag\":\"p\",\"inner_text\":\x7b\"constant\":\"hi\"\x7d\x7d\x7d"
    let store := Directory.store ⟨[("page.html", "<p>old</p>"), ("view.json", view)]⟩
    let arguments := ["--verbose", "render", "view.json", "--raw", "--quiet", "--out=page.html"]
    Request.ofArguments arguments =
        some (.perform true (.render ⟨"view.json", none, "html", some "page.html", true, true⟩)) ∧
      (store.run arguments).1.exit = 0 ∧ (store.run arguments).1.output = "" ∧
      (store.run arguments).2.content "page.html" = some "<p>hi</p>".toUTF8 := by
  intro view store arguments
  have asked : Request.ofArguments arguments =
      some (.perform true (.render ⟨"view.json", none, "html", some "page.html", true, true⟩)) := by
    decide +kernel
  have place : store.find .read "view.json" = .ok "view.json" := by
    rw [Directory.find_store]
    decide +kernel
  have found : store.read "view.json" = .ok view := Store.read_eq_ok.2 ⟨"view.json", place, rfl⟩
  have loaded : Loads store.read "view.json" true (.element "p" [] (.constant "hi")) :=
    .alone found (by decide +kernel)
  have makes : Makes store.read "view.json" none "html" true "<p>hi</p>" :=
    .intro (by decide) loaded .absent rfl (.markup (by decide +kernel))
  have leads : store.find (.write "<p>hi</p>".toUTF8) "page.html" = .ok "page.html" := by
    rw [Directory.find_store]
    decide +kernel
  obtain ⟨made, each, leaves⟩ := run_render store "view.json" none "html" true
  have same : made = some "<p>hi</p>" := (each _).2 makes
  have left := same ▸ leaves arguments true (some "page.html") true asked
  have writable : (store.write "page.html" "<p>hi</p>").isOk = true := by
    rw [Store.write_eq_ok.2 ⟨_, leads, rfl⟩]
    rfl
  obtain ⟨exit, output, file, again, whole⟩ := left.whole writable
  cases leads.symm.trans again
  exact ⟨asked, exit, output, whole⟩

end ViewTree.CommandLine
