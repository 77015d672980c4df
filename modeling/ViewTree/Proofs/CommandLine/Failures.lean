import ViewTree.Proofs.CommandLine.Delivery
import ViewTree.Proofs.Markup.Refusal
import ViewTree.Proofs.Rendering.Names

namespace ViewTree.CommandLine

section Making

variable {files : Files} {options : RenderOptions} {view : View} {failure : Failure}

/-- Why a page is not made of a view that was loaded. -/
inductive Hinders (files : Files) (view : View) (data : Option String) (format : String) : Failure → Prop
  | unknownFormat (unknown : Format.ofName? format = none) : Hinders files view data format (.unknownFormat format)
  | unreadableData {path : String} {error : FileError} (given : data = some path)
    (unread : files path = .error error) : Hinders files view data format (.unreadableData path error)
  | malformedData {path text : String} {error : Json.Error} (given : data = some path)
    (found : files path = .ok text) (malformed : Data.parse text = .error error) :
    Hinders files view data format (.load (.malformed error))
  | unrendered {context : Data} {error : RenderError} (given : Finds files data context)
    (failed : view.render context = .error error) : Hinders files view data format (.render error)
  | unwritten {context : Data} {node : Node} {error : RenderError} (markup : Format.ofName? format = some .markup)
    (given : Finds files data context) (rendered : view.render context = .ok node)
    (refused : node.markup = .error error) : Hinders files view data format (.render error)

theorem loadData_hinders {data : Option String} (format : String)
    (failed : loadData files data = .error failure) : Hinders files view data format failure := by
  cases data with
  | none => cases failed
  | some path =>
    simp only [loadData, Data.load, bind_eq_error, mapError_eq_error, mapError_eq_ok] at failed
    rcases failed with ⟨error, unread, rfl⟩ | ⟨text, found, _, ⟨error, malformed, rfl⟩, rfl⟩
    · exact .unreadableData rfl unread
    · exact .malformedData rfl found malformed

theorem page_of_unloaded (known : (Format.ofName? options.format).isSome)
    (failed : (loadView files options.template options.raw).outcome = .error failure) :
    (page files options).outcome = .error failure := by
  obtain ⟨format, chosen⟩ := Option.isSome_iff_exists.1 known
  simp only [page, chosen, Logged.outcome_do, failed]
  rfl

/-- A page is made of a view that was loaded by loading the data, rendering and writing, in this order. -/
theorem page_of_loaded {format : Format} (chosen : Format.ofName? options.format = some format)
    (loaded : Loads files options.template options.raw view) :
    (page files options).outcome = (do
      let context ← loadData files options.data
      let node ← (view.render context).mapError .render
      writeNode format node) := by
  simp only [page, chosen, Logged.outcome_do, loadView_eq_ok.2 loaded, Logged.outcome_ofExcept]
  rfl

theorem hinders_of_page (loaded : Loads files options.template options.raw view)
    (failed : (page files options).outcome = .error failure) :
    Hinders files view options.data options.format failure := by
  cases chosen : Format.ofName? options.format with
  | none =>
    simp only [page, chosen] at failed
    cases failed
    exact .unknownFormat chosen
  | some format =>
    simp only [page_of_loaded chosen loaded, bind_eq_error, mapError_eq_error, mapError_eq_ok,
      loadData_eq_ok] at failed
    rcases failed with unloaded | ⟨context, given, ⟨error, failed, rfl⟩ | ⟨node, rendered, unwritten⟩⟩
    · exact loadData_hinders _ unloaded
    · exact .unrendered given failed
    · cases format with
      | tree => cases unwritten
      | markup =>
        obtain ⟨error, refused, rfl⟩ := mapError_eq_error.1 unwritten
        exact .unwritten chosen given rendered refused

theorem page_of_tree {template : String} {data out : Option String} {format format' : String} {raw : Bool}
    (tree : Format.ofName? format = some .tree) (markup : Format.ofName? format' = some .markup)
    (failed : (page files ⟨template, data, format, out, raw, false⟩).outcome = .error failure) :
    (page files ⟨template, data, format', out, raw, false⟩).outcome = .error failure := by
  cases loaded : (loadView files template raw).outcome with
  | error unloaded =>
    have known : (Format.ofName? format).isSome := by rw [tree]; rfl
    have known' : (Format.ofName? format').isSome := by rw [markup]; rfl
    have first : (page files ⟨template, data, format, out, raw, false⟩).outcome = .error unloaded :=
      page_of_unloaded known loaded
    cases first.symm.trans failed
    exact page_of_unloaded known' loaded
  | ok view =>
    rw [loadView_eq_ok] at loaded
    rw [page_of_loaded tree loaded] at failed
    rw [page_of_loaded markup loaded]
    simp only [bind_eq_error] at failed ⊢
    rcases failed with unloaded | ⟨context, given, unrendered | ⟨_, _, unwritten⟩⟩
    · exact .inl unloaded
    · exact .inr ⟨context, given, .inl unrendered⟩
    · cases unwritten

theorem refused_of_page {context : Data} {node : Node} (failed : (page files options).outcome = .error failure)
    (markup : Format.ofName? options.format = some .markup)
    (loaded : Loads files options.template options.raw view) (given : Finds files options.data context)
    (rendered : view.render context = .ok node) : ∃ error, node.markup = .error error ∧ .render error = failure := by
  rw [page_of_loaded markup loaded, loadData_eq_ok.2 given] at failed
  change ((view.render context).mapError .render >>= writeNode .markup) = .error failure at failed
  rw [rendered] at failed
  exact mapError_eq_error.1 failed

end Making

def failureNotice (task reason : String) : Notice := .text ("[vc] " ++ task ++ " failed: " ++ reason)

/-- The report is that a task failed, and why: nothing is printed, and nothing but records is told before it. -/
structure Report.Fails (report : Report) (task reason : String) : Prop where
  exit : report.exit = 1
  silent : report.output = ""
  told : ∃ records : List Record, report.notices = records.map .record ++ [failureNotice task reason]

theorem shownRecords_eq (verbose : Bool) (log : List Record) :
    ∃ records : List Record, shownRecords verbose log = records.map .record := by
  cases verbose with
  | false => exact ⟨[], rfl⟩
  | true => exact ⟨_, rfl⟩

theorem failed_fails (verbose : Bool) (log : List Record) (task reason : String) :
    (failed (shownRecords verbose log) task reason).Fails task reason := by
  obtain ⟨records, shown⟩ := shownRecords_eq verbose log
  refine ⟨rfl, rfl, records, ?_⟩
  rw [failed, shown]
  rfl

theorem Report.Fails.unique {report : Report} {task reason reason' : String} (fails : report.Fails task reason)
    (fails' : report.Fails task reason') : reason = reason' := by
  obtain ⟨-, -, records, told⟩ := fails
  obtain ⟨-, -, records', told'⟩ := fails'
  have last := congrArg List.getLast? (told.symm.trans told')
  rw [List.getLast?_concat, List.getLast?_concat] at last
  simpa [failureNotice] using last

theorem Report.Fails.not_written {report : Report} {reason reason' : String} (fails : report.Fails "Write" reason) :
    ¬report.Fails "Render" reason' := by
  rintro ⟨-, -, records', told'⟩
  obtain ⟨-, -, records, told⟩ := fails
  have last := congrArg List.getLast? (told.symm.trans told')
  rw [List.getLast?_concat, List.getLast?_concat] at last
  simp [failureNotice, ← String.toList_inj] at last

variable {File : Type} [DecidableEq File]

/-- The report is that of a check of the template. -/
inductive Checks (store : Store File) (template : String) (raw : Bool) : Report → Prop
  | intro {arguments : List String} {verbose : Bool}
    (asked : Request.ofArguments arguments = some (.perform verbose (.check ⟨template, raw⟩))) :
    Checks store template raw (store.run arguments).1

/-- The report is that of a page of the template, which goes to a file if one is named. -/
inductive Renders (store : Store File) (template : String) (data : Option String) (format : String)
    (out : Option String) (raw : Bool) : Report → Prop
  | intro {arguments : List String} {verbose quiet : Bool}
    (asked : Request.ofArguments arguments = some (.perform verbose (.render ⟨template, data, format, out, raw, quiet⟩))) :
    Renders store template data format out raw (store.run arguments).1

/-- The page was made, and the file it should go to cannot be written. -/
def Refused (store : Store File) (out : Option String) (report : Report) : Prop :=
  ∃ path text error, out = some path ∧ store.write path text = .error error ∧ report.Fails "Write" error.message

/-- How a check ends: by what loading the view comes to. -/
inductive CheckEnds (loaded : Except Failure View) (report : Report) : Prop
  | failed {failure : Failure} (unloaded : loaded = .error failure) (told : report.Fails "Check" failure.message)
  | done {view : View} (loaded : loaded = .ok view) (exit : report.exit = 0)

/-- How rendering ends: by what making the page comes to, and by whether the file can be written. -/
inductive RenderEnds (store : Store File) (made : Except Failure String) (out : Option String)
    (report : Report) : Prop
  | failed {failure : Failure} (unmade : made = .error failure) (told : report.Fails "Render" failure.message)
  | unwritten {text : String} (made : made = .ok text) (refused : Refused store out report)
  | done {text : String} (made : made = .ok text) (exit : report.exit = 0)

section Running

variable {store : Store File} {template format : String} {data out : Option String} {raw : Bool}
  {report : Report}

theorem Checks.ends (checks : Checks store template raw report) :
    CheckEnds (loadView store.read template raw).outcome report := by
  obtain @⟨arguments, verbose, asked⟩ := checks
  simp only [Store.run, runOn_eq, answer, asked, deliver, check]
  cases loaded : (loadView store.read template raw).outcome with
  | error failure => exact .failed rfl (failed_fails _ _ _ _)
  | ok view => exact .done rfl rfl

theorem Renders.ends (renders : Renders store template data format out raw report) :
    RenderEnds store (page store.read ⟨template, data, format, none, raw, false⟩).outcome out report := by
  obtain @⟨arguments, verbose, quiet, asked⟩ := renders
  rw [← page_switches store.read template data format out raw quiet]
  simp only [Store.run, runOn_eq, answer, asked, deliver, render]
  cases made : (page store.read ⟨template, data, format, out, raw, quiet⟩).outcome with
  | error failure => exact .failed rfl (failed_fails _ _ _ _)
  | ok text =>
    cases out with
    | none => exact .done rfl rfl
    | some path =>
      dsimp only
      cases written : store.write path text with
      | error error => exact .unwritten rfl ⟨path, text, error, rfl, written, failed_fails _ _ _ _⟩
      | ok later => exact .done rfl rfl

theorem Checks.fails_iff (checks : Checks store template raw report) {reason : String} :
    report.Fails "Check" reason ↔
      ∃ failure, (loadView store.read template raw).outcome = .error failure ∧ failure.message = reason := by
  cases checks.ends with
  | failed unloaded told =>
    constructor
    · intro fails
      exact ⟨_, unloaded, told.unique fails⟩
    · rintro ⟨failure, other, rfl⟩
      cases unloaded.symm.trans other
      exact told
  | done loaded exit =>
    constructor
    · intro fails
      cases exit.symm.trans fails.exit
    · rintro ⟨failure, unloaded, -⟩
      cases loaded.symm.trans unloaded

theorem Renders.fails_iff (renders : Renders store template data format out raw report) {reason : String} :
    report.Fails "Render" reason ↔
      ∃ failure, (page store.read ⟨template, data, format, none, raw, false⟩).outcome = .error failure ∧
        failure.message = reason := by
  cases renders.ends with
  | failed unmade told =>
    constructor
    · intro fails
      exact ⟨_, unmade, told.unique fails⟩
    · rintro ⟨failure, other, rfl⟩
      cases unmade.symm.trans other
      exact told
  | unwritten made refused =>
    obtain ⟨_, _, _, _, _, told⟩ := refused
    constructor
    · intro fails
      exact absurd fails told.not_written
    · rintro ⟨failure, unmade, -⟩
      cases made.symm.trans unmade
  | done made exit =>
    constructor
    · intro fails
      cases exit.symm.trans fails.exit
    · rintro ⟨failure, unmade, -⟩
      cases made.symm.trans unmade

theorem markup_refused {view : View} {context : Data} {node : Node} {error : RenderError}
    (rendered : view.render context = .ok node) (refused : node.markup = .error error) :
    ∃ name ∈ view.names, Markup.Illegal name ∧ error = .illegalName name := by
  obtain ⟨before, name, after, met, -, illegal, same⟩ := Markup.write_eq_error.1 refused
  refine ⟨name, ?_, illegal, same⟩
  have member : name ∈ "data-index" :: Markup.names node := by
    change "data-index" :: Markup.names node = before ++ name :: after at met
    rw [met]
    exact List.mem_append_right before List.mem_cons_self
  have own : ∀ name ∈ "data-index" :: View.listNames, ¬Markup.Illegal name := by decide
  rcases List.mem_cons.1 member with rfl | member
  · exact absurd illegal (own _ List.mem_cons_self)
  · rcases List.mem_append.1 (View.render_names view rendered member) with added | named
    · exact absurd illegal (own _ (List.mem_cons_of_mem _ added))
    · exact named

end Running

/-- How the runs on one template fail together. -/
structure FailsInChain (store : Store File) (template : String) (raw : Bool) : Prop where
  check_told {report : Report} : Checks store template raw report →
    report.exit = 0 ∨ ∃ reason, report.Fails "Check" reason
  render_told {data out : Option String} {format : String} {report : Report} :
    Renders store template data format out raw report →
    report.exit = 0 ∨ (∃ reason, report.Fails "Render" reason) ∨ Refused store out report
  /-- The reason for which a check fails is that of every page, whatever the other files are. -/
  of_check {checked report : Report} {reason : String} {other : Store File} {data out : Option String}
    {format : String} : Checks store template raw checked → checked.Fails "Check" reason →
    other.read template = store.read template → (Format.ofName? format).isSome →
    Renders other template data format out raw report → report.Fails "Render" reason
  of_tree {tree markup : Report} {reason : String} {data out out' : Option String} {format format' : String} :
    Format.ofName? format = some .tree → Renders store template data format out raw tree →
    Format.ofName? format' = some .markup → Renders store template data format' out' raw markup →
    tree.Fails "Render" reason → markup.Fails "Render" reason
  /-- Where there is a tree, only a name of the template can be in the way of its markup. -/
  of_name {tree markup : Report} {data out out' : Option String} {format format' : String} :
    Format.ofName? format = some .tree → Renders store template data format out raw tree →
    Format.ofName? format' = some .markup → Renders store template data format' out' raw markup →
    tree.exit = 0 → markup.exit ≠ 0 →
    (∃ view, Loads store.read template raw view ∧ ∃ name ∈ view.names, Markup.Illegal name ∧
      markup.Fails "Render" (RenderError.illegalName name).message) ∨ Refused store out' markup
  /-- Once a check succeeds, a page is hindered by something else than the template. -/
  of_loaded {checked : Report} : Checks store template raw checked → checked.exit = 0 →
    ∃ view, Loads store.read template raw view ∧
      ∀ {other : Store File} {data out : Option String} {format reason : String} {report : Report},
        other.read template = store.read template → Renders other template data format out raw report →
        report.Fails "Render" reason →
        ∃ failure, Hinders other.read view data format failure ∧ reason = failure.message

theorem fails_in_chain (store : Store File) (template : String) (raw : Bool) :
    FailsInChain store template raw where
  check_told checks := by
    cases checks.ends with
    | failed _ told => exact .inr ⟨_, told⟩
    | done _ exit => exact .inl exit
  render_told renders := by
    cases renders.ends with
    | failed _ told => exact .inr (.inl ⟨_, told⟩)
    | unwritten _ refused => exact .inr (.inr refused)
    | done _ exit => exact .inl exit
  of_check checks fails same known renders := by
    obtain ⟨failure, unloaded, rfl⟩ := checks.fails_iff.1 fails
    rw [← loadView_congr same] at unloaded
    exact renders.fails_iff.2 ⟨failure, page_of_unloaded known unloaded, rfl⟩
  of_tree chosen tree chosen' markup fails := by
    obtain ⟨failure, unmade, rfl⟩ := tree.fails_iff.1 fails
    exact markup.fails_iff.2 ⟨failure, page_of_tree chosen chosen' unmade, rfl⟩
  of_name chosen tree chosen' markup succeeds fails := by
    cases tree.ends with
    | failed _ told => cases succeeds.symm.trans told.exit
    | unwritten _ refused =>
      obtain ⟨_, _, _, _, _, told⟩ := refused
      cases succeeds.symm.trans told.exit
    | done made =>
      obtain ⟨_, loaded, given, rendered, -⟩ := page_eq_ok.1 made
      cases markup.ends with
      | done _ exit => exact absurd exit fails
      | unwritten _ refused => exact .inr refused
      | failed unmade told =>
        obtain ⟨error, refused, rfl⟩ := refused_of_page unmade chosen' loaded given rendered
        obtain ⟨name, member, illegal, rfl⟩ := markup_refused rendered refused
        exact .inl ⟨_, loaded, name, member, illegal, told⟩
  of_loaded checks succeeds := by
    cases checks.ends with
    | failed _ told => cases succeeds.symm.trans told.exit
    | done loaded =>
      refine ⟨_, loadView_eq_ok.1 loaded, fun same renders fails => ?_⟩
      obtain ⟨failure, unmade, rfl⟩ := renders.fails_iff.1 fails
      rw [← loadView_congr same] at loaded
      exact ⟨failure, hinders_of_page (loadView_eq_ok.1 loaded) unmade, rfl⟩

/-- A view with a tag that cannot be written, and a file that holds no text. -/
theorem fails_in_chain_tag :
    let view := "\x7b\"html_element\":\x7b\"tag\":\"p q\"\x7d\x7d"
    let content (path : String) : Option ByteArray :=
      if path = "views/broken.json" then some ⟨#[255]⟩
      else if path = "views/view.json" then some view.toUTF8
      else none
    let store : Store String := ⟨content, fun _ _ path => .ok path⟩
    let report (arguments : List String) := (store.run arguments).1
    let checked := report ["check", "views/broken.json", "--raw"]
    let page := report ["render", "views/broken.json", "--raw", "--data=missing.json"]
    let tree := report ["render", "views/view.json", "--raw", "--format=tree"]
    let markup := report ["render", "views/view.json", "--raw"]
    let reason := "cannot read template `views/broken.json`: stream did not contain valid UTF-8"
    checked.Fails "Check" reason ∧ page.Fails "Render" reason ∧ tree.exit = 0 ∧ markup.exit ≠ 0 ∧
      ∃ view name, Loads store.read "views/view.json" true view ∧ name ∈ view.names ∧ Markup.Illegal name ∧
        markup.Fails "Render" (RenderError.illegalName name).message := by
  intro view content store report checked page tree markup reason
  have checks : Checks store "views/broken.json" true checked :=
    .intro (by decide +kernel : Request.ofArguments ["check", "views/broken.json", "--raw"] =
      some (.perform false (.check ⟨"views/broken.json", true⟩)))
  have renders : Renders store "views/broken.json" (some "missing.json") "html" none true page :=
    .intro (by decide +kernel : Request.ofArguments ["render", "views/broken.json", "--raw", "--data=missing.json"] =
      some (.perform false (.render ⟨"views/broken.json", some "missing.json", "html", none, true, false⟩)))
  have asTree : Renders store "views/view.json" none "tree" none true tree :=
    .intro (by decide +kernel : Request.ofArguments ["render", "views/view.json", "--raw", "--format=tree"] =
      some (.perform false (.render ⟨"views/view.json", none, "tree", none, true, false⟩)))
  have asMarkup : Renders store "views/view.json" none "html" none true markup :=
    .intro (by decide +kernel : Request.ofArguments ["render", "views/view.json", "--raw"] =
      some (.perform false (.render ⟨"views/view.json", none, "html", none, true, false⟩)))
  have refused : checked.Fails "Check" reason := ⟨by decide +kernel, by decide +kernel, [], by decide +kernel⟩
  have succeeds : tree.exit = 0 := by decide +kernel
  have fails : markup.exit ≠ 0 := by decide +kernel
  have broken := fails_in_chain store "views/broken.json" true
  have named := fails_in_chain store "views/view.json" true
  have told := broken.of_check checks refused rfl (by decide) renders
  rcases named.of_name (by decide) asTree (by decide) asMarkup succeeds fails with
    ⟨view, loaded, name, member, illegal, unwritten⟩ | ⟨_, _, _, toFile, -⟩
  · exact ⟨refused, told, succeeds, fails, view, name, loaded, member, illegal, unwritten⟩
  · cases toFile

end ViewTree.CommandLine
