import ViewTree.CommandLine.Arguments
import ViewTree.CommandLine.Directory
import ViewTree.Data.Stored
import ViewTree.Markup.Writer
import ViewTree.Node.Encoding
import ViewTree.Rendering.Page

namespace ViewTree.CommandLine

open Text (inBackquotes)

inductive Format where
  | markup
  | tree
deriving DecidableEq

/-- Formats are named in letters of either case. -/
def Format.ofName? (name : String) : Option Format :=
  let lower := name.toList.map Char.toLower
  if lower = "html".toList then some .markup
  else if lower = "tree".toList then some .tree
  else none

inductive Failure where
  | unknownFormat (name : String)
  | unreadableTemplate (path : String) (error : FileError)
  | unreadableData (path : String) (error : FileError)
  | load (error : LoadError)
  | render (error : RenderError)
deriving DecidableEq

/-- A malformed text is named twice, the second time as the cause of the first. -/
def Failure.message : Failure → String
  | .unknownFormat name => "viewcode does not support " ++ inBackquotes name ++ " output."
  | .unreadableTemplate path error =>
    "cannot read template " ++ inBackquotes path ++ ": " ++ error.message
  | .unreadableData path error => "cannot read data " ++ inBackquotes path ++ ": " ++ error.message
  | .load (.malformed error) => (LoadError.malformed error).message ++ ": " ++ error.message
  | .load error => error.message
  | .render error => error.message

/-- Loads the view of a stored template, or a view that stands alone. -/
def loadView (files : Files) (path : String) (raw : Bool) : Logged Failure View := do
  let text ← Logged.ofExcept ((files path).mapError (.unreadableTemplate path))
  if raw then (View.load text).mapError .load
  else do
    let template ← (Template.load text).mapError .load
    pure template.code

def loadData (files : Files) : Option String → Except Failure Data
  | none => .ok .none
  | some path => do
    let text ← (files path).mapError (.unreadableData path)
    (Data.load text).mapError .load

def writeNode (format : Format) (node : Node) : Except Failure String :=
  match format with
  | .markup => node.markup.mapError .render
  | .tree => .ok node.toJson.indentedText

def page (files : Files) (options : RenderOptions) : Logged Failure String := do
  let some format := Format.ofName? options.format
    | Logged.ofExcept (.error (.unknownFormat options.format))
  let view ← loadView files options.template options.raw
  let data ← Logged.ofExcept (loadData files options.data)
  Logged.record (.rendering view.kind data.kind)
  let node ← (view.trace data).mapError .render
  Logged.ofExcept (writeNode format node)

/-- What the command writes to the standard error output. The time that rendering took is known only when
it is over. -/
inductive Notice where
  | record (record : Record)
  | text (text : String)
  | renderTime
deriving DecidableEq

structure Report where
  exit : Nat
  output : String
  notices : List Notice
deriving DecidableEq

/-- The records that are shown: none, or, when asked for, all but the finest. -/
def shownRecords (verbose : Bool) (log : List Record) : List Notice :=
  if verbose then (log.filter fun record => record.level ≠ .trace).map .record else []

def failed (records : List Notice) (task message : String) : Report :=
  ⟨1, "", records ++ [.text ("[vc] " ++ task ++ " failed: " ++ message)]⟩

/-- The report on a page that is written, with the notices that were asked for. -/
def rendered (records : List Notice) (options : RenderOptions) (output : String) : Report :=
  let place := match options.out with
    | some path => [Notice.text ("📕 Output File:  " ++ path)]
    | none => []
  ⟨0, output, records ++ if options.quiet then [] else place ++ [.renderTime]⟩

def checked (records : List Notice) (view : View) : Report :=
  let holes := Text.decimal view.holes
  let counts := "💎 Root:  " ++ view.kind.name ++ "\n🔰 Holes:  " ++ holes ++ "\n"
  let verdict :=
    if view.isComplete then "template is complete.\n"
    else "template has " ++ holes ++ " unfinished part(s).\n"
  ⟨0, counts ++ verdict, records⟩

def check (files : Files) (verbose : Bool) (options : CheckOptions) : Report :=
  let loaded := loadView files options.template options.raw
  let records := shownRecords verbose loaded.log
  match loaded.outcome with
  | .error failure => failed records "Check" failure.message
  | .ok view => checked records view

/-- What is still to be done when a page is made: nothing, or a file to write, and the report by whether
that succeeds. -/
inductive Delivery where
  | done (report : Report)
  | toFile (path content : String) (report : Except FileError Unit → Report)

def render (files : Files) (verbose : Bool) (options : RenderOptions) : Delivery :=
  let made := page files options
  let records := shownRecords verbose made.log
  match made.outcome with
  | .error failure => .done (failed records "Render" failure.message)
  | .ok text =>
    match options.out with
    | none => .done (rendered records options (text ++ "\n"))
    | some path =>
      .toFile path text fun
        | .error error => failed records "Write" error.message
        | .ok () => rendered records options ""

/-- The text of the help is left out. -/
def deliver (files : Files) : Request → Delivery
  | .version => .done ⟨0, "vc 0.1.0\n", []⟩
  | .help => .done ⟨0, "", []⟩
  | .perform verbose (.check options) => .done (check files verbose options)
  | .perform verbose (.render options) => render files verbose options

def misused : Report := ⟨2, "", []⟩

def answer (files : Files) (arguments : List String) : Delivery :=
  match Request.ofArguments arguments with
  | none => .done misused
  | some request => deliver files request

def Request.sources : Request → List String
  | .perform _ (.check options) => [options.template]
  | .perform _ (.render options) => options.template :: options.data.toList
  | _ => []

def sources (arguments : List String) : List String :=
  ((Request.ofArguments arguments).map Request.sources).getD []

def Delivery.complete [Monad m] (write : String → String → m (Except FileError Unit)) : Delivery → m Report
  | .done report => pure report
  | .toFile path content report => do pure (report (← write path content))

/-- Runs the command where files are read and written in any way. -/
def execute [Monad m] (read : String → m (Except FileError String))
    (write : String → String → m (Except FileError Unit)) (arguments : List String) : m Report := do
  let contents ← (sources arguments).mapM fun path => do
    let content ← read path
    pure (path, content)
  let files : Files := fun path => (Entries.find? path contents).getD (.error .notFound)
  (answer files arguments).complete write

def readState (read : σ → Files) (path : String) : StateM σ (Except FileError String) := fun state =>
  (read state path, state)

def writeState (write : σ → String → String → Except FileError σ) (path content : String) :
    StateM σ (Except FileError Unit) := fun state =>
  match write state path content with
  | .ok later => (.ok (), later)
  | .error error => (.error error, state)

def runOn (read : σ → Files) (write : σ → String → String → Except FileError σ) (start : σ)
    (arguments : List String) : Report × σ :=
  (execute (readState read) (writeState write) arguments).run start

def Store.run [DecidableEq File] (store : Store File) (arguments : List String) : Report × Store File :=
  runOn Store.read Store.write store arguments

def run (directory : Directory) (arguments : List String) : Report × Directory :=
  runOn Directory.read Directory.write directory arguments

end ViewTree.CommandLine
