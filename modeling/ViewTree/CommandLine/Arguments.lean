namespace ViewTree.CommandLine

structure RenderOptions where
  template : String
  data : Option String
  format : String
  out : Option String
  raw : Bool
  quiet : Bool
deriving DecidableEq

structure CheckOptions where
  template : String
  raw : Bool
deriving DecidableEq

inductive Task where
  | render (options : RenderOptions)
  | check (options : CheckOptions)
deriving DecidableEq

inductive Request where
  | version
  | help
  | perform (verbose : Bool) (task : Task)
deriving DecidableEq

/-- Why arguments ask for no task. -/
inductive Stop where
  | misuse
  | help

/-- What a task takes besides a file: options with a value and options without one. -/
structure Accepted where
  valued : List String
  flags : List String

structure Given where
  file : Option String
  values : List (String × String)
  flags : List String

namespace Given

def none : Given := ⟨.none, [], []⟩

def addFile (given : Given) (name : String) : Except Stop Given :=
  if given.file.isNone then .ok { given with file := some name } else .error .misuse

def addValue (given : Given) (option value : String) : Except Stop Given :=
  if given.values.any fun (other, _) => other = option then .error .misuse
  else .ok { given with values := (option, value) :: given.values }

def addFlag (given : Given) (option : String) : Except Stop Given :=
  if option ∈ given.flags then .error .misuse else .ok { given with flags := option :: given.flags }

def value? (given : Given) (option : String) : Option String :=
  (given.values.find? fun (other, _) => other = option).map Prod.snd

def has (given : Given) (option : String) : Bool := option ∈ given.flags

def theFile (given : Given) : Except Stop String :=
  match given.file with
  | some name => .ok name
  | .none => .error .misuse

end Given

/-- Arguments that start with a dash are options, a dash alone excepted. -/
def isOption (argument : String) : Bool :=
  match argument.toList with
  | '-' :: _ :: _ => true
  | _ => false

def splitOption (argument : String) : String × Option String :=
  let name := argument.toList.takeWhile (· ≠ '=')
  match argument.toList.dropWhile (· ≠ '=') with
  | [] => (argument, none)
  | _ :: value => (String.ofList name, some (String.ofList value))

/-- An option of one letter stands behind one dash; the first of several letters is looked at first. -/
def asksFor (long : String) (short : Char) (argument : String) : Bool :=
  argument = long || argument.toList.take 2 = ['-', short]

def asksForHelp : String → Bool := asksFor "--help" 'h'

def asksForVersion : String → Bool := asksFor "--version" 'V'

/-- Takes the arguments after `--`, all of which are files. -/
def files : List String → Given → Except Stop Given
  | [], given => .ok given
  | argument :: arguments, given => do files arguments (← given.addFile argument)

def collect (accepted : Accepted) : List String → Given → Except Stop Given
  | [], given => .ok given
  | argument :: arguments, given => do
    if argument = "--" then files arguments given
    else if !isOption argument then collect accepted arguments (← given.addFile argument)
    else if asksForHelp argument then .error .help
    else
      let (option, joined) := splitOption argument
      if option ∈ accepted.flags then
        if joined.isSome then .error .misuse else collect accepted arguments (← given.addFlag option)
      else if option ∈ accepted.valued then
        match joined, arguments with
        | some value, arguments => collect accepted arguments (← given.addValue option value)
        | none, [] => .error .misuse
        | none, value :: arguments =>
          if isOption value then .error .misuse
          else collect accepted arguments (← given.addValue option value)
      else .error .misuse

def renderArguments (arguments : List String) : Except Stop (Bool × Task) := do
  let accepted : Accepted := ⟨["--data", "--format", "--out"], ["--raw", "--quiet", "--verbose"]⟩
  let given ← collect accepted arguments .none
  .ok (given.has "--verbose", .render {
    template := ← given.theFile
    data := given.value? "--data"
    format := (given.value? "--format").getD "html"
    out := given.value? "--out"
    raw := given.has "--raw"
    quiet := given.has "--quiet" })

def checkArguments (arguments : List String) : Except Stop (Bool × Task) := do
  let given ← collect ⟨[], ["--raw", "--verbose"]⟩ arguments .none
  .ok (given.has "--verbose", .check { template := ← given.theFile, raw := given.has "--raw" })

/-- What is asked for; `verbose` tells whether that was asked for before the task as well. -/
def Request.ofArgumentsAfter (verbose : Bool) : List String → Except Stop Request
  | [] => .error .misuse
  | argument :: arguments =>
    if asksForVersion argument then .ok .version
    else if asksForHelp argument then .error .help
    else if argument = "help" then
      if arguments ∈ [[], ["render"], ["check"], ["help"]] then .error .help else .error .misuse
    else if argument = "--verbose" then
      if verbose then .error .misuse else Request.ofArgumentsAfter true arguments
    else do
      let (more, task) ←
        if argument = "render" then renderArguments arguments
        else if argument = "check" then checkArguments arguments
        else .error .misuse
      .ok (.perform (verbose || more) task)

/-- None for arguments that are missing, unknown, repeated or out of place. -/
def Request.ofArguments (arguments : List String) : Option Request :=
  match Request.ofArgumentsAfter false arguments with
  | .ok request => some request
  | .error .help => some .help
  | .error .misuse => none

end ViewTree.CommandLine
