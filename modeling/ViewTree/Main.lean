import ViewTree.CommandLine.Run

namespace ViewTree.Main

open CommandLine

def fileError : IO.Error → FileError
  | .noFileOrDirectory .. => .notFound
  | .inappropriateType _ 20 _ => .notDirectory
  | .inappropriateType .. => .isDirectory
  | .permissionDenied _ code details => .other (details ++ " (os error " ++ toString code ++ ")")
  | error => .other (toString error)

def attempt (action : IO α) : IO (Except FileError α) := do
  match ← action.toBaseIO with
  | .ok value => pure (.ok value)
  | .error error => pure (.error (fileError error))

def readText (path : String) : IO (Except FileError String) := do
  let content ← attempt (IO.FS.readBinFile path)
  pure (content.bind decode)

def writeText (path content : String) : IO (Except FileError Unit) :=
  attempt (IO.FS.writeFile path content)

def finish (started : Nat) (report : Report) : IO UInt32 := do
  IO.print report.output
  for notice in report.notices do
    match notice with
    | .record record => IO.eprintln ("[" ++ record.level.name ++ "] " ++ record.message)
    | .text text => IO.eprintln text
    | .renderTime => do
      let now ← IO.monoMsNow
      IO.eprintln ("⌛️ Render Time:  " ++ toString (now - started) ++ "ms")
  pure report.exit.toUInt32

end ViewTree.Main

open ViewTree CommandLine Main in
def main (arguments : List String) : IO UInt32 := do
  let started ← IO.monoMsNow
  Main.finish started (← execute Main.readText Main.writeText arguments)
