import ViewTree.CommandLine.Store

namespace ViewTree.CommandLine

/-- The texts of a directory without subdirectories, sorted by name. -/
structure Directory where
  files : List (String × String)

def segments (path : String) : List String := (path.toList.splitOn '/').map String.ofList

def pathParts (path : String) : List String :=
  (segments path).filter fun part => part ≠ "" && part ≠ "."

def Access.writes : Access → Bool
  | .read => false
  | .write _ => true

/-- What a path leads to: a name in the directory, there or not, or no file. A path that ends in a slash has
to lead to a directory, and a file is never made by one. Paths out of the directory lead to nothing. -/
def nameOf (there : String → Bool) (access : Access) (path : String) : Except FileError String :=
  if path = "" then .error .notFound
  else
    match pathParts path with
    | [] => .error .isDirectory
    | [name] =>
      if name = ".." then .error .isDirectory
      else if access.writes && (segments path).getLast? = some "" &&
          ((segments path).filter (· ≠ "")).getLast? = some name then .error .isDirectory
      else if path.startsWith "/" then .error .notFound
      else if (segments path).getLast? = some name then .ok name
      else if there name then .error .notDirectory
      else .error .notFound
    | name :: _ =>
      if there name && !path.startsWith "/" then .error .notDirectory
      else .error .notFound

namespace Directory

def has (directory : Directory) (name : String) : Bool := (Entries.find? name directory.files).isSome

def read (directory : Directory) : Files := fun path => do
  match Entries.find? (← nameOf directory.has .read path) directory.files with
  | some text => .ok text
  | none => .error .notFound

def write (directory : Directory) (path text : String) : Except FileError Directory := do
  .ok ⟨Entries.insert (← nameOf directory.has (.write text.toUTF8) path) text directory.files⟩

def changes (directory later : Directory) : List (String × String) :=
  later.files.filter fun (name, text) => Entries.find? name directory.files ≠ some text

def store (directory : Directory) : Store String where
  content name := (Entries.find? name directory.files).map String.toUTF8
  paths content := nameOf fun name => (content name).isSome

end Directory

end ViewTree.CommandLine
