import ViewTree.Entries

namespace ViewTree.CommandLine

inductive FileError where
  | notFound
  | isDirectory
  | notDirectory
  | notText
  | other (message : String)
deriving DecidableEq

def FileError.message : FileError → String
  | .notFound => "No such file or directory (os error 2)"
  | .isDirectory => "Is a directory (os error 21)"
  | .notDirectory => "Not a directory (os error 20)"
  | .notText => "stream did not contain valid UTF-8"
  | .other message => message

abbrev Files := String → Except FileError String

def decode (content : ByteArray) : Except FileError String :=
  match String.fromUTF8? content with
  | some text => .ok text
  | none => .error .notText

inductive Access where
  | read
  | write (content : ByteArray)

/-- Files with their bytes, and the paths to them. What a path leads to, or why it cannot be opened, may
depend on all the files there are and on what is to be written. -/
structure Store (File : Type) where
  content : File → Option ByteArray
  paths : (File → Option ByteArray) → Access → String → Except FileError File

namespace Store

variable {File : Type}

def find (store : Store File) (access : Access) (path : String) : Except FileError File :=
  store.paths store.content access path

def read (store : Store File) : Files := fun path => do
  match store.content (← store.find .read path) with
  | some content => decode content
  | none => .error .notFound

def put [DecidableEq File] (store : Store File) (file : File) (content : ByteArray) : Store File :=
  { store with content := fun other => if other = file then some content else store.content other }

/-- A file is written whole or not at all. -/
def write [DecidableEq File] (store : Store File) (path text : String) : Except FileError (Store File) := do
  .ok (store.put (← store.find (.write text.toUTF8) path) text.toUTF8)

end Store

end ViewTree.CommandLine
