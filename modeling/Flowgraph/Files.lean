import Flowgraph.Json.Codec
import Flowgraph.Text.Split

/-! Files as a command sees them, and what is read from them. -/

namespace Flowgraph

open Json

/-- Why a file cannot be read or written. -/
inductive FileFault where
  | notFound
  | notDirectory
  | isDirectory
  | nameTooLong
  | notText
  deriving DecidableEq, Repr

def FileFault.message : FileFault → String
  | .notFound => "No such file or directory (os error 2)"
  | .notDirectory => "Not a directory (os error 20)"
  | .isDirectory => "Is a directory (os error 21)"
  | .nameTooLong => "File name too long (os error 36)"
  | .notText => "stream did not contain valid UTF-8"

/-- What a path is followed for. -/
inductive Purpose where
  | reading
  | writing
  deriving DecidableEq, Repr

/-- Files by name, and the name of the file that a path leads to among them. -/
structure Files where
  contents : Table ByteArray
  locate : Purpose → Table ByteArray → String → Except FileFault String

namespace Files

/-- The bytes of a file. -/
def read (f : Files) (path : String) : Except FileFault ByteArray := do
  let name ← f.locate .reading f.contents path
  match Table.entry? f.contents name with
  | some bytes => pure bytes
  | none => throw .notFound

/-- The text of a file. -/
def readText (f : Files) (path : String) : Except FileFault String := do
  let bytes ← f.read path
  match String.fromUTF8? bytes with
  | some text => pure text
  | none => throw .notText

/-- The files after one was written. -/
def writeText (f : Files) (path text : String) : Except FileFault Files := do
  let name ← f.locate .writing f.contents path
  pure { f with contents := Table.set name text.toUTF8 f.contents }

/-! ### A directory of files -/

/-- The most bytes that a path may have. -/
def maxPathLength : Nat := 4095

/-- The most bytes that a name in a directory may have. -/
def maxNameLength : Nat := 255

/-- The names on a path, with those that stay or go up a directory. -/
def pathParts (path : String) : List String := (Text.split '/' path).filter (· ≠ "")

/-- Whether a path ends in a slash, which asks for a directory. -/
def endsInSlash (path : String) : Bool := path.toList.getLast? == some '/'

/-- The directory a path starts from: the top one, or the working directory, whose name is empty. -/
def startOf (path : String) : String := if path.toList.head? = some '/' then "/" else ""

/-- Where a path leads to. -/
inductive Target where
  | directory
  | entry (directory name : String)

/-- Follows the parts of a path from a directory `here`. The directories above hold no other
    directories to go down into, and neither does the working directory, so all the parts before the
    last have to stay or go up. -/
def follow (contents : Table ByteArray) (here : String) : List String → Except FileFault Target
  | [] => .ok .directory
  | part :: rest =>
    if part = "." then follow contents here rest
    else if part = ".." then follow contents (if here = "/" then here else here ++ "../") rest
    else if rest.isEmpty then .ok (.entry here part)
    else if maxNameLength < part.utf8ByteSize then .error .nameTooLong
    else if (Table.entry? contents (here ++ part)).isSome then .error .notDirectory
    else .error .notFound

/-- The file that a path leads to in a directory that holds files and no other directories. A path
    that ends in a slash leads to no file: who writes is told so at once, who reads after the file was
    looked up. -/
def locateFlat (purpose : Purpose) (contents : Table ByteArray) (path : String) :
    Except FileFault String :=
  if path = "" then .error .notFound
  else if maxPathLength < path.utf8ByteSize then .error .nameTooLong
  else do
    match ← follow contents (startOf path) (pathParts path) with
    | .directory => throw .isDirectory
    | .entry here name =>
      if endsInSlash path ∧ purpose = .writing then throw .isDirectory
      if maxNameLength < name.utf8ByteSize then throw .nameTooLong
      if endsInSlash path ∧ (Table.entry? contents (here ++ name)).isSome then throw .notDirectory
      pure (here ++ name)

/-- A directory that holds files and no other directories. -/
def flat (contents : Table ByteArray) : Files := ⟨contents, locateFlat⟩

end Files

/-- Why there is nothing to be had from a file. -/
inductive LoadError where
  | unreadable (path : String) (fault : FileFault)
  | malformed (path : String) (cause : DecodeError)
  deriving DecidableEq

def LoadError.message : LoadError → String
  | .unreadable path fault => "Could not read '" ++ path ++ "': " ++ fault.message
  | .malformed path cause => "Failed to parse JSON in '" ++ path ++ "': " ++ cause.message

/-- Reads a datum from a JSON file. -/
def Files.load (f : Files) (d : Decoder α) (path : String) : Except LoadError α := do
  let text ← (f.readText path).mapError (.unreadable path)
  (Decoder.ofText d text).mapError (.malformed path)

end Flowgraph
