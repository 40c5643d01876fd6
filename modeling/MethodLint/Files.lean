import MethodLint.FilePath
import MethodLint.Text.Blank
import MethodLint.Text.Quoted
import MethodLint.Text.Utf8

/-!
The files that a run sees: directories with named entries below one top directory, and the directory
where the run stands. The entries of a directory have no order of their own. A path is followed part
by part; a part that leads upwards leads to the directory that was just left, and nothing can be
below a file. A file that is read as text has line feeds at the ends of its lines, whatever stood
there.
-/
namespace MethodLint

/-- A file or a directory. -/
inductive FileEntry
  | file (bytes : List UInt8)
  | directory (entries : List (String × FileEntry))
  deriving Inhabited

/-- All files, and the path of the directory where the run stands. -/
structure Files where
  top : FileEntry
  here : FilePath

/-- Why there is nothing at a path. -/
inductive Absence
  | missing
  | throughFile
  deriving DecidableEq, Repr

namespace FileEntry

/-- The entries of a directory; a file has none. -/
def entries : FileEntry → List (String × FileEntry)
  | .file _ => []
  | .directory entries => entries

/-- Entries with one of a name, in the place of the one that had it. -/
def put (name : String) (entry : FileEntry) : List (String × FileEntry) → List (String × FileEntry)
  | [] => [(name, entry)]
  | (n, e) :: rest => if n = name then (n, entry) :: rest else (n, e) :: put name entry rest

/-- An entry with another one below it, at a path of names. Directories on the way are added, and an
empty directory takes nothing away from one that is there. -/
def insert (new : FileEntry) : List String → FileEntry → FileEntry
  | [], old =>
    match new, old with
    | .directory [], .directory entries => .directory entries
    | new, _ => new
  | name :: rest, old =>
    let inner := (old.entries.lookup name).getD (.directory [])
    .directory (put name (insert new rest inner) old.entries)

/-- Follows the parts of a path from an entry; the directories on the way to it are given, the
nearest first. -/
def follow (outer : List FileEntry) (entry : FileEntry) : List String → Except Absence FileEntry
  | [] => .ok entry
  | part :: parts =>
    match entry with
    | .file _ => .error .throughFile
    | .directory entries =>
      if part = ".." then
        match outer with
        | [] => follow [] entry parts
        | parent :: outer => follow outer parent parts
      else match entries.lookup part with
        | none => .error .missing
        | some inner => follow (entry :: outer) inner parts

end FileEntry

namespace Files

/-- What a path leads to. -/
def find (files : Files) (p : FilePath) : Except Absence FileEntry :=
  files.top.follow [] (files.here.join p).parts

/-- Whether a path leads to anything. -/
def isPresent (files : Files) (p : FilePath) : Bool := (files.find p).isOk

/-- Whether a path leads to a file. -/
def isFile (files : Files) (p : FilePath) : Bool :=
  match files.find p with
  | .ok (.file _) => true
  | _ => false

/-- The bytes of the file at a path. -/
def bytes (files : Files) (p : FilePath) : Except Fault (List UInt8) :=
  match files.find p with
  | .ok (.file bytes) => .ok bytes
  | .ok (.directory _) => .error (.fileIsDirectory (Text.quoted p.text))
  | .error .missing => .error (.fileMissing (Text.quoted p.text))
  | .error .throughFile => .error (.pathThroughFile (Text.quoted p.text))

/-- The text of the file at a path. -/
def text (files : Files) (p : FilePath) : Except Fault String := do
  return Text.unifyNewlines (← Text.decode (← files.bytes p))

/-- The text of the file at a path, decoded part by part. -/
def textInParts (files : Files) (p : FilePath) : Except Fault String := do
  return Text.unifyNewlines (← Text.decodeInParts (← files.bytes p))

end Files

end MethodLint
