import MethodLint.Exclusion
import MethodLint.FrontEnd
import MethodLint.Value.Parts

/-!
Which files a scan takes. A directory is entered unless it is excluded; of its files those are taken
that are not excluded and whose language was asked for. The files of a directory come before those of
its subdirectories, both by name, so the order in which a directory lists its entries does not
matter. A file that is named itself is taken whatever it is. Languages may be asked for by any values;
the null value asks for files that no front end reads.
-/
namespace MethodLint

/-- What a scan takes: everything but what is excluded, of some languages. -/
structure Selection where
  exclude : Value
  excludedExtensions : List String
  languages : List Value

/-- What was found at one entry of a directory. -/
structure Found where
  name : String
  isDirectory : Bool
  paths : List FilePath

/-- Files before directories, and both by name. -/
def arrange (found : List Found) : List FilePath :=
  let byName := found.mergeSort fun a b => decide (a.name ≤ b.name)
  (byName.filter (fun f => !f.isDirectory) ++ byName.filter Found.isDirectory).flatMap Found.paths

namespace Selection

/-- Whether the language of a file was asked for. -/
def wantsLanguage (s : Selection) (path : FilePath) : Bool :=
  match FrontEnd.ofPath? path with
  | some frontEnd => s.languages.any (Value.isText frontEnd.language)
  | none => s.languages.any Value.isNull

/-- Whether an entry is excluded, by its path below the root. -/
def excludes (s : Selection) (path : FilePath) : Except Fault Bool := do
  isExcludedBy path (← s.exclude.parts)

/-- Whether a file is taken, by its path below the root. -/
def takes (s : Selection) (path : FilePath) : Except Fault Bool := do
  if ← s.excludes path then return false
  return !s.excludedExtensions.contains path.comparedExtension && s.wantsLanguage path

mutual

/-- What is taken of an entry, by its path below the root. -/
def foundAt (s : Selection) (path : FilePath) : FileEntry → Except Fault (List FilePath)
  | .file _ => do return if ← s.takes path then [path] else []
  | .directory entries => do
    if ← s.excludes path then return []
    return arrange (← foundAmong s path entries)

/-- What is taken of some entries of a directory. -/
def foundAmong (s : Selection) (directory : FilePath) :
    List (String × FileEntry) → Except Fault (List Found)
  | [] => .ok []
  | (name, entry) :: rest => do
    let paths ← foundAt s (directory.child name) entry
    let others ← foundAmong s directory rest
    let isDirectory := match entry with
      | .file _ => false
      | .directory _ => true
    return ⟨name, isDirectory, paths⟩ :: others

end

/-- The paths below a root of what is taken. A root without any entries is an empty one. -/
def below (s : Selection) (root : Except Absence FileEntry) : Except Fault (List FilePath) :=
  match root with
  | .ok (.directory entries) => do return arrange (← foundAmong s ⟨.here, []⟩ entries)
  | _ => .ok []

/-- The paths of what is taken from a root. -/
def paths (s : Selection) (files : Files) (root : FilePath) : Except Fault (List FilePath) :=
  if files.isFile root then .ok [root]
  else do return (← s.below (files.find root)).map root.join

end Selection

end MethodLint
