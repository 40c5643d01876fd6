import MethodLint.CommandLine.Run

/-!
The program. It takes in the files that a command is about, lets the command run over them, and then
prints and writes what the run leaves.
-/
namespace MethodLint

/-- The entry on the disk at a path. A link to a directory is not followed. -/
partial def entryOnDisk (path : String) : IO FileEntry := do
  let place := (← IO.currentDir) / path
  if ← place.isDir then
    let inner ← (← place.readDir).toList.mapM fun e => do
      let below := path ++ "/" ++ e.fileName
      let isLink := (← e.path.symlinkMetadata).type == .symlink
      if isLink && (← e.path.isDir) then return (e.fileName, FileEntry.directory [])
      else return (e.fileName, ← entryOnDisk below)
    return .directory inner
  else return .file (← IO.FS.readBinFile place).toList

/-- Takes in what is on the disk at a path: all of it, or no more than the directories on the way and
a file at the end. -/
def takeIn (files : Files) (all : Bool) (path : FilePath) : IO Files := do
  let parts := (files.here.join path).parts
  let mut files := files
  for n in List.range parts.length do
    let sofar : FilePath := ⟨.root, parts.take (n + 1)⟩
    let place := (← IO.currentDir) / sofar.text
    let names := (FilePath.resolve ⟨.root, []⟩ sofar).parts
    let isLast := n + 1 = parts.length
    if ← place.isDir then
      let entry ← if isLast && all then entryOnDisk sofar.text else pure (.directory [])
      files := { files with top := entry.insert names files.top }
    else if ← place.pathExists then
      let entry := FileEntry.file (← IO.FS.readBinFile place).toList
      files := { files with top := entry.insert names files.top }
  return files

/-- The files that a command of some words is about. -/
def filesFor (words : List String) : IO Files := do
  let here := FilePath.ofText (← IO.currentDir).toString
  let files ← takeIn ⟨.directory [], here⟩ false ⟨.here, []⟩
  match CommandLine.Arguments.ofTexts words with
  | .error _ => return files
  | .ok a =>
    let files ← takeIn files (!a.initConfig && !a.dumpTree) (.ofText a.path)
    let others := a.config.toList ++ a.output.toList
    others.foldlM (fun files path => takeIn files false (.ofText path)) files

/-- The time at which the process came to be known, as reports give it. -/
def timeText : IO String := do
  let place := (← IO.currentDir) / "/proc/self"
  if ← place.pathExists then
    let time := (← place.metadata).modified
    return (Moment.ofSeconds time.sec.toNat (time.nsec.toNat / 1000)).standardText
  else return (Moment.ofSeconds 0 0).standardText

/-- Runs the program. -/
def runProgram (words : List String) : IO UInt32 := do
  let outcome := CommandLine.run (← filesFor words) (← timeText) words
  for (path, text) in outcome.written do
    IO.FS.writeFile ((← IO.currentDir) / path) text
  IO.eprint outcome.errors
  IO.print outcome.output
  match outcome.exit with
  | .status code => return UInt32.ofNat code
  | .fault e =>
    IO.eprintln e.message
    return 1

end MethodLint

/-- Runs the program with the words of its command. -/
def main (words : List String) : IO UInt32 := MethodLint.runProgram words
