import MethodLint.CommandLine.Arguments
import MethodLint.CommandLine.Help
import MethodLint.CommandLine.Session
import MethodLint.Config.File
import MethodLint.Json.Writer
import MethodLint.Report
import MethodLint.Scan

/-!
What a command does. It prints the configuration to start from, or the tree of one file, or it scans
a path and reports what was found. A report goes to standard output or to a file, and never both. With
the flag for it, findings fail the command; files that could not be read never do.
-/
namespace MethodLint.CommandLine

/-- Why a file cannot be written, if it cannot. -/
def writeFault? (files : Files) (path : String) : Option Fault :=
  let shown := Text.quoted path
  let p := FilePath.ofText path
  let isDirectoryName := path.endsWith "/"
  match files.find p with
  | .ok (.directory _) => some (.fileIsDirectory shown)
  | .ok (.file _) => if isDirectoryName then some (.pathThroughFile shown) else none
  | .error .throughFile => some (.pathThroughFile shown)
  | .error .missing =>
    match files.find p.parent with
    | .ok (.directory _) => if isDirectoryName then some (.fileIsDirectory shown) else none
    | _ => some (.fileMissing shown)

/-- Prints a report, or writes it to a file. A name without characters is none. -/
def deliver (files : Files) (text : String) (output : Option String) : Session Unit :=
  match output.filter (!·.isEmpty) with
  | none => .print text
  | some path =>
    match writeFault? files path with
    | some e => .stop e
    | none => do
      Session.leave (.wrote path (text ++ "\n"))
      Session.debug ("Report written to " ++ path)

/-! ## Trees -/

/-- The tree of one file as a value. -/
def treeValue (files : Files) (path : String) : Session Value := do
  let p := FilePath.ofText path
  if !files.isFile p then Session.fail s!"--dump-tree needs a file, got '{path}'"
  else match FrontEnd.ofPath? p with
    | none => Session.fail s!"No parser for '{p.extension}' files"
    | some frontEnd => do
      let tree ← Session.ofTraced (frontEnd.parse files p) fun e =>
        match e with
        | .source _ _ => Session.fail e.message
        | e => Session.stop e
      return tree.toValue

/-- Reports the tree of one file. -/
def dumpTree (files : Files) (a : Arguments) : Session Unit := do
  let tree ← treeValue files a.path
  deliver files (← Session.ofResult (Json.write false tree)) a.output

/-! ## Scans -/

/-- The configuration in a file. -/
def loadConfig (files : Files) (path : String) : Session Value := do
  let p := FilePath.ofText path
  if !files.isPresent p then Session.fail s!"Config file '{p.text}' does not exist"
  else match Config.load files p with
    | .ok config =>
      Session.debug ("Loaded config: " ++ p.text)
      return config
    | .error (.config defect) => Session.fail defect.message
    | .error e => Session.stop e

/-- The thresholds that a command sets. -/
def overrides (a : Arguments) : List (String × Value) :=
  [("loc", a.loc), ("cyclo", a.cyclo), ("maxnesting", a.maxnesting), ("noav", a.noav)].filterMap
    fun entry => entry.2.map fun n => (entry.1, n)

/-- The configuration that a command asks for. A name of a file without characters is none. -/
def configOf (files : Files) (a : Arguments) : Session Value := do
  let config ← match a.config.filter (!·.isEmpty) with
    | none => pure Config.standard
    | some path => loadConfig files path
  return Config.override config (overrides a)

/-- What a configuration excludes under a name. -/
def excluded (config : Value) (name : String) : Except Fault (List Value) :=
  ((config.getD "exclude").getD name).givenParts

/-- The patterns that a command and its configuration exclude, behind the standard ones. -/
def exclusions (a : Arguments) (config : Value) : Except Fault (List Value) := do
  let directories ← excluded config "directories"
  let patterns ← excluded config "patterns"
  return (Config.standardExclusions ++ a.exclude).map .str ++ directories ++ patterns

mutual

/-- A value that can be in a set; a tuple can be if its items can. -/
def checkHashable : Value → Except Fault Unit
  | .list _ => .error (.type (.unhashable "list"))
  | .set _ => .error (.type (.unhashable "set"))
  | .map _ => .error (.type (.unhashable "dict"))
  | .tuple items => checkAllHashable items
  | _ => .ok ()

/-- Values that can be in a set. -/
def checkAllHashable : List Value → Except Fault Unit
  | [] => .ok ()
  | v :: rest => do
    checkHashable v
    checkAllHashable rest

end

/-- The extensions that a command and its configuration exclude. -/
def excludedExtensions (a : Arguments) (config : Value) : Except Fault (List Value) := do
  let extensions ← excluded config "extensions"
  checkAllHashable extensions
  return a.excludeExt.map .str ++ extensions

/-- Scans the path of a command. -/
def scan (files : Files) (a : Arguments) (config : Value) : Session ScanResult := do
  let root := files.here.resolve (.ofText a.path)
  if !files.isPresent root then Session.fail s!"Path '{root.text}' does not exist"
  else
    let exclude ← Session.ofResult (exclusions a config)
    let extensions ← Session.ofResult (excludedExtensions a config)
    Session.debug ("Scanning: " ++ root.text)
    let scanner ← Session.ofResult
      (Scanner.make root (.list exclude) (.list extensions) (.list a.languages) a.workers config
        a.metrics)
    Session.ofTraced (scanner.scan files) Session.stop

/-- The report of a scan at a time. -/
def reportText (format : Format) (time : String) (result : ScanResult) : Except Fault String :=
  match format with
  | .json => Json.write true (result.toValue time)
  | .text => Report.text (result.toValue time)

/-- The line for a file that failed. -/
def failureLine? (r : FileResult) : Option String :=
  r.error?.map fun reason => s!"{r.path}: error: {reason}"

/-- Scans and reports. -/
def report (files : Files) (time : String) (a : Arguments) : Session Unit := do
  let config ← configOf files a
  let result ← scan files a config
  (result.files.filterMap failureLine?).forM Session.complain
  deliver files (← Session.ofResult (reportText a.format time result)) a.output
  if a.strict ∧ !result.violations.isEmpty then Session.exit 1

/-! ## Commands -/

/-- Does what arguments ask for. -/
def perform (files : Files) (time : String) (a : Arguments) : Session Unit :=
  if a.initConfig then .print Config.template
  else if a.dumpTree then dumpTree files a
  else report files time a

/-- What ends a command before it does anything. -/
def interrupt : Interruption → Session Unit
  | .help => .leave (.printed help)
  | .version => .print s!"{programName} {toolVersion}"
  | .error e => do
    Session.leave (.complained usage)
    Session.complain s!"{programName}: error: {e.message}"
    Session.exit 2

/-- What a command of some words comes to, over some files and at some time. -/
def run (files : Files) (time : String) (words : List String) : Outcome :=
  match Arguments.ofTexts words with
  | .ok a => (perform files time a).toOutcome a.verbose
  | .error e => (interrupt e).toOutcome false

end MethodLint.CommandLine
