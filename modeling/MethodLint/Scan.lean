import MethodLint.Analysis
import MethodLint.Config
import MethodLint.Selection
import MethodLint.Value.Parts

/-!
Scans. Every selected file is read by its front end and analyzed on its own; a file that cannot be
read, or whose tree is malformed, becomes a diagnostic and adds nothing else to the result. The
results of the files are summed up in the order of selection.
-/
namespace MethodLint

/-- The version of the tool. -/
def toolVersion : String := "1.0.0"

/-- What a file adds to a result. -/
structure FileFindings where
  methodCount : Nat
  violations : List Violation
  methods : List Measured

/-- The result of a file: its path as reports show it, the language of its front end, and its
findings or why there are none. -/
structure FileResult where
  path : String
  language : Option String
  outcome : Except String FileFindings

namespace FileResult

/-- The findings of a file, none if it failed. -/
def findings (r : FileResult) : FileFindings :=
  match r.outcome with
  | .ok findings => findings
  | .error _ => ⟨0, [], []⟩

/-- Why a file has no findings. -/
def error? (r : FileResult) : Option String :=
  match r.outcome with
  | .ok _ => none
  | .error reason => some reason

/-- The methods of a file as a report holds them. -/
def methodValues (r : FileResult) : List Value :=
  r.findings.methods.map fun m => .record (("path", .str r.path) :: m.fields)

/-- The findings of a file as a report holds them. -/
def violationValues (r : FileResult) : List Value := r.findings.violations.map Violation.toValue

/-- The diagnostic of a file, if it failed. -/
def diagnostic? (r : FileResult) : Option Value :=
  r.error?.map fun reason => .record [("path", .str r.path), ("error", .str reason)]

/-- The result of a file by itself. -/
def toValue (r : FileResult) : Value :=
  .record ([("path", .str r.path), ("method_count", .int r.findings.methodCount),
      ("violations", .list r.violationValues), ("methods", .list r.methodValues)]
    ++ (r.language.map fun language => ("language", Value.str language)).toList
    ++ (r.error?.map fun reason => ("error", Value.str reason)).toList)

end FileResult

/-- What to scan and how: the root as an absolute path, the selection, how many files are analyzed at
a time, the thresholds, and whether every method is reported. -/
structure Scanner where
  root : FilePath
  selection : Selection
  workers : Value
  thresholds : Thresholds
  reportsMethods : Bool

namespace Scanner

/-- The languages that are scanned where none are asked for. -/
def standardLanguages : Value := .list [.str FrontEnd.source.language]

/-- What is excluded where nothing else is. -/
def standardExclude : Value := .list (Config.standardExclusions.map .str)

/-- A number of workers, which is one at least. -/
def atLeastOne (workers : Value) : Except Fault Value := do
  return if ← workers.exceeds (.int 1) then workers else .int 1

/-- A scanner with a configuration, whose thresholds are checked. For what counts as nothing there are
standard values. -/
def make (root : FilePath) (exclude extensions languages workers config : Value)
    (reportsMethods : Bool) : Except Fault Scanner := do
  let excludedExtensions ← normalExtensions (← extensions.givenParts)
  let languages ← (languages.orElse standardLanguages).parts
  let workers ← atLeastOne workers
  let thresholds ← Config.thresholds (config.orElse Config.standard)
  let selection := ⟨exclude.orElse standardExclude, excludedExtensions, languages⟩
  return ⟨root, selection, workers, thresholds, reportsMethods⟩

/-- A path as reports show it: from the root, or from the directory of a root that is a file. -/
def shownPath (s : Scanner) (files : Files) (path : FilePath) : String :=
  let base := if files.isFile s.root then s.root.parent else s.root
  match (files.here.resolve path).relativeTo? base with
  | some inner => inner.text
  | none => path.text

/-- The findings of a file that a front end reads. -/
def analyzeFile (s : Scanner) (files : Files) (path : FilePath) (frontEnd : FrontEnd) :
    Traced FileFindings := do
  let unit ← frontEnd.parse files path
  let violations ← unit.analyze s.thresholds (some (s.shownPath files path))
  let methods ← if s.reportsMethods then unit.measureMethods s.thresholds else pure []
  let count := unit.descendants.countP fun n => n.kind = Kind.methodDeclaration
  return ⟨count, violations, methods⟩

/-- The reason for which a fault fails a file alone, and the record of it. -/
def failure? (shown : String) : Fault → Option (String × String)
  | .source _ reason => some (reason, s!"Could not parse {shown}: {reason}")
  | .tree defect =>
    some ("malformed tree: " ++ defect.message, s!"Malformed tree in {shown}: {defect.message}")
  | _ => none

/-- The result of one file. -/
def scanFile (s : Scanner) (files : Files) (path : FilePath) : Traced FileResult := do
  let shown := s.shownPath files path
  match FrontEnd.ofPath? path with
  | none => return ⟨shown, none, .error "no parser registered for this file type"⟩
  | some frontEnd =>
    let language := some frontEnd.language
    match ← (s.analyzeFile files path frontEnd).attempt with
    | .ok findings => return ⟨shown, language, .ok findings⟩
    | .error e =>
      match failure? shown e with
      | some (reason, text) =>
        Traced.warn text
        return ⟨shown, language, .error reason⟩
      | none => throw e

end Scanner

/-- The result of a scan: what was scanned, by which thresholds, and the results of the files in the
order of selection. -/
structure ScanResult where
  root : FilePath
  thresholds : Thresholds
  reportsMethods : Bool
  files : List FileResult

namespace Scanner

/-- Scans every selected file. -/
def scan (s : Scanner) (files : Files) : Traced ScanResult := do
  let paths ← Traced.of (s.selection.paths files s.root)
  Traced.debug s!"Scanning {paths.length} file(s) under {s.root.text}"
  let results ← paths.mapM (s.scanFile files)
  return ⟨s.root, s.thresholds, s.reportsMethods, results⟩

end Scanner

/-- What is counted and collected of the results of files. -/
structure Totals where
  scanned : Nat
  analyzed : Nat
  failed : Nat
  violations : List Value
  methods : List Value
  diagnostics : List Value

namespace Totals

/-- The totals of no files. -/
def start : Totals := ⟨0, 0, 0, [], [], []⟩

/-- The totals with one more file. A file that failed adds its diagnostic, and nothing else is looked
at. -/
def add (reportsMethods : Bool) (t : Totals) (f : FileResult) : Totals :=
  let counted := { t with scanned := t.scanned + 1, analyzed := t.analyzed + f.findings.methodCount }
  match f.diagnostic? with
  | some diagnostic =>
    { counted with failed := t.failed + 1, diagnostics := t.diagnostics ++ [diagnostic] }
  | none =>
    { counted with
      violations := t.violations ++ f.violationValues
      methods := if reportsMethods then t.methods ++ f.methodValues else t.methods }

end Totals

namespace ScanResult

/-- The totals of all files. -/
def totals (r : ScanResult) : Totals := r.files.foldl (Totals.add r.reportsMethods) .start

/-- The findings of all files. -/
def violations (r : ScanResult) : List Value := r.totals.violations

/-- The methods of all files, if they are reported. -/
def methods (r : ScanResult) : List Value := r.totals.methods

/-- The diagnostics of all files. -/
def diagnostics (r : ScanResult) : List Value := r.totals.diagnostics

/-- What was scanned when, and by which thresholds. -/
def origin (r : ScanResult) (time : String) : Value :=
  let t := r.thresholds
  .record [("generated_at", .str time), ("tool_version", .str toolVersion),
    ("root", .str r.root.text),
    ("thresholds", .record [("loc", t.loc), ("cyclo", t.cyclo), ("maxnesting", t.maxnesting),
      ("noav", t.noav)])]

/-- The totals. -/
def summary (r : ScanResult) : Value :=
  .record [("files_scanned", .int r.totals.scanned), ("files_failed", .int r.totals.failed),
    ("methods_analyzed", .int r.totals.analyzed), ("violations", .int r.violations.length)]

/-- A result as reports hold it, with the time of the scan. -/
def toValue (r : ScanResult) (time : String) : Value :=
  .record ([("meta", r.origin time), ("summary", r.summary), ("violations", .list r.violations)]
    ++ (if r.reportsMethods then [("methods", Value.list r.methods)] else [])
    ++ [("diagnostics", .list r.diagnostics)])

end ScanResult

end MethodLint
