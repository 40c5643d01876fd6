import MethodLint.Policy

/-!
Configurations. A configuration is a document: a mapping whose sections `thresholds` and `exclude`
are looked at and whose other entries are carried along. It is checked when it is loaded, before any
file is read, and merged over the built-in one section by section.
-/
namespace MethodLint.Config

/-- A threshold that is given must be a whole number; without it the standard one is used. -/
def threshold (sections : List (Value × Value)) (name : String) (standard : Value) :
    Except Fault Value :=
  match (Value.lookup name sections).getD .null with
  | .null => .ok standard
  | .int n => .ok (.int n)
  | v => .error (.config (.thresholdNotInteger name v.full))

/-- The thresholds that a configuration sets, with the standard ones for the rest. -/
def thresholds (config : Value) : Except Fault Thresholds := do
  let given := config.getD "thresholds"
  let sections ← if given.isFalsy then pure [] else match given with
    | .map entries => pure entries
    | v => throw (Fault.config (.thresholdsNotMapping v.full))
  let standard := Thresholds.standard
  let cyclo ← threshold sections "cyclo" standard.cyclo
  let maxnesting ← threshold sections "maxnesting" standard.maxnesting
  let noav ← threshold sections "noav" standard.noav
  let loc ← threshold sections "loc" standard.loc
  return ⟨cyclo, maxnesting, noav, loc⟩

/-- The thresholds as a section. -/
def thresholdSection (t : Thresholds) : Value :=
  .record [("cyclo", t.cyclo), ("maxnesting", t.maxnesting), ("noav", t.noav), ("loc", t.loc)]

/-- The built-in configuration. -/
def standard : Value :=
  .record [("thresholds", thresholdSection .standard),
    ("exclude", .record [("directories", .list []), ("extensions", .list []), ("patterns", .list [])])]

/-- What is excluded from every scan that names nothing else. -/
def standardExclusions : List String :=
  ["node_modules", "__pycache__", ".git", ".venv", "venv", "dist", "build", ".tox", ".pytest_cache",
    ".mypy_cache", "*.pyc", "*.pyo", "*.egg-info"]

/-! ## Loading -/

/-- A section that is given must be a mapping. -/
def checkSection (path : String) (config : Value) (name : String) : Except Fault Unit :=
  match config.getD name with
  | .null | .map _ => .ok ()
  | v => .error (.config (.sectionNotMapping name path v.full))

/-- Every entry of the exclusions that is given must be a list. -/
def checkExclusions (path : String) : List (Value × Value) → Except Fault Unit
  | [] => .ok ()
  | (key, value) :: rest =>
    match value with
    | .null | .list _ => checkExclusions path rest
    | v => .error (.config (.exclusionNotList key.text path v.full))

/-- Entries with one more. A key of the same text keeps its place and gets the new value. -/
def put (key : String) (value : Value) : List (Value × Value) → List (Value × Value)
  | [] => [(.str key, value)]
  | (.str k, v) :: rest =>
    if k = key then (.str k, value) :: rest else (.str k, v) :: put key value rest
  | entry :: rest => entry :: put key value rest

/-- Entries with another entry put over them; a key that is no text is always new. -/
def putEntry (entries : List (Value × Value)) (entry : Value × Value) : List (Value × Value) :=
  match entry.1 with
  | .str key => put key entry.2 entries
  | _ => entries ++ [entry]

/-- Entries put over others. -/
def updated (entries given : List (Value × Value)) : List (Value × Value) := given.foldl putEntry entries

/-- One entry of a given configuration put over a configuration: a mapping over a mapping is merged
with it, anything else takes its place. -/
def mergeEntry (config : List (Value × Value)) (entry : Value × Value) : List (Value × Value) :=
  match entry.1, entry.2 with
  | .str key, .map given =>
    match Value.lookup key config with
    | some (.map entries) => put key (.map (updated entries given)) config
    | _ => put key entry.2 config
  | _, _ => putEntry config entry

/-- The entries of a mapping. -/
def entries : Value → List (Value × Value)
  | .map entries => entries
  | _ => []

/-- A document as a configuration: checked, and merged over the built-in one. A document that counts
as nothing is an empty one. -/
def ofDocument (path : String) (document : Value) : Except Fault Value := do
  let given := if document.isFalsy then .map [] else document
  if !given.isMap then throw (.config (.rootNotMapping path))
  checkSection path given "thresholds"
  checkSection path given "exclude"
  checkExclusions path (entries (given.getD "exclude"))
  let config := Value.map ((entries given).foldl mergeEntry (entries standard))
  let _ ← thresholds config
  return config

/-- A configuration with some thresholds set anew, to numbers or not. -/
def override (config : Value) (given : List (String × Value)) : Value :=
  if given.isEmpty then config
  else
    let sections := entries (config.getD "thresholds")
    .map (put "thresholds"
      (.map (updated sections (given.map fun entry => (.str entry.1, entry.2)))) (entries config))

/-- A documented configuration to start from. -/
def template : String :=
  let rule := "# " ++ "".pushn '=' 77
  let t := Thresholds.standard
  "\n".intercalate
    [rule,
     "# Brain Method Detector Configuration",
     rule,
     "# A method is reported as a brain method only when ALL of these hold:",
     "#",
     "#   LOC   > thresholds.loc          (end line - begin line of the method)",
     "#   CYCLO > thresholds.cyclo        (decision points: if/for/while/do/catch,",
     "#                                    ternaries, switch plus non-default cases)",
     "#   MAXNESTING > thresholds.maxnesting",
     "#                                   (enclosing if/while/for/switch/try around",
     "#                                    any inner control construct)",
     "#   NOAV  > thresholds.noav         (locally declared variables)",
     "#",
     "# Usage:",
     "#   brain-method src/ --config this_file.yaml",
     rule,
     "",
     "thresholds:",
     s!"  cyclo: {t.cyclo.text}",
     s!"  maxnesting: {t.maxnesting.text}",
     s!"  noav: {t.noav.text}",
     s!"  loc: {t.loc.text}",
     "",
     rule,
     "# EXCLUSIONS",
     rule,
     "# Applied IN ADDITION to CLI --exclude and --exclude-ext flags.",
     rule,
     "exclude:",
     "  # Directories to skip",
     "  directories:",
     "    # - vendor",
     "",
     "  # File extensions to skip",
     "  extensions:",
     "    # - .pyw",
     "",
     "  # Glob-like suffix patterns to skip",
     "  patterns:",
     "    # - \"*_pb2.py\"",
     ""]

end MethodLint.Config
