import MethodLint.Proofs.ScanReports
import MethodLint.Proofs.TreeDumps

/-! Commands that scan. Where a scan comes to a result and its report can be rendered and
delivered, a command ends by what was found and by whether that should fail it, and by nothing
else: files that failed only get a line each, and how the report looks, where it goes, whether it
lists methods and how many workers there are do not reach the decision. A report is the same text
on standard output and in a file, but for the time in it. -/
namespace MethodLint.ScanCommands
open Outcomes CommandLine ScanIsolation ScanReports PoolRuns

variable {files : Files} {a b : Arguments} {config : Value} {result : ScanResult} {text time : String}
  {words : List String} {s t : Scanner}

/-! ## Parts that leave a log -/

section Quiet

variable {α β : Type} {x : Session α} {f : α → Session β}

/-- A part that leaves nothing but records of its log if it answers. -/
def Quiet (x : Session α) : Prop :=
  ∀ answer, x.outcome = .ok answer → ∃ records : List Record, x = ⟨records.map .log, .ok answer⟩

theorem answer_bind {answer : β} (answered : (x >>= f).outcome = .ok answer) :
    ∃ first, x.outcome = .ok first ∧ (f first).outcome = .ok answer := by
  obtain ⟨events, outcome⟩ := x
  cases outcome with
  | error e => cases answered
  | ok first => exact ⟨first, rfl, answered⟩

theorem quiet_bind (first : Quiet x) (later : ∀ answer, Quiet (f answer)) : Quiet (x >>= f) := by
  intro answer answered
  obtain ⟨between, here, rest⟩ := answer_bind answered
  obtain ⟨records, rfl⟩ := first between here
  obtain ⟨others, further⟩ := later between answer rest
  refine ⟨records ++ others, ?_⟩
  rw [List.map_append]
  change (⟨records.map .log ++ (f between).events, (f between).outcome⟩ : Session β) = _
  rw [further]

theorem quiet_pure (answer : α) : Quiet (pure answer) := by
  intro same answered
  cases answered
  exact ⟨[], rfl⟩

theorem quiet_debug (text : String) : Quiet (Session.debug text) := by
  intro answer answered
  cases answered
  exact ⟨[⟨.debug, text⟩], rfl⟩

theorem quiet_fail (text : String) : Quiet (Session.fail text : Session α) := by
  intro answer answered
  cases answered

theorem quiet_stop (e : Fault) : Quiet (Session.stop e : Session α) := by
  intro answer answered
  cases answered

theorem quiet_ofResult (x : Except Fault α) : Quiet (Session.ofResult x) := by
  intro answer answered
  exact ⟨[], congrArg (Session.mk []) answered⟩

theorem quiet_ofTraced (x : Traced α) : Quiet (Session.ofTraced x Session.stop) := by
  intro answer answered
  obtain ⟨log, outcome⟩ := x
  cases outcome with
  | error e => cases answered
  | ok found =>
    cases answered
    exact ⟨log, congrArg (Session.mk · _) (List.append_nil _)⟩

end Quiet

theorem quiet_loadConfig (files : Files) (path : String) : Quiet (loadConfig files path) := by
  unfold loadConfig
  dsimp only
  split
  · exact quiet_fail _
  · split
    · exact quiet_bind (quiet_debug _) fun _ => quiet_pure _
    · exact quiet_fail _
    · exact quiet_stop _

theorem quiet_configOf (files : Files) (a : Arguments) : Quiet (configOf files a) := by
  unfold configOf
  cases a.config.filter (!·.isEmpty) with
  | none => exact quiet_bind (quiet_pure _) fun _ => quiet_pure _
  | some path => exact quiet_bind (quiet_loadConfig files path) fun _ => quiet_pure _

theorem quiet_scan (files : Files) (a : Arguments) (config : Value) : Quiet (scan files a config) := by
  unfold scan
  dsimp only
  split
  · exact quiet_fail _
  · refine quiet_bind (quiet_ofResult _) fun _ => quiet_bind (quiet_ofResult _) fun _ => ?_
    exact quiet_bind (quiet_debug _) fun _ => quiet_bind (quiet_ofResult _) fun _ => quiet_ofTraced _

/-! ## Scanners -/

/-- The scanner that a command and its configuration ask for. -/
def scannerOf (files : Files) (a : Arguments) (config : Value) : Except Fault Scanner := do
  let exclude ← exclusions a config
  let extensions ← excludedExtensions a config
  Scanner.make (files.here.resolve (.ofText a.path)) (.list exclude) (.list extensions) (.list a.languages)
    a.workers config a.metrics

/-- A scan that comes to a result is the one of that scanner. -/
theorem scan_scanner (scanned : (scan files a config).outcome = .ok result) :
    ∃ s, scannerOf files a config = .ok s ∧ (s.scan files).outcome = .ok result := by
  unfold scan at scanned
  dsimp only at scanned
  split at scanned
  · cases scanned
  · obtain ⟨exclude, excluding, scanned⟩ := answer_bind scanned
    obtain ⟨extensions, extending, scanned⟩ := answer_bind scanned
    obtain ⟨_, _, scanned⟩ := answer_bind scanned
    obtain ⟨s, made, scanned⟩ := answer_bind scanned
    have plain {α : Type} {x : Except Fault α} {answer : α} (answered : (Session.ofResult x).outcome = .ok answer) :
        x = .ok answer := by
      cases x with
      | error e => cases answered
      | ok same => exact congrArg Except.ok (Except.ok.inj answered)
    refine ⟨s, ?_, ?_⟩
    · rw [scannerOf, plain excluding]
      change (excludedExtensions a config >>= _) = _
      rw [plain extending]
      exact plain made
    · unfold Session.ofTraced at scanned
      cases outcome : (s.scan files).outcome with
      | error e =>
        rw [outcome] at scanned
        cases scanned
      | ok found =>
        rw [outcome] at scanned
        exact congrArg Except.ok (Except.ok.inj scanned)

/-- What a result is made of: the files that the scanner selects, one after the other. -/
theorem scan_entries (scanned : (s.scan files).outcome = .ok result) :
    ∃ paths, s.selection.paths files s.root = .ok paths ∧ entries s files paths = .ok result.files ∧
      result = ⟨s.root, s.thresholds, s.reportsMethods, result.files⟩ := by
  cases selected : s.selection.paths files s.root with
  | error e =>
    simp only [Scanner.scan, Traced.outcome_bind, Traced.outcome_of, selected] at scanned
    cases scanned
  | ok paths =>
    rw [scan_outcome selected] at scanned
    cases each : entries s files paths with
    | error e =>
      rw [each] at scanned
      cases scanned
    | ok results =>
      rw [each] at scanned
      cases scanned
      exact ⟨paths, rfl, each, rfl⟩

/-- Two commands that differ at most in how they report and in how many workers they have. -/
def SameScan (a b : Arguments) : Prop :=
  b = { a with format := b.format, output := b.output, metrics := b.metrics, workers := b.workers }

/-- What a scanner is made of, by what it asks of each of its parts. -/
theorem make_parts {root : FilePath} {exclude extensions languages workers config : Value} {reports : Bool}
    (made : Scanner.make root exclude extensions languages workers config reports = .ok s) :
    ∃ normal asked, (extensions.givenParts >>= normalExtensions) = .ok normal ∧
      (languages.orElse Scanner.standardLanguages).parts = .ok asked ∧
      Config.thresholds (config.orElse Config.standard) = .ok s.thresholds ∧
      s = ⟨root, ⟨exclude.orElse Scanner.standardExclude, normal, asked⟩, s.workers, s.thresholds, reports⟩ := by
  unfold Scanner.make at made
  obtain ⟨given, givenParts, made⟩ := bind_ok_iff.mp made
  obtain ⟨normal, normalized, made⟩ := bind_ok_iff.mp made
  obtain ⟨asked, languageParts, made⟩ := bind_ok_iff.mp made
  obtain ⟨count, _, made⟩ := bind_ok_iff.mp made
  obtain ⟨thresholds, configured, made⟩ := bind_ok_iff.mp made
  cases made
  exact ⟨normal, asked, bind_ok_iff.mpr ⟨given, givenParts, normalized⟩, languageParts, configured, rfl⟩

/-- Their scanners differ at most in the number of workers and in whether they list methods. -/
theorem scannerOf_same (same : SameScan a b) (first : scannerOf files a config = .ok s)
    (second : scannerOf files b config = .ok t) :
    t = { s with workers := t.workers, reportsMethods := t.reportsMethods } := by
  rw [same] at second
  unfold scannerOf at first second
  obtain ⟨exclude, excluding, first⟩ := bind_ok_iff.mp first
  obtain ⟨extensions, extending, first⟩ := bind_ok_iff.mp first
  obtain ⟨others, excluded, second⟩ := bind_ok_iff.mp second
  obtain ⟨further, extended, second⟩ := bind_ok_iff.mp second
  cases Except.ok.inj (excluding.symm.trans excluded)
  cases Except.ok.inj (extending.symm.trans extended)
  obtain ⟨normal, asked, normalized, parts, configured, shape⟩ := make_parts first
  obtain ⟨normal', asked', normalized', parts', configured', shape'⟩ := make_parts second
  cases Except.ok.inj (normalized.symm.trans normalized')
  cases Except.ok.inj (parts.symm.trans parts')
  rw [Except.ok.inj (configured'.symm.trans configured)] at shape'
  rw [shape', shape]

theorem configOf_same (same : SameScan a b) : configOf files b = configOf files a := by
  rw [same]
  rfl

/-! ## Results without methods -/

theorem bare_bare (f : FileResult) : bare (bare f) = bare f := by
  obtain ⟨path, language, outcome⟩ := f
  cases outcome <;> rfl

theorem bare_violations (f : FileResult) : (bare f).violationValues = f.violationValues := by
  obtain ⟨path, language, outcome⟩ := f
  cases outcome <;> rfl

/-- Without its methods the result of a file does not depend on whether they are listed. -/
theorem scanFile_bare (s : Scanner) (files : Files) (path : FilePath) : (s.scanFile files path).outcome.map bare =
    (Scanner.scanFile { s with reportsMethods := false } files path).outcome := by
  have plain := scanFile_plain s files path
  cases reports : s.reportsMethods with
  | true =>
    rw [plain, ← reports]
  | false =>
    have same : s = { s with reportsMethods := false } := by rw [← reports]
    have twice (x : Except Fault FileResult) : (x.map bare).map bare = x.map bare := by
      cases x with
      | error e => rfl
      | ok f => exact congrArg Except.ok (bare_bare f)
    rw [same, plain]
    exact twice _

/-- How many workers there are is nothing to a file. -/
theorem scanFile_workers (s : Scanner) (workers : Value) (files : Files) (path : FilePath) :
    Scanner.scanFile { s with workers := workers } files path = s.scanFile files path := by
  unfold Scanner.scanFile
  cases FrontEnd.ofPath? path with
  | none => rfl
  | some frontEnd => rfl

theorem entries_bare (s : Scanner) (files : Files) (paths : List FilePath) :
    (entries s files paths).map (List.map bare) = entries { s with reportsMethods := false } files paths := by
  rw [entries, ← mapM_map_ok, entries]
  exact mapM_congr fun path _ => scanFile_bare s files path

theorem violations_eq (r : ScanResult) : r.violations = r.files.flatMap FileResult.violationValues := by
  rw [ScanResult.violations, ScanResult.totals, totals_fold]
  rfl

theorem violations_bare (r : ScanResult) : r.violations = (r.files.map bare).flatMap FileResult.violationValues := by
  rw [violations_eq, List.flatMap_map]
  exact (List.flatMap_congr fun f _ => bare_violations f).symm

/-- Only files that did not fail have violations. -/
theorem violations_unfailed (r : ScanResult) :
    r.violations = (r.files.filter fun f => f.error?.isNone).flatMap FileResult.violationValues := by
  rw [violations_eq]
  induction r.files with
  | nil => rfl
  | cons f rest ih =>
    obtain ⟨path, language, outcome⟩ := f
    cases outcome with
    | error reason => exact ih
    | ok findings => exact congrArg (_ ++ ·) ih

/-- Two scans that differ at most so come to the same, but for the methods. -/
theorem results_same {other : ScanResult}
    (same : t = { s with workers := t.workers, reportsMethods := t.reportsMethods })
    (first : (s.scan files).outcome = .ok result) (second : (t.scan files).outcome = .ok other) :
    other.files.map bare = result.files.map bare := by
  obtain ⟨paths, selected, each, _⟩ := scan_entries first
  obtain ⟨others, selected', each', _⟩ := scan_entries second
  have selection : t.selection.paths files t.root = s.selection.paths files s.root := by rw [same]
  cases Except.ok.inj (selected.symm.trans (selection.symm.trans selected'))
  have plain : entries { t with reportsMethods := false } files paths =
      entries { s with reportsMethods := false } files paths := by
    rw [same]
    exact mapM_congr fun path _ =>
      congrArg Traced.outcome (scanFile_workers { s with reportsMethods := false } t.workers files path)
  rw [← entries_bare, ← entries_bare, each, each'] at plain
  exact Except.ok.inj plain

/-! ## Times in reports -/

/-- How a report shows the time of its scan: between quotes, or not at all. -/
def stamp : Format → (time : String) → String
  | .json, time => Json.quoted time
  | .text, _ => ""

/-- Between the brackets of a collection its first part can be exchanged. -/
theorem enclosed_first (level : Nat) (first last : String) (parts : List String) :
    ∃ front back, ∀ part, Json.enclosed level first last (part :: parts) = front ++ part ++ back := by
  cases parts with
  | nil =>
    refine ⟨first ++ Json.lineStart (level + 1), Json.lineStart level ++ last, fun part => ?_⟩
    simp [Json.enclosed, String.append_assoc]
  | cons next rest =>
    refine ⟨first ++ Json.lineStart (level + 1), "," ++ Json.lineStart (level + 1) ++
      ("," ++ Json.lineStart (level + 1)).intercalate (next :: rest) ++ (Json.lineStart level ++ last), fun part => ?_⟩
    simp [Json.enclosed, String.intercalate_cons_cons, String.append_assoc]

/-- A mapping whose first entry may hold one value or another is written alike around it. -/
theorem writeAt_first {asTexts : Bool} {level : Nat} {key : String} {v : Value} {rest : List (Value × Value)}
    (written : Json.writeAt asTexts level (.map ((.str key, v) :: rest)) = .ok text) :
    ∃ front back, ∀ w part, Json.writeAt asTexts (level + 1) w = .ok part →
      Json.writeAt asTexts level (.map ((.str key, w) :: rest)) = .ok (front ++ part ++ back) := by
  rw [Json.writeAt, Json.writeEntries, Json.keyText] at written
  obtain ⟨_, opened, _⟩ := bind_ok_iff.mp written
  obtain ⟨_, _, opened⟩ := bind_ok_iff.mp opened
  obtain ⟨_, _, opened⟩ := bind_ok_iff.mp opened
  obtain ⟨others, later, _⟩ := bind_ok_iff.mp opened
  obtain ⟨front, back, around⟩ := enclosed_first level "\x7b" "\x7d" others
  refine ⟨front ++ (Json.quoted key ++ ": "), back, fun w part here => ?_⟩
  rw [Json.writeAt, Json.writeEntries, Json.keyText]
  simp only [bind, Except.bind, here, later]
  refine congrArg Except.ok ((around _).trans ?_)
  simp only [String.append_assoc]

theorem json_stamped (written : Json.write true (result.toValue time) = .ok text) :
    ∃ front back, ∀ time, Json.write true (result.toValue time) = .ok (front ++ Json.quoted time ++ back) := by
  obtain ⟨front, back, outer⟩ := writeAt_first written
  have origin : ∃ part, Json.writeAt true 1 (result.origin time) = .ok part := by
    unfold Json.write ScanResult.toValue Value.record at written
    simp only [List.cons_append, List.map_cons] at written
    rw [Json.writeAt, Json.writeEntries, Json.keyText] at written
    obtain ⟨_, opened, _⟩ := bind_ok_iff.mp written
    obtain ⟨_, _, opened⟩ := bind_ok_iff.mp opened
    obtain ⟨part, here, _⟩ := bind_ok_iff.mp opened
    exact ⟨part, here⟩
  obtain ⟨part, here⟩ := origin
  obtain ⟨inner, behind, around⟩ := writeAt_first here
  refine ⟨front ++ inner, behind ++ back, fun time => ?_⟩
  have stamped := outer _ _ (around (.str time) (Json.quoted time) rfl)
  refine Eq.trans stamped (congrArg Except.ok ?_)
  simp only [String.append_assoc]

theorem text_stamped (time other : String) :
    Report.text (result.toValue other) = Report.text (result.toValue time) := by
  rfl

/-- A report depends on the time of its scan in one place at most, where it shows the time. -/
theorem report_stamped {format : Format} (rendered : reportText format time result = .ok text) :
    ∃ front back, ∀ time, reportText format time result = .ok (front ++ stamp format time ++ back) := by
  cases format with
  | json => exact json_stamped rendered
  | text =>
    refine ⟨text, "", fun other => ?_⟩
    have same : reportText .text other result = .ok text := (text_stamped time other).trans rendered
    rw [same, stamp, String.append_empty, String.append_empty]

/-! ## Commands -/

/-- The name of the file that a report should go to; a name without characters is none. -/
def destination (a : Arguments) : Option String := a.output.filter (!·.isEmpty)

/-- A command for a scan that comes to a result, with its report, which can be delivered. -/
structure Completes (files : Files) (time : String) (a : Arguments) (result : ScanResult) (text : String) : Prop where
  noConfig : a.initConfig = false
  noDump : a.dumpTree = false
  scanned : ∃ config, (configOf files a).outcome = .ok config ∧ (scan files a config).outcome = .ok result
  rendered : reportText a.format time result = .ok text
  writable : ∀ name, destination a = some name → writeFault? files name = none

/-- A finding fails a command that is strict. -/
def isFailed (a : Arguments) (result : ScanResult) : Bool := a.strict && !result.violations.isEmpty

theorem isFailed_iff : isFailed a result = true ↔ a.strict = true ∧ result.violations ≠ [] := by
  simp [isFailed]

/-- What a run leaves of its report. -/
def delivery (text : String) : Option String → List Event
  | none => [.printed (text ++ "\n")]
  | some name => [.wrote name (text ++ "\n"), .log ⟨.debug, "Report written to " ++ name⟩]

/-- The lines for the files that failed, in their order. -/
def failureLines (result : ScanResult) : List String := (result.files.filterMap failureLine?).map (· ++ "\n")

theorem complain_each (lines : List String) : lines.forM Session.complain =
    ⟨(lines.map (· ++ "\n")).map .complained, .ok ()⟩ := by
  induction lines with
  | nil => rfl
  | cons line rest ih =>
    change (Session.complain line >>= fun _ => rest.forM Session.complain) = _
    rw [ih]
    rfl

theorem deliver_completes (text : String)
    (writable : ∀ name, destination a = some name → writeFault? files name = none) :
    deliver files text a.output = ⟨delivery text (destination a), .ok ()⟩ := by
  unfold deliver
  unfold destination at writable ⊢
  cases asked : a.output.filter (!·.isEmpty) with
  | none => rfl
  | some name =>
    dsimp only
    rw [writable name asked]
    rfl

/-- A command ends with the status of a failure exactly if it is failed by a finding. -/
def ending (a : Arguments) (result : ScanResult) : Except Exit Unit :=
  if isFailed a result then .error (.status 1) else .ok ()

theorem verdict_ending (a : Arguments) (result : ScanResult) :
    (if a.strict ∧ !result.violations.isEmpty then Session.exit 1 else pure () : Session Unit) =
      ⟨[], ending a result⟩ := by
  unfold ending isFailed
  cases a.strict <;> cases result.violations.isEmpty <;> rfl

/-- The events of a completed command: its log, a line for each file that failed, and the report. -/
theorem perform_completes (completes : Completes files time a result text) : ∃ records : List Record,
    perform files time a = ⟨records.map .log ++ (failureLines result).map .complained ++ delivery text (destination a),
      ending a result⟩ := by
  obtain ⟨config, configured, scanned⟩ := completes.scanned
  obtain ⟨first, configuring⟩ := quiet_configOf files a config configured
  obtain ⟨second, scanning⟩ := quiet_scan files a config result scanned
  refine ⟨first ++ second, ?_⟩
  have rendering : (Session.ofResult (reportText a.format time result)) = ⟨[], .ok text⟩ :=
    congrArg Session.ofResult completes.rendered
  have delivering := deliver_completes text completes.writable
  rw [perform, completes.noConfig, completes.noDump]
  simp only [Bool.false_eq_true, if_false, report, configuring, scanning, complain_each, rendering, delivering,
    verdict_ending, bind, failureLines, List.map_append, List.append_assoc, List.append_nil, List.nil_append]

/-- Records of a log as they are shown. -/
def shownRecords (verbose : Bool) (records : List Record) : String :=
  String.join (records.map (Event.onError verbose ∘ .log))

/-- What is known of a completed command. Its status says whether a finding failed it, and findings
are those of the files that did not fail. The report goes to one place, and besides records of the
log each failed file has a line on standard error, in the order of the files. -/
structure Ends (files : Files) (a : Arguments) (result : ScanResult) (text : String) (outcome : Outcome) : Prop where
  exit : outcome.exit = .status (if a.strict = true ∧ result.violations ≠ [] then 1 else 0)
  violations : result.violations = (result.files.filter fun f => f.error?.isNone).flatMap FileResult.violationValues
  printed : destination a = none → outcome.output = text ++ "\n" ∧ outcome.written = []
  written : ∀ name, destination a = some name → outcome.output = "" ∧ outcome.written = [(name, text ++ "\n")]
  errors : ∃ before after : List Record, outcome.errors = shownRecords a.verbose before ++
    String.join (failureLines result) ++ shownRecords a.verbose after

/-- Events that neither print nor write leave nothing on standard output and in files. -/
theorem silent_events {events : List Event} (silent : ∀ event ∈ events, event.onOutput = "" ∧ event.file? = none) :
    String.join (events.map Event.onOutput) = "" ∧ events.filterMap Event.file? = [] := by
  constructor
  · induction events with
    | nil => rfl
    | cons event rest ih =>
      rw [List.map_cons, String.join_cons, (silent event List.mem_cons_self).1, String.empty_append]
      exact ih fun other listed => silent other (List.mem_cons_of_mem _ listed)
  · exact List.filterMap_eq_nil_iff.mpr fun event listed => (silent event listed).2

/-- What comes in front of a delivery. -/
theorem silent_front (records : List Record) (lines : List String) :
    ∀ event ∈ records.map Event.log ++ lines.map .complained, event.onOutput = "" ∧ event.file? = none := by
  intro event listed
  rcases List.mem_append.mp listed with log | line
  · obtain ⟨record, _, rfl⟩ := List.mem_map.mp log
    exact ⟨rfl, rfl⟩
  · obtain ⟨line, _, rfl⟩ := List.mem_map.mp line
    exact ⟨rfl, rfl⟩

theorem perform_ends (completes : Completes files time a result text) :
    Ends files a result text ((perform files time a).toOutcome a.verbose) := by
  obtain ⟨records, performed⟩ := perform_completes completes
  obtain ⟨mute, unwritten⟩ := silent_events (silent_front records (failureLines result))
  rw [performed]
  have output : String.join ((records.map Event.log ++ (failureLines result).map Event.complained ++
      delivery text (destination a)).map Event.onOutput) =
        String.join ((delivery text (destination a)).map Event.onOutput) := by
    rw [List.map_append, String.join_append, mute, String.empty_append]
  have wrote : (records.map Event.log ++ (failureLines result).map Event.complained ++
      delivery text (destination a)).filterMap Event.file? =
        (delivery text (destination a)).filterMap Event.file? := by
    rw [List.filterMap_append, unwritten, List.nil_append]
  refine ⟨?_, violations_unfailed result, ?_, ?_, ?_⟩
  · dsimp only [Session.toOutcome, ending]
    by_cases failed : a.strict = true ∧ result.violations ≠ []
    · rw [if_pos failed, if_pos (isFailed_iff.mpr failed)]
    · rw [if_neg failed, if_neg (mt isFailed_iff.mp failed)]
  · intro nowhere
    dsimp only [Session.toOutcome]
    rw [output, wrote, nowhere]
    exact ⟨String.join_cons.trans String.append_empty, rfl⟩
  · intro name somewhere
    dsimp only [Session.toOutcome]
    rw [output, wrote, somewhere]
    exact ⟨rfl, rfl⟩
  · have lines : ((failureLines result).map Event.complained).map (Event.onError a.verbose) = failureLines result := by
      rw [List.map_map]
      exact List.map_id _
    obtain ⟨after, rest⟩ : ∃ after, String.join ((delivery text (destination a)).map (Event.onError a.verbose)) =
        shownRecords a.verbose after := by
      cases destination a with
      | none => exact ⟨[], rfl⟩
      | some name => exact ⟨[⟨.debug, "Report written to " ++ name⟩], String.empty_append⟩
    refine ⟨records, after, ?_⟩
    dsimp only [Session.toOutcome]
    rw [List.map_append, List.map_append, String.join_append, String.join_append, lines, rest, List.map_map]
    rfl

/-! ## Runs -/

/-- The files of a result are those that the scanner of the command selects, each scanned by itself
and in the order of selection, and a pool of workers that has done so has come to the same. -/
def Selects (files : Files) (a : Arguments) (result : ScanResult) : Prop :=
  ∃ config s paths, (configOf files a).outcome = .ok config ∧ scannerOf files a config = .ok s ∧
    s.selection.paths files s.root = .ok paths ∧
    List.Forall₂ (fun path f => (s.scanFile files path).outcome = .ok f) paths result.files ∧
    ∀ workers > 0, ∀ p, Reached workers (tasks s files paths) p → p.Rests workers (tasks s files paths) →
      p.outcome = .ok result.files

/-- Where a report goes makes no difference to it: at any time a run without a name for a file
prints what a run with one writes to that file, but for the time that is shown. -/
structure SameReport (files : Files) (a : Arguments) (front back : String) : Prop where
  printed : ∀ words time, Arguments.ofTexts words = .ok { a with output := none } →
    (run files time words).output = front ++ stamp a.format time ++ back ++ "\n" ∧
      (run files time words).written = []
  written : ∀ words time name, name ≠ "" → writeFault? files name = none →
    Arguments.ofTexts words = .ok { a with output := some name } → (run files time words).output = "" ∧
      (run files time words).written = [(name, front ++ stamp a.format time ++ back ++ "\n")]

theorem completes_selects (completes : Completes files time a result text) : Selects files a result := by
  obtain ⟨config, configured, scanned⟩ := completes.scanned
  obtain ⟨s, made, ran⟩ := scan_scanner scanned
  obtain ⟨paths, selected, each, _⟩ := scan_entries ran
  refine ⟨config, s, paths, configured, made, selected, mapM_ok_forall each, fun workers some p reached rests => ?_⟩
  rw [outcome_at_rest (orderly_reached reached) some rests, tasks, List.mapM_map]
  exact each

theorem run_parsed (parsed : Arguments.ofTexts words = .ok a) :
    run files time words = (perform files time a).toOutcome a.verbose := by
  rw [run, parsed]

/-- Where the report goes does not matter to the scan. -/
theorem completes_elsewhere {front back : String} (completes : Completes files time a result text)
    (stamped : ∀ time, reportText a.format time result = .ok (front ++ stamp a.format time ++ back))
    (output : Option String) (other : String)
    (writable : ∀ name, output.filter (!·.isEmpty) = some name → writeFault? files name = none) :
    Completes files other { a with output := output } result (front ++ stamp a.format other ++ back) :=
  ⟨completes.noConfig, completes.noDump, completes.scanned, stamped other, writable⟩

theorem completes_reports (completes : Completes files time a result text) :
    ∃ front back, text = front ++ stamp a.format time ++ back ∧ SameReport files a front back := by
  obtain ⟨front, back, stamped⟩ := report_stamped completes.rendered
  refine ⟨front, back, Except.ok.inj (completes.rendered.symm.trans (stamped time)), ?_, ?_⟩
  · intro words other parsed
    have elsewhere := completes_elsewhere completes stamped none other fun name asked => by cases asked
    rw [run_parsed parsed]
    exact (perform_ends elsewhere).printed rfl
  · intro words other name named free parsed
    have asked : (some name).filter (!·.isEmpty) = some name := by
      have filled : (!name.isEmpty) = true := by simpa using named
      simp [Option.filter, filled]
    have elsewhere := completes_elsewhere completes stamped (some name) other fun found same => by
      rw [asked] at same
      cases same
      exact free
    rw [run_parsed parsed]
    exact (perform_ends elsewhere).written name asked

/-- Two commands that differ at most in how they report and in how many workers they have find the
same violations. -/
theorem same_violations {other : ScanResult} {time' text' : String} (same : SameScan a b)
    (first : Completes files time a result text) (second : Completes files time' b other text') :
    other.violations = result.violations := by
  -- Both read the same configuration, so their scanners differ in nothing that violations depend on.
  obtain ⟨config, configured, scanned⟩ := first.scanned
  obtain ⟨config', configured', scanned'⟩ := second.scanned
  rw [configOf_same same] at configured'
  cases Except.ok.inj (configured.symm.trans configured')
  obtain ⟨s, made, ran⟩ := scan_scanner scanned
  obtain ⟨t, made', ran'⟩ := scan_scanner scanned'
  rw [violations_bare, violations_bare, results_same (scannerOf_same same made made') ran ran']

/-- A directory with a method that has a branch inside a branch, and a variable. -/
def branchingFiles : Files :=
  ⟨.directory [("m.json", .file ("\x7b\"kind\":\"MethodDeclaration\",\"name\":\"f\",\"begin_line\":1,\"end_line\":3," ++
    "\"children\":[\x7b\"kind\":\"If\",\"children\":[\x7b\"kind\":\"If\"\x7d]\x7d," ++
    "\x7b\"kind\":\"VariableDeclarator\"\x7d]\x7d").toUTF8.data.toList)], ⟨.root, []⟩⟩

/-- The words of a strict command that sets all thresholds to zero. -/
def strictWords : List String :=
  ["--strict", "--loc", "0", "--cyclo", "0", "--maxnesting", "0", "--noav", "0", "m.json"]

/-- What such a command asks for. -/
def strictArguments : Arguments := (Arguments.ofTexts strictWords).toOption.getD {}

theorem strict_parsed : Arguments.ofTexts strictWords = .ok strictArguments := by
  have parsed : (Arguments.ofTexts strictWords).toOption.isSome = true := by decide +kernel
  unfold strictArguments
  cases read : Arguments.ofTexts strictWords with
  | error e =>
    rw [read] at parsed
    cases parsed
  | ok a => rfl

end MethodLint.ScanCommands
