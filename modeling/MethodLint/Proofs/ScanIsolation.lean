import MethodLint.Proofs.AsciiTexts
import MethodLint.Proofs.FrontEndTrees
import MethodLint.Scan

/-! Files of a scan do not get in each other's way. A file has one entry: its
findings, or one diagnostic and nothing else. The entry depends on nothing but the
file itself. One sort of file is not contained: the document of a tree that its
loader gives up for another reason than its grammar, such as a date that there is
not or a numeral that is too long, stops whoever scans it. -/
namespace MethodLint.ScanIsolation
open Node Walks Outcomes Flags Findings FrontEndTrees AsciiTexts

variable {s : Scanner} {files : Files} {path : FilePath}

/-! ## Faults that fail one file alone -/

/-- A fault that is turned into a diagnostic. -/
def Contained (e : Fault) : Prop := e.category = .unparsable ∨ e.category = .malformedTree

theorem contained_refused {e : Fault} (refused : Refused e) : Contained e := by
  obtain ⟨path, reason, rfl⟩ := refused
  exact .inl rfl

theorem failure_contained (shown : String) {e : Fault} (contained : Contained e) :
    ∃ reason text, Scanner.failure? shown e = some (reason, text) := by
  cases e with
  | source path reason => exact ⟨_, _, rfl⟩
  | tree defect => exact ⟨_, _, rfl⟩
  | _ => simp [Contained, Fault.category] at contained

theorem failure_escapes (shown : String) {e : Fault} (escapes : ¬ Contained e) :
    Scanner.failure? shown e = none := by
  cases e with
  | source path reason => exact absurd (.inl rfl) escapes
  | tree defect => exact absurd (.inr rfl) escapes
  | _ => rfl

/-- The file holds the document of a tree, and its loader gives up with a fault
that nobody turns into a diagnostic. -/
def Unloadable (files : Files) (path : FilePath) (e : Fault) : Prop :=
  FrontEnd.ofPath? path = some .document ∧
    ∃ text, FrontEnd.textOf files path = .ok text ∧ Tree.valueOf path text = .error e ∧ ¬ Contained e

/-! ## One file -/

/-- A front end makes a tree with known lines, or a contained fault ends it, or the
document cannot be loaded. -/
theorem parse_ends {frontEnd : FrontEnd} (reads : FrontEnd.ofPath? path = some frontEnd) :
    Ends LinesKnown (fun e => Contained e ∨ Unloadable files path e)
      (frontEnd.parse files path).outcome := by
  have reading := ends_weaken (textOf_ends files path) fun e refused =>
    (.inl (contained_refused refused) : Contained e ∨ Unloadable files path e)
  unfold FrontEnd.parse
  rw [Traced.outcome_bind, Traced.outcome_of]
  refine ends_bind reading fun text readable => ?_
  cases frontEnd with
  | source => exact ends_weaken (source_ends path.text text) fun e refused => .inl (contained_refused refused)
  | document =>
    refine ends_weaken (document_ends path text) fun e fault => ?_
    by_cases contained : Contained e
    · exact .inl contained
    · refine .inr ⟨reads, text, readable, fault.resolve_left fun refused => ?_, contained⟩
      exact contained (contained_refused refused)

theorem unitOf_unloadable {text : String} {e : Fault} (loaded : Tree.valueOf path text = .error e) :
    (Tree.unitOf path text).outcome = .error e := by
  unfold Tree.unitOf
  rw [Traced.outcome_bind, Traced.outcome_of, loaded]
  rfl

/-- A document that cannot be loaded ends the front end with the loader's fault. -/
theorem parse_unloadable {e : Fault} (unloadable : Unloadable files path e) :
    (FrontEnd.document.parse files path).outcome = .error e := by
  obtain ⟨_, text, readable, loaded, _⟩ := unloadable
  have ended := unitOf_unloadable loaded
  unfold FrontEnd.parse
  rw [Traced.outcome_bind, Traced.outcome_of, readable]
  simp only [bind, Except.bind, ended]

/-! ## Thresholds of a scanner -/

theorem threshold_ends (sections : List (Value × Value)) (name : String) {given : Value}
    (standard : ∃ n, given = .int n) :
    Ends (fun v => ∃ n, v = .int n) (fun _ => True) (Config.threshold sections name given) := by
  unfold Config.threshold
  split
  · exact .ok standard
  · exact .ok ⟨_, rfl⟩
  · exact .error trivial

/-- Whole numbers as thresholds. -/
def AreWhole (t : Thresholds) : Prop :=
  ∃ cyclo maxnesting noav loc : Int, t = .ofInts cyclo maxnesting noav loc

/-- Thresholds that come from a configuration are whole numbers. -/
theorem thresholds_ends (config : Value) :
    Ends AreWhole (fun _ => True) (Config.thresholds config) := by
  have each (sections : List (Value × Value)) : Ends AreWhole (fun _ => True) (do
      let cyclo ← Config.threshold sections "cyclo" Thresholds.standard.cyclo
      let maxnesting ← Config.threshold sections "maxnesting" Thresholds.standard.maxnesting
      let noav ← Config.threshold sections "noav" Thresholds.standard.noav
      let loc ← Config.threshold sections "loc" Thresholds.standard.loc
      return ⟨cyclo, maxnesting, noav, loc⟩) := by
    refine ends_bind (threshold_ends sections "cyclo" ⟨_, rfl⟩) fun _ ⟨cyclo, first⟩ => ?_
    refine ends_bind (threshold_ends sections "maxnesting" ⟨_, rfl⟩) fun _ ⟨maxnesting, second⟩ => ?_
    refine ends_bind (threshold_ends sections "noav" ⟨_, rfl⟩) fun _ ⟨noav, third⟩ => ?_
    refine ends_bind (threshold_ends sections "loc" ⟨_, rfl⟩) fun _ ⟨loc, fourth⟩ => ?_
    exact .ok ⟨cyclo, maxnesting, noav, loc, by rw [first, second, third, fourth]; rfl⟩
  unfold Config.thresholds
  by_cases falsy : (config.getD "thresholds").isFalsy = true
  · simp only [falsy, if_true]
    exact each []
  · simp only [falsy]
    cases config.getD "thresholds" with
    | map entries => exact each entries
    | _ => exact .error trivial

theorem make_thresholds {root : FilePath} {exclude extensions languages workers config : Value}
    {reportsMethods : Bool}
    (made : Scanner.make root exclude extensions languages workers config reportsMethods = .ok s) :
    AreWhole s.thresholds := by
  unfold Scanner.make at made
  obtain ⟨_, _, made⟩ := bind_ok_iff.mp made
  obtain ⟨_, _, made⟩ := bind_ok_iff.mp made
  obtain ⟨_, _, made⟩ := bind_ok_iff.mp made
  obtain ⟨_, _, made⟩ := bind_ok_iff.mp made
  obtain ⟨t, read, made⟩ := bind_ok_iff.mp made
  cases made
  have whole := thresholds_ends (config.orElse Config.standard)
  rw [read] at whole
  cases whole with
  | ok whole => exact whole

/-! ## The analysis of one file -/

variable {cyclo maxnesting noav loc : Int}

theorem contained_tree {e : Fault} (malformed : ∃ defect, e = .tree defect) : Contained e := by
  obtain ⟨defect, rfl⟩ := malformed
  exact .inr rfl

theorem analyze_ends {root : Node} (lines : LinesKnown root) (shown : Option String) :
    Ends (fun _ => True) Contained (root.analyze (.ofInts cyclo maxnesting noav loc) shown).outcome := by
  rw [analyze_outcome]
  have each := guarded_mapM (methods root) fun d member =>
    guarded_finding cyclo maxnesting noav loc shown d (lines d member)
  refine ends_bind (ends_weaken (ends_guarded each) fun e => contained_tree) fun found _ => ?_
  exact .ok trivial

theorem measure_ends {m : Method} (first : IsLine m.beginLine) (last : IsLine m.endLine) :
    Ends (fun _ => True) Contained (m.measure (.ofInts cyclo maxnesting noav loc)) :=
  ends_weaken (ends_guarded (guarded_measure m first last)) fun _ => contained_tree

theorem declared_measure_ends {d : Node} (lines : IsLine d.header.beginLine ∧ IsLine d.header.endLine) :
    Ends (fun _ => True) Contained (d.declared.measure (.ofInts cyclo maxnesting noav loc)).outcome := by
  rw [declared_measure]
  cases made : Method.ofNode d with
  | error e =>
    have ended := ends_guarded (guarded_ofNode d)
    rw [made] at ended
    cases ended with
    | error malformed => exact .error (contained_tree malformed)
  | ok m =>
    obtain ⟨_, _, first, last, _⟩ := ofNode_ok made
    change Ends _ _ (m.measure _ >>= fun metrics => .ok (Measured.mk m metrics _))
    exact ends_bind (measure_ends (first ▸ lines.1) (last ▸ lines.2)) fun metrics _ => .ok trivial

theorem measureMethods_ends {root : Node} (lines : LinesKnown root) :
    Ends (fun _ => True) Contained
      (root.measureMethods (.ofInts cyclo maxnesting noav loc)).outcome := by
  have declarations : root.pass.declarations = (methods root).map Node.declared := rfl
  unfold Node.measureMethods Pass.measure
  rw [declarations, Traced.outcome_bind, opening_outcome]
  change Ends _ _ (Traced.outcome (List.mapM _ _))
  rw [outcome_mapM]
  have each : ∀ declared ∈ (methods root).map Node.declared,
      Ends (fun _ => True) Contained (declared.measure (.ofInts cyclo maxnesting noav loc)).outcome := by
    intro declared member
    obtain ⟨d, found, rfl⟩ := List.mem_map.mp member
    exact declared_measure_ends (lines d found)
  simpa using ends_mapM _ each

/-- The analysis of a file ends with findings, with a fault that fails this file
alone, or with the fault of a document that cannot be loaded. -/
theorem analyzeFile_ends {frontEnd : FrontEnd} (whole : AreWhole s.thresholds)
    (reads : FrontEnd.ofPath? path = some frontEnd) :
    Ends (fun _ => True) (fun e => Contained e ∨ Unloadable files path e)
      (s.analyzeFile files path frontEnd).outcome := by
  obtain ⟨cyclo, maxnesting, noav, loc, thresholds⟩ := whole
  unfold Scanner.analyzeFile
  rw [Traced.outcome_bind, thresholds]
  refine ends_bind (parse_ends reads) fun unit lines => ?_
  rw [Traced.outcome_bind]
  refine ends_bind (ends_weaken (analyze_ends lines _) fun e => Or.inl) fun violations _ => ?_
  cases s.reportsMethods with
  | true =>
    simp only [if_true, Traced.outcome_bind]
    refine ends_bind (ends_weaken (measureMethods_ends lines) fun e => Or.inl) fun methods _ => ?_
    exact .ok trivial
  | false => exact .ok trivial

theorem analyzeFile_unloadable {e : Fault} (unloadable : Unloadable files path e) :
    (s.analyzeFile files path .document).outcome = .error e := by
  unfold Scanner.analyzeFile
  rw [Traced.outcome_bind, parse_unloadable unloadable]
  rfl

/-! ## The entry of a file -/

/-- A file was analyzed: its entry holds the findings and no diagnostic. -/
def Analyzed (s : Scanner) (files : Files) (path : FilePath) (r : FileResult) : Prop :=
  ∃ frontEnd findings, FrontEnd.ofPath? path = some frontEnd ∧
    (s.analyzeFile files path frontEnd).outcome = .ok findings ∧
    r.language = some frontEnd.language ∧ r.findings = findings ∧ r.diagnostic? = none

/-- A file could not be analyzed: its entry is one diagnostic with its path, and adds
no violation, no method and nothing to the count of methods. -/
structure Failed (s : Scanner) (files : Files) (path : FilePath) (r : FileResult) : Prop where
  unanalyzed : ∀ frontEnd findings, FrontEnd.ofPath? path = some frontEnd →
    (s.analyzeFile files path frontEnd).outcome ≠ .ok findings
  diagnosed : ∃ reason, r.diagnostic? = some (.record [("path", .str r.path), ("error", .str reason)])
  violations : r.violationValues = []
  methods : r.methodValues = []
  count : r.findings.methodCount = 0

/-- What a scan says of a file. -/
structure Entry (s : Scanner) (files : Files) (path : FilePath) (r : FileResult) : Prop where
  shown : r.path = s.shownPath files path
  content : Analyzed s files path r ∨ Failed s files path r

theorem failed_entry {language : Option String} {reason : String}
    (unanalyzed : ∀ frontEnd findings, FrontEnd.ofPath? path = some frontEnd →
      (s.analyzeFile files path frontEnd).outcome ≠ .ok findings) :
    Entry s files path ⟨s.shownPath files path, language, .error reason⟩ :=
  ⟨rfl, .inr ⟨unanalyzed, ⟨reason, rfl⟩, rfl, rfl, rfl⟩⟩

/-- A file gets an entry, or its document cannot be loaded. -/
theorem scanFile_ends (whole : AreWhole s.thresholds) :
    Ends (Entry s files path) (Unloadable files path) (s.scanFile files path).outcome := by
  unfold Scanner.scanFile
  cases reads : FrontEnd.ofPath? path with
  | none => exact .ok (failed_entry fun frontEnd findings some => by simp [reads] at some)
  | some frontEnd =>
    have analysis : Ends _ _ (s.analyzeFile files path frontEnd).outcome := analyzeFile_ends whole reads
    simp only [Traced.outcome_bind, Traced.attempt]
    cases ran : (s.analyzeFile files path frontEnd).outcome with
    | ok findings => exact .ok ⟨rfl, .inl ⟨frontEnd, findings, reads, ran, rfl, rfl, rfl⟩⟩
    | error e =>
      rw [ran] at analysis
      have unanalyzed : ∀ other findings, FrontEnd.ofPath? path = some other →
          (s.analyzeFile files path other).outcome ≠ .ok findings := by
        intro other findings same
        rw [← Option.some.inj (reads.symm.trans same), ran]
        exact fun answered => nomatch answered
      by_cases contained : Contained e
      · obtain ⟨reason, text, failure⟩ := failure_contained (s.shownPath files path) contained
        simp only [bind, Except.bind, failure]
        exact .ok (failed_entry unanalyzed)
      · cases analysis with
        | error sorted =>
          simp only [bind, Except.bind, failure_escapes _ contained]
          exact .error (sorted.resolve_left contained)

theorem scanFile_unloadable {e : Fault} (unloadable : Unloadable files path e) :
    (s.scanFile files path).outcome = .error e := by
  have ended := analyzeFile_unloadable (s := s) unloadable
  obtain ⟨reads, _, _, _, escapes⟩ := unloadable
  unfold Scanner.scanFile
  simp only [reads, Traced.attempt, ended, bind, failure_escapes _ escapes]
  rfl

/-! ## Documents that are nested too deeply -/

/-- More opening brackets than the budget has levels are given up. -/
theorem readValue_brackets (budget extra index : Nat) :
    Json.readValue budget ⟨List.replicate (budget + 1 + extra) '[', index⟩ =
      .error (.fault .tooDeep) := by
  induction budget generalizing index with
  | zero =>
    rw [show 0 + 1 + extra = extra + 1 by omega, List.replicate_succ]
    rfl
  | succ budget ih =>
    have more : budget + 1 + 1 + extra = (budget + 1 + extra) + 1 := by omega
    have inside : (Json.Cursor.mk ('[' :: List.replicate (budget + 1 + extra) '[') index).drop 1 =
        ⟨List.replicate (budget + 1 + extra) '[', index + 1⟩ := rfl
    have head : budget + 1 + extra = (budget + extra) + 1 := by omega
    have spaceless : (Json.Cursor.mk (List.replicate (budget + 1 + extra) '[') (index + 1)).skipSpace =
        ⟨List.replicate (budget + 1 + extra) '[', index + 1⟩ := by
      rw [head, List.replicate_succ]
      rfl
    rw [more, List.replicate_succ]
    simp only [Json.readValue, inside, spaceless]
    split
    · rename_i closing
      simp [head, List.replicate_succ] at closing
    · rw [Json.readItems, ih]

theorem read_brackets (budget extra : Nat) :
    Json.read budget (String.ofList (List.replicate (budget + 1 + extra) '[')) =
      .error (.fault .tooDeep) := by
  have more : budget + 1 + extra = (budget + extra) + 1 := by omega
  have given := readValue_brackets budget extra 0
  rw [more, List.replicate_succ] at given ⊢
  have spaceless : (Json.Cursor.mk ('[' :: List.replicate (budget + extra) '[') 0).skipSpace =
      ⟨'[' :: List.replicate (budget + extra) '[', 0⟩ := rfl
  unfold Json.read
  rw [String.toList_ofList]
  dsimp only
  split
  · rename_i mark
    simp at mark
  · simp only [spaceless, given]

theorem bytes_brackets (n : Nat) :
    (String.ofList (List.replicate n '[')).toUTF8.data.toList = List.replicate n 91 := by
  rw [bytes_chars, String.toList_ofList]
  induction n with
  | zero => rfl
  | succ n ih =>
    rw [List.replicate_succ, List.flatMap_cons, ih, List.replicate_succ]
    rfl

theorem text_brackets {n : Nat} (bytes : files.bytes path = .ok (List.replicate n 91)) :
    files.text path = .ok (String.ofList (List.replicate n '[')) := by
  rw [← bytes_brackets] at bytes
  have bracket : ∀ c ∈ (String.ofList (List.replicate n '[')).toList, c = '[' := by
    rw [String.toList_ofList]
    exact fun c member => List.eq_of_mem_replicate member
  refine text_ascii (fun c member => ?_) (fun c member => ?_) bytes
  · rw [bracket c member]
    decide
  · rw [bracket c member]
    decide

/-- A file of so many brackets is one that stops its scan. -/
theorem brackets_unloadable {n : Nat} (deep : Tree.depthLimit < n)
    (document : FrontEnd.ofPath? path = some .document)
    (format : path.comparedExtension = Tree.jsonExtension)
    (bytes : files.bytes path = .ok (List.replicate n 91)) : Unloadable files path .tooDeep := by
  obtain ⟨extra, rfl⟩ : ∃ extra, n = Tree.depthLimit + 1 + extra := ⟨n - (Tree.depthLimit + 1), by omega⟩
  refine ⟨document, String.ofList (List.replicate (Tree.depthLimit + 1 + extra) '['), ?_, ?_, ?_⟩
  · rw [FrontEnd.textOf, text_brackets bytes]
    rfl
  · simp only [Tree.valueOf, format, if_true, read_brackets]
  · rintro (sort | sort) <;> cases sort

/-! ## Other files -/

/-- A file reads the same among other files, and is shown the same. -/
structure SameFile (s : Scanner) (files other : Files) (path : FilePath) : Prop where
  here : other.here = files.here
  root : other.isFile s.root = files.isFile s.root
  bytes : other.bytes path = files.bytes path

/-- What a scan says of a file depends on that file only. -/
theorem scanFile_same {other : Files} (same : SameFile s files other path) :
    s.scanFile other path = s.scanFile files path := by
  have text : FrontEnd.textOf other path = FrontEnd.textOf files path := by
    simp only [FrontEnd.textOf, Files.text, same.bytes]
  have shown : s.shownPath other path = s.shownPath files path := by
    simp only [Scanner.shownPath, same.here, same.root]
  have analyzed (frontEnd : FrontEnd) :
      s.analyzeFile other path frontEnd = s.analyzeFile files path frontEnd := by
    simp only [Scanner.analyzeFile, FrontEnd.parse, text, shown]
  unfold Scanner.scanFile
  simp only [analyzed, shown]

/-- The entries of some files in their order. -/
def entries (s : Scanner) (files : Files) (paths : List FilePath) : Except Fault (List FileResult) :=
  paths.mapM fun path => (s.scanFile files path).outcome

theorem scan_outcome {paths : List FilePath} (selected : s.selection.paths files s.root = .ok paths) :
    (s.scan files).outcome =
      (entries s files paths).map fun results => ⟨s.root, s.thresholds, s.reportsMethods, results⟩ := by
  simp only [Scanner.scan, Traced.outcome_bind, Traced.outcome_of, selected, Traced.debug,
    Traced.outcome_record, outcome_mapM, Traced.outcome_pure]
  rfl

/-- What holds of every scan with whole thresholds, whatever the files hold. -/
structure Isolates (s : Scanner) (files : Files) : Prop where
  /-- A file stops its scan exactly if it is a document that cannot be loaded. -/
  stops : ∀ path e, (s.scanFile files path).outcome = .error e ↔ Unloadable files path e
  /-- Any other file has an entry. -/
  entry : ∀ path, (∀ e, ¬ Unloadable files path e) →
    ∃ r, (s.scanFile files path).outcome = .ok r ∧ Entry s files path r
  /-- Some files have their entries in their order. -/
  order : ∀ paths, (∀ path ∈ paths, ∀ e, ¬ Unloadable files path e) →
    ∃ results, entries s files paths = .ok results ∧ List.Forall₂ (Entry s files) paths results
  /-- The entries of the other files are those of a scan without the file. -/
  others : ∀ before path after results other, entries s files (before ++ path :: after) = .ok results →
    (∀ p ∈ before ++ after, SameFile s files other p) →
    ∃ first r last, results = first ++ r :: last ∧ Entry s files path r ∧
      entries s other (before ++ after) = .ok (first ++ last)
  /-- A scan puts the entries of the files that it selects into its result. -/
  scan : ∀ paths, s.selection.paths files s.root = .ok paths →
    (s.scan files).outcome =
      (entries s files paths).map fun results => ⟨s.root, s.thresholds, s.reportsMethods, results⟩

/-- A directory with a document of two thousand opening brackets. -/
def deepDirectory : Files :=
  ⟨.directory [("deep.json", .file (List.replicate 2000 91))], ⟨.root, []⟩⟩

/-- The scanner of a directory with nothing else said. -/
def standardScanner : Scanner :=
  ⟨⟨.root, []⟩, ⟨Scanner.standardExclude, [], [.str "python"]⟩, .int 1, .standard, false⟩

end MethodLint.ScanIsolation
