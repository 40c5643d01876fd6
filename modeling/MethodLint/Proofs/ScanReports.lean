import MethodLint.Proofs.NestingDepth
import MethodLint.Proofs.PoolRuns
import MethodLint.Proofs.ScanIsolation

/-! The report of a scan adds up. What it counts is what there is in the files and in
its own lists, its lists are those of the files in the order of selection, and its
violations are the methods that it measures beyond the thresholds. How many workers
there were does not matter, and whether methods are listed makes no other difference. -/
namespace MethodLint.ScanReports
open Relation Outcomes Flags Findings NestingDepth FrontEndTrees ScanIsolation PoolRuns

variable {s : Scanner} {files : Files} {path : FilePath} {paths : List FilePath} {t : Thresholds}

/-! ## What a report should say -/

/-- The method declarations in the tree that the front end of a file makes of it. -/
def declarations (files : Files) (path : FilePath) : List Node :=
  ((FrontEnd.ofPath? path).bind fun frontEnd => (frontEnd.parse files path).outcome.toOption).elim [] methods

/-- The method declarations in those of some files that did not fail. -/
def analyzed (files : Files) : List FilePath → List FileResult → List Node
  | path :: paths, f :: results =>
    (if f.error?.isNone then declarations files path else []) ++ analyzed files paths results
  | _, _ => []

/-- The entry of a method says that it is strictly beyond all thresholds. -/
structure Beyond (t : Thresholds) (entry : Value) : Prop where
  loc : (entry.getD "loc").exceeds t.loc = .ok true
  cyclo : (entry.getD "cyclo").exceeds t.cyclo = .ok true
  nesting : entry.getD "nesting_exceeds" = .bool true
  noav : (entry.getD "noav").exceeds t.noav = .ok true

/-- Two values have the same at a key. -/
def Share (key : String) (v w : Value) : Prop := ∃ inner, v.get? key = some inner ∧ w.get? key = some inner

/-- The entry of a method and a violation say the same of the same method. -/
structure Matches (entry violation : Value) : Prop where
  method : ∀ key ∈ ["path", "method", "begin_line", "end_line"], Share key entry violation
  metrics : ∀ key ∈ ["loc", "cyclo", "nesting_exceeds", "noav"], Share key entry (violation.getD "metrics")

/-- The violations are those of the entries beyond the thresholds, in their order. -/
inductive Picked (t : Thresholds) : (listed violations : List Value) → Prop
  | none : Picked t [] []
  | take (beyond : Beyond t entry) (same : Matches entry violation) (later : Picked t listed violations) :
      Picked t (entry :: listed) (violation :: violations)
  | leave (within : ¬ Beyond t entry) (later : Picked t listed violations) :
      Picked t (entry :: listed) violations

/-- The entry of a method gives the greatest level of nesting in it, and that this one is
beyond the threshold exactly if it is. -/
def Nested (t : Thresholds) (entry : Value) : Prop :=
  ∃ depth : Nat, entry.get? "nesting_depth" = some (.int depth) ∧
    ∀ n : Int, 0 ≤ n → t.maxnesting = .int n → entry.get? "nesting_exceeds" = some (.bool (decide (n < depth)))

/-- The result of a scan of these files adds up. -/
structure Consistent (s : Scanner) (files : Files) (paths : List FilePath) (r : ScanResult) : Prop where
  each : List.Forall₂ (fun path f => (s.scanFile files path).outcome = .ok f) paths r.files
  summary : r.summary = .record [("files_scanned", .int paths.length),
    ("files_failed", .int r.diagnostics.length),
    ("methods_analyzed", .int (analyzed files paths r.files).length),
    ("violations", .int r.violations.length)]
  violations : r.violations = r.files.flatMap FileResult.violationValues
  diagnostics : r.diagnostics = r.files.filterMap FileResult.diagnostic?
  methods : s.reportsMethods = true → r.methods = r.files.flatMap FileResult.methodValues
  counted : s.reportsMethods = true → r.methods.length = (analyzed files paths r.files).length
  picked : s.reportsMethods = true → Picked s.thresholds r.methods r.violations
  nested : ∀ entry ∈ r.methods, Nested s.thresholds entry

/-- A mapping without one of its keys. -/
def without (key : String) : Value → Value
  | .map entries => .map (entries.filter fun entry => !entry.1.isText key)
  | v => v

/-- What the files of a scan come to, each by itself. -/
def tasks (s : Scanner) (files : Files) (paths : List FilePath) : List (Except Fault FileResult) :=
  paths.map fun path => (s.scanFile files path).outcome

/-- What holds of a scan, by however many workers. -/
structure Reports (s : Scanner) (files : Files) (paths : List FilePath) : Prop where
  /-- Any run of a pool that rests has come to what a scan of file after file comes to. -/
  order : ∀ workers > 0, ∀ p, Reached workers (tasks s files paths) p → p.Rests workers (tasks s files paths) →
    p.outcome.map (fun results => ⟨s.root, s.thresholds, s.reportsMethods, results⟩) = (s.scan files).outcome
  /-- Every run can be led to rest, and none goes on for ever. -/
  rests : ∀ workers p, Reached workers (tasks s files paths) p →
    ∃ q, ReflTransGen (Pool.Step workers (tasks s files paths)) p q ∧ q.Rests workers (tasks s files paths)
  bounded : ∀ workers n (run : Nat → Pool FileResult), run 0 = .start (tasks s files paths).length →
    (∀ i < n, Pool.Step workers (tasks s files paths) (run i) (run (i + 1))) → n ≤ 3 * paths.length + 1
  /-- There is a result unless some document cannot be loaded. -/
  answers : (∀ path ∈ paths, ∀ e, ¬ Unloadable files path e) → ∃ r, (s.scan files).outcome = .ok r
  /-- A result adds up. -/
  consistent : ∀ r, (s.scan files).outcome = .ok r → Consistent s files paths r
  /-- Without methods the rest is the same. -/
  plain : ∀ time, (Scanner.scan { s with reportsMethods := false } files).outcome.map (ScanResult.toValue · time) =
    (Scanner.scan { s with reportsMethods := true } files).outcome.map fun r : ScanResult =>
      without "methods" (r.toValue time)

/-! ## Measured methods and their findings -/

/-- What becomes of a measured method: a violation, or nothing. -/
def verdict (t : Thresholds) (shown : Option String) (m : Measured) : Except Fault (Option Violation) :=
  (isBrainMethod m.metrics t).map fun beyond => if beyond then some (.of m.method m.metrics t shown) else none

theorem finding_verdict (t : Thresholds) (shown : Option String) (d : Node) :
    finding t shown d = (d.declared.measure t).outcome >>= verdict t shown := by
  rw [declared_measure, finding]
  cases Method.ofNode d with
  | error e => rfl
  | ok m =>
    cases measured : m.measure t with
    | error e => simp [measured, bind, Except.bind]
    | ok metrics =>
      simp only [measured, bind, Except.bind, verdict]
      cases isBrainMethod metrics t <;> rfl

theorem mapM_bind_ok {α β γ : Type} {f : α → Except Fault β} {g : β → Except Fault γ} {items : List α}
    {answers : List γ} (ran : (items.mapM fun item => f item >>= g) = .ok answers) :
    ∃ between, items.mapM f = .ok between ∧ List.Forall₂ (fun b c => g b = .ok c) between answers := by
  induction items generalizing answers with
  | nil =>
    cases ran
    exact ⟨[], rfl, .nil⟩
  | cons item rest ih =>
    rw [List.mapM_cons] at ran
    obtain ⟨c, here, ran⟩ := bind_ok_iff.mp ran
    obtain ⟨others, later, ran⟩ := bind_ok_iff.mp ran
    cases ran
    obtain ⟨b, first, second⟩ := bind_ok_iff.mp here
    obtain ⟨between, between_ran, each⟩ := ih later
    refine ⟨b :: between, ?_, .cons second each⟩
    rw [List.mapM_cons, first, between_ran]
    rfl

/-- Where a tree is analyzed its methods are measured, and each one that is measured has
its verdict. -/
theorem analyze_measured {unit : Node} {shown : Option String} {violations : List Violation}
    (ran : (unit.analyze t shown).outcome = .ok violations) :
    ∃ ms found, (unit.measureMethods t).outcome = .ok ms ∧
      List.Forall₂ (fun m f => verdict t shown m = .ok f) ms found ∧ violations = found.filterMap id := by
  rw [analyze_outcome] at ran
  obtain ⟨found, judged, collected⟩ := bind_ok_iff.mp ran
  cases collected
  have both : (methods unit).mapM (finding t shown) =
      (methods unit).mapM fun d => (d.declared.measure t).outcome >>= verdict t shown :=
    mapM_congr fun d _ => finding_verdict t shown d
  rw [both] at judged
  obtain ⟨ms, measured, each⟩ := mapM_bind_ok judged
  exact ⟨ms, found, (measureMethods_outcome t unit).trans measured, each, rfl⟩

/-- The entry of a measured method in a report. -/
def entry (shown : String) (m : Measured) : Value := .record (("path", .str shown) :: m.fields)

theorem beyond_entry (shown : String) (m : Measured) : Beyond t (entry shown m) ↔
    m.metrics.loc.exceeds t.loc = .ok true ∧ (Value.int m.metrics.cyclo).exceeds t.cyclo = .ok true ∧
      m.metrics.nestingExceeds = true ∧ (Value.int m.metrics.noav).exceeds t.noav = .ok true := by
  have loc : (entry shown m).getD "loc" = m.metrics.loc := rfl
  have cyclo : (entry shown m).getD "cyclo" = .int m.metrics.cyclo := rfl
  have nesting : (entry shown m).getD "nesting_exceeds" = .bool m.metrics.nestingExceeds := rfl
  have noav : (entry shown m).getD "noav" = .int m.metrics.noav := rfl
  constructor
  · rintro ⟨long, complex, nested, many⟩
    rw [nesting] at nested
    exact ⟨loc ▸ long, cyclo ▸ complex, Value.bool.inj nested, noav ▸ many⟩
  · rintro ⟨long, complex, nested, many⟩
    exact ⟨loc ▸ long, cyclo ▸ complex, nesting.trans (congrArg _ nested), noav ▸ many⟩

theorem entry_matches (shown : String) (m : Measured) (t : Thresholds) :
    Matches (entry shown m) (Violation.of m.method m.metrics t (some shown)).toValue := by
  refine ⟨fun key member => ?_, fun key member => ?_⟩
  · simp only [List.mem_cons, List.not_mem_nil, or_false] at member
    rcases member with rfl | rfl | rfl | rfl <;> exact ⟨_, rfl, rfl⟩
  · simp only [List.mem_cons, List.not_mem_nil, or_false] at member
    rcases member with rfl | rfl | rfl | rfl <;> exact ⟨_, rfl, rfl⟩

theorem picked_verdicts {shown : String} {ms : List Measured} {found : List (Option Violation)}
    (each : List.Forall₂ (fun m f => verdict t (some shown) m = .ok f) ms found) :
    Picked t (ms.map (entry shown)) ((found.filterMap id).map Violation.toValue) := by
  induction each with
  | nil => exact .none
  | @cons m f ms found here _ ih =>
    unfold verdict at here
    cases judged : isBrainMethod m.metrics t with
    | error e =>
      rw [judged] at here
      cases here
    | ok beyond =>
      have meaning := (isBrainMethod_iff judged).trans (beyond_entry shown m).symm
      rw [judged] at here
      cases here
      cases beyond with
      | true => exact .take (meaning.mp rfl) (entry_matches shown m t) ih
      | false => exact .leave (fun beyond => Bool.false_ne_true (meaning.mpr beyond)) ih

theorem picked_append {listed others violations further : List Value} (first : Picked t listed violations)
    (second : Picked t others further) : Picked t (listed ++ others) (violations ++ further) := by
  induction first with
  | none => exact second
  | take beyond same _ ih => exact .take beyond same ih
  | leave within _ ih => exact .leave within ih

/-! ## Levels of nesting -/

theorem nested_measured {d : Declaration} {m : Measured} (shown : String)
    (measured : (d.measure t).outcome = .ok m) : Nested t (entry shown m) := by
  unfold Declaration.measure at measured
  rw [Traced.outcome_bind] at measured
  obtain ⟨method, _, measured⟩ := bind_ok_iff.mp measured
  rw [Traced.outcome_bind] at measured
  obtain ⟨metrics, taken, measured⟩ := bind_ok_iff.mp measured
  cases measured
  refine ⟨Method.deepest d.levels, rfl, fun n natural threshold => ?_⟩
  have taken : method.measureAt d.levels t = .ok metrics := taken
  obtain ⟨_, _, taken⟩ := bind_ok_iff.mp taken
  obtain ⟨_, _, taken⟩ := bind_ok_iff.mp taken
  obtain ⟨exceeds, compared, taken⟩ := bind_ok_iff.mp taken
  cases taken
  rw [threshold, anyExceeds_int] at compared
  cases compared
  exact congrArg (fun answer => some (Value.bool answer)) (any_deepest natural d.levels)

/-! ## One file -/

/-- A front end makes compilation units, so the root of a tree is not a method itself. -/
theorem parse_kind {frontEnd : FrontEnd} {unit : Node} (parsed : (frontEnd.parse files path).outcome = .ok unit) :
    unit.kind = Kind.compilationUnit := by
  unfold FrontEnd.parse at parsed
  rw [Traced.outcome_bind] at parsed
  obtain ⟨text, _, parsed⟩ := bind_ok_iff.mp parsed
  cases frontEnd with
  | source =>
    simp only [Source.unitOf] at parsed
    split at parsed
    · cases parsed
    · cases parsed
    · split at parsed
      · cases parsed
      · split at parsed
        · cases parsed
        · cases parsed
          rfl
  | document =>
    simp only [Tree.unitOf, Traced.outcome_bind] at parsed
    obtain ⟨v, _, parsed⟩ := bind_ok_iff.mp parsed
    obtain ⟨root, _, parsed⟩ := bind_ok_iff.mp parsed
    split at parsed
    · rename_i kind
      cases parsed
      rw [← kind]
      unfold Tree.withPath
      split <;> rfl
    · cases parsed
      rfl

theorem count_methods {unit : Node} (kind : unit.kind = Kind.compilationUnit) :
    (unit.descendants.countP fun n => n.kind = Kind.methodDeclaration) = (methods unit).length := by
  have other : ¬ unit.kind = Kind.methodDeclaration := by
    rw [kind]
    decide
  rw [List.countP_eq_length_filter, methods, List.filter_cons_of_neg (by simpa using other)]

/-- Without its log the analysis of a file is one of its tree. -/
theorem analyzeFile_outcome (s : Scanner) (files : Files) (path : FilePath) (frontEnd : FrontEnd) :
    (s.analyzeFile files path frontEnd).outcome = (frontEnd.parse files path).outcome >>= fun unit =>
      (unit.analyze s.thresholds (some (s.shownPath files path))).outcome >>= fun violations =>
        (if s.reportsMethods then (unit.measureMethods s.thresholds).outcome else .ok []) >>= fun methods =>
          .ok ⟨unit.descendants.countP fun n => n.kind = Kind.methodDeclaration, violations, methods⟩ := by
  unfold Scanner.analyzeFile
  simp only [Traced.outcome_bind]
  cases s.reportsMethods <;> simp only [if_true, Bool.false_eq_true, if_false, Traced.outcome_bind,
    Traced.outcome_pure]

/-- A file that was analyzed has a tree, and its findings are those of the tree. -/
structure Found (s : Scanner) (files : Files) (path : FilePath) (f : FileResult) (unit : Node)
    (ms : List Measured) (found : List (Option Violation)) : Prop where
  declared : declarations files path = methods unit
  measured : (unit.measureMethods s.thresholds).outcome = .ok ms
  judged : List.Forall₂ (fun m v => verdict s.thresholds (some f.path) m = .ok v) ms found
  findings : f.findings =
    ⟨(methods unit).length, found.filterMap id, if s.reportsMethods then ms else []⟩

theorem scanFile_found (whole : AreWhole s.thresholds) {f : FileResult}
    (ran : (s.scanFile files path).outcome = .ok f) :
    (f.error?.isSome = true ∧ f.findings = ⟨0, [], []⟩) ∨
      (f.error? = none ∧ ∃ unit ms found, Found s files path f unit ms found) := by
  cases failed : f.error? with
  | some reason =>
    refine .inl ⟨rfl, ?_⟩
    unfold FileResult.error? at failed
    unfold FileResult.findings
    split at failed
    · cases failed
    · rfl
  | none =>
    have ends : Ends (Entry s files path) (Unloadable files path) _ := scanFile_ends whole
    rw [ran] at ends
    obtain ⟨shown, content⟩ : Entry s files path f := by
      cases ends with
      | ok entry => exact entry
    rcases content with ⟨frontEnd, findings, reads, analyzedFile, _, same, _⟩ | failure
    · rw [analyzeFile_outcome] at analyzedFile
      obtain ⟨unit, parsed, analyzedFile⟩ := bind_ok_iff.mp analyzedFile
      obtain ⟨violations, analyzedUnit, analyzedFile⟩ := bind_ok_iff.mp analyzedFile
      obtain ⟨listed, given, analyzedFile⟩ := bind_ok_iff.mp analyzedFile
      obtain ⟨ms, found, measured, judged, rfl⟩ := analyze_measured analyzedUnit
      cases analyzedFile
      refine .inr ⟨rfl, unit, ms, found, ?_, measured, shown ▸ judged, ?_⟩
      · rw [declarations, reads, Option.bind_some, parsed]
        rfl
      · rw [same, count_methods (parse_kind parsed)]
        cases reports : s.reportsMethods with
        | true =>
          simp only [reports, if_true, measured] at given
          cases given
          rfl
        | false =>
          simp only [reports, Bool.false_eq_true, if_false] at given
          cases given
          rfl
    · obtain ⟨reason, diagnosed⟩ := failure.diagnosed
      rw [FileResult.diagnostic?, failed] at diagnosed
      cases diagnosed

/-! ## All files -/

theorem totals_fold (reportsMethods : Bool) (results : List FileResult) (totals : Totals) :
    results.foldl (Totals.add reportsMethods) totals =
      { scanned := totals.scanned + results.length
        analyzed := results.foldl (fun count f => count + f.findings.methodCount) totals.analyzed
        failed := totals.failed + (results.filterMap FileResult.diagnostic?).length
        violations := totals.violations ++ results.flatMap FileResult.violationValues
        methods := totals.methods ++ if reportsMethods then results.flatMap FileResult.methodValues else []
        diagnostics := totals.diagnostics ++ results.filterMap FileResult.diagnostic? } := by
  induction results generalizing totals with
  | nil => simp
  | cons f rest ih =>
    rw [List.foldl_cons, ih, Totals.add]
    cases outcome : f.outcome with
    | ok findings =>
      have fine : f.diagnostic? = none := by simp [FileResult.diagnostic?, FileResult.error?, outcome]
      simp only [fine, List.foldl_cons, List.length_cons, List.flatMap_cons, List.filterMap_cons, List.append_assoc]
      cases reportsMethods <;> simp <;> omega
    | error reason =>
      have nothing : f.findings = ⟨0, [], []⟩ := by simp [FileResult.findings, outcome]
      have diagnosed : f.diagnostic? = some (.record [("path", .str f.path), ("error", .str reason)]) := by
        simp [FileResult.diagnostic?, FileResult.error?, outcome]
      simp only [diagnosed, nothing, FileResult.violationValues, FileResult.methodValues, List.foldl_cons,
        List.length_cons, List.flatMap_cons, List.filterMap_cons, List.append_assoc, List.map_nil, List.nil_append]
      cases reportsMethods <;> simp <;> omega

section

variable {results : List FileResult} (whole : AreWhole s.thresholds)
  (each : List.Forall₂ (fun path f => (s.scanFile files path).outcome = .ok f) paths results)

include whole each

/-- The methods that are counted are those in the files that were analyzed. -/
theorem analyzed_count (before : Nat) : results.foldl (fun count f => count + f.findings.methodCount) before =
    before + (analyzed files paths results).length := by
  induction each generalizing before with
  | nil => rfl
  | cons here _ ih =>
    rw [List.foldl_cons, ih, analyzed, List.length_append, ← Nat.add_assoc]
    rcases scanFile_found whole here with ⟨failed, nothing⟩ | ⟨fine, unit, ms, found, parts⟩
    · simp [nothing, Option.isNone_eq_false_iff.mpr failed]
    · simp [parts.findings, parts.declared, fine]

/-- Where methods are listed, every method that is counted is. -/
theorem listed_count (reports : s.reportsMethods = true) :
    (results.flatMap FileResult.methodValues).length = (analyzed files paths results).length := by
  induction each with
  | nil => rfl
  | cons here _ ih =>
    rw [List.flatMap_cons, List.length_append, ih, analyzed, List.length_append]
    rcases scanFile_found whole here with ⟨failed, nothing⟩ | ⟨fine, unit, ms, found, parts⟩
    · simp [FileResult.methodValues, nothing, Option.isNone_eq_false_iff.mpr failed]
    · have measured := parts.measured
      rw [measureMethods_outcome] at measured
      have lengths := (mapM_ok_forall measured).length_eq
      simp [FileResult.methodValues, parts.findings, parts.declared, fine, reports, lengths]

theorem listed_picked (reports : s.reportsMethods = true) : Picked s.thresholds
    (results.flatMap FileResult.methodValues) (results.flatMap FileResult.violationValues) := by
  induction each with
  | nil => exact .none
  | @cons path f _ _ here _ ih =>
    rw [List.flatMap_cons, List.flatMap_cons]
    refine picked_append ?_ ih
    rw [FileResult.methodValues, FileResult.violationValues]
    rcases scanFile_found whole here with ⟨_, nothing⟩ | ⟨_, unit, ms, found, parts⟩
    · rw [nothing]
      exact .none
    · rw [parts.findings, if_pos reports]
      exact picked_verdicts parts.judged

theorem listed_nested : ∀ entry ∈ results.flatMap FileResult.methodValues, Nested s.thresholds entry := by
  intro entry member
  obtain ⟨f, listed, member⟩ := List.mem_flatMap.mp member
  obtain ⟨m, measured, rfl⟩ := List.mem_map.mp member
  obtain ⟨path, _, here⟩ := item_of_mem each listed
  rcases scanFile_found whole here with ⟨_, nothing⟩ | ⟨_, unit, ms, found, parts⟩
  · rw [nothing] at measured
    exact absurd measured List.not_mem_nil
  · have inside : m ∈ ms := by
      rw [parts.findings] at measured
      cases reports : s.reportsMethods with
      | true => simpa [reports] using measured
      | false => simp [reports] at measured
    have taken := parts.measured
    rw [measureMethods_outcome] at taken
    obtain ⟨d, _, ran⟩ := item_of_mem (mapM_ok_forall taken) inside
    exact nested_measured f.path ran

theorem consistent (root : FilePath) :
    Consistent s files paths ⟨root, s.thresholds, s.reportsMethods, results⟩ := by
  have totals := totals_fold s.reportsMethods results .start
  have counted := analyzed_count whole each 0
  have violations : ScanResult.violations ⟨root, s.thresholds, s.reportsMethods, results⟩ =
      results.flatMap FileResult.violationValues := by
    rw [ScanResult.violations, ScanResult.totals, totals]
    rfl
  have diagnostics : ScanResult.diagnostics ⟨root, s.thresholds, s.reportsMethods, results⟩ =
      results.filterMap FileResult.diagnostic? := by
    rw [ScanResult.diagnostics, ScanResult.totals, totals]
    rfl
  have methods : ScanResult.methods ⟨root, s.thresholds, s.reportsMethods, results⟩ =
      if s.reportsMethods then results.flatMap FileResult.methodValues else [] := by
    rw [ScanResult.methods, ScanResult.totals, totals]
    rfl
  refine ⟨each, ?_, violations, diagnostics, fun reports => ?_, fun reports => ?_, fun reports => ?_, ?_⟩
  · rw [ScanResult.summary, diagnostics, ScanResult.totals, totals, each.length_eq]
    simp only [Totals.start, counted, Nat.zero_add]
  · rw [methods, if_pos reports]
  · rw [methods, if_pos reports, listed_count whole each reports]
  · rw [methods, if_pos reports, violations]
    exact listed_picked whole each reports
  · rw [methods]
    split
    · exact listed_nested whole each
    · simp

end

/-! ## Without methods -/

/-- The result of a file without its methods. -/
def bare (f : FileResult) : FileResult :=
  { f with outcome := f.outcome.map fun findings => { findings with methods := [] } }

theorem mapM_map_ok {α β γ : Type} (f : α → Except Fault β) (g : β → γ) (items : List α) :
    (items.mapM fun item => (f item).map g) = (items.mapM f).map (List.map g) := by
  induction items with
  | nil => rfl
  | cons item rest ih =>
    rw [List.mapM_cons, List.mapM_cons, ih]
    cases f item with
    | error e => rfl
    | ok b => cases rest.mapM f <;> rfl

/-- Where a file is analyzed its methods can be measured too, so listing them stops nobody. -/
theorem analyzeFile_plain (s : Scanner) (files : Files) (path : FilePath) (frontEnd : FrontEnd) :
    (Scanner.analyzeFile { s with reportsMethods := false } files path frontEnd).outcome =
      (Scanner.analyzeFile { s with reportsMethods := true } files path frontEnd).outcome.map
        fun findings => { findings with methods := [] } := by
  rw [analyzeFile_outcome, analyzeFile_outcome]
  cases (frontEnd.parse files path).outcome with
  | error e => rfl
  | ok unit =>
    change ((unit.analyze s.thresholds (some (s.shownPath files path))).outcome >>= _) =
      ((unit.analyze s.thresholds (some (s.shownPath files path))).outcome >>= _).map _
    cases analyzed : (unit.analyze s.thresholds (some (s.shownPath files path))).outcome with
    | error e => rfl
    | ok violations =>
      obtain ⟨ms, _, measured, _⟩ := analyze_measured analyzed
      simp only [bind, Except.bind, if_true, measured]
      rfl

theorem scanFile_plain (s : Scanner) (files : Files) (path : FilePath) :
    (Scanner.scanFile { s with reportsMethods := false } files path).outcome =
      (Scanner.scanFile { s with reportsMethods := true } files path).outcome.map bare := by
  unfold Scanner.scanFile
  cases FrontEnd.ofPath? path with
  | none => rfl
  | some frontEnd =>
    have plain := analyzeFile_plain s files path frontEnd
    simp only [Traced.outcome_bind, Traced.attempt, plain]
    cases (Scanner.analyzeFile { s with reportsMethods := true } files path frontEnd).outcome with
    | ok findings => rfl
    | error e =>
      have shown (reports : Bool) :
          ({ s with reportsMethods := reports } : Scanner).shownPath files path = s.shownPath files path := rfl
      simp only [shown, Except.map, bind, Except.bind]
      cases Scanner.failure? (s.shownPath files path) e <;> rfl

theorem totals_bare (results : List FileResult) :
    (results.map bare).foldl (Totals.add false) .start =
      { results.foldl (Totals.add true) .start with methods := [] } := by
  have counts (f : FileResult) : (bare f).findings.methodCount = f.findings.methodCount := by
    unfold bare FileResult.findings
    cases f.outcome <;> rfl
  have violations (f : FileResult) : (bare f).violationValues = f.violationValues := by
    unfold bare FileResult.violationValues FileResult.findings
    cases f.outcome <;> rfl
  have diagnostics (f : FileResult) : (bare f).diagnostic? = f.diagnostic? := by
    unfold bare FileResult.diagnostic? FileResult.error?
    cases f.outcome <;> rfl
  rw [totals_fold, totals_fold, List.length_map, List.foldl_map, List.flatMap_map, List.filterMap_map]
  simp only [counts, violations, Function.comp_def, diagnostics]
  rfl

/-- The value of a result without methods is that of the result with them, less one key. -/
theorem toValue_plain (root : FilePath) (t : Thresholds) (results : List FileResult) (time : String) :
    ScanResult.toValue ⟨root, t, false, results.map bare⟩ time =
      without "methods" (ScanResult.toValue ⟨root, t, true, results⟩ time) := by
  have totals : ScanResult.totals ⟨root, t, false, results.map bare⟩ =
      { ScanResult.totals ⟨root, t, true, results⟩ with methods := [] } := totals_bare results
  unfold ScanResult.toValue ScanResult.summary ScanResult.violations ScanResult.diagnostics
  rw [totals]
  rfl

/-! ## Every scan -/

theorem file_answers (whole : AreWhole s.thresholds) (loadable : ∀ e, ¬ Unloadable files path e) :
    ∃ f, (s.scanFile files path).outcome = .ok f ∧ Entry s files path f := by
  have ends : Ends (Entry s files path) (Unloadable files path) _ := scanFile_ends whole
  cases ran : (s.scanFile files path).outcome with
  | ok f =>
    rw [ran] at ends
    cases ends with
    | ok entry => exact ⟨f, rfl, entry⟩
  | error e =>
    rw [ran] at ends
    cases ends with
    | error unloadable => exact absurd unloadable (loadable e)

/-- **Reports add up.** However many workers there are and in whatever order they are
done, a scan comes to what it comes to file after file: there is a result unless a
document cannot be loaded, and it counts and lists what is in the files. -/
theorem scan_report_consistent {root : FilePath} {exclude extensions languages workers config : Value}
    {reportsMethods : Bool}
    (made : Scanner.make root exclude extensions languages workers config reportsMethods = .ok s)
    (files : Files) (paths : List FilePath) (selected : s.selection.paths files s.root = .ok paths) :
    Reports s files paths := by
  have whole := make_thresholds made
  have together : (tasks s files paths).mapM id = entries s files paths := by
    rw [tasks, List.mapM_map]
    rfl
  refine ⟨?_, ?_, ?_, ?_, ?_, ?_⟩
  · intro workers some p reached rests
    rw [outcome_at_rest (orderly_reached reached) some rests, together, scan_outcome selected]
  · intro workers p reached
    exact rests_eventually (orderly_reached reached)
  · intro workers n run first steps
    have bounded := run_bounded first steps
    rwa [tasks, List.length_map] at bounded
  · intro loadable
    obtain ⟨results, ran, _⟩ := mapM_total fun path member => file_answers whole (loadable path member)
    have each : entries s files paths = .ok results := ran
    exact ⟨⟨s.root, s.thresholds, s.reportsMethods, results⟩, by rw [scan_outcome selected, each]; rfl⟩
  · intro r ran
    rw [scan_outcome selected] at ran
    cases each : entries s files paths with
    | error e =>
      rw [each] at ran
      cases ran
    | ok results =>
      rw [each] at ran
      cases ran
      exact consistent whole (mapM_ok_forall each) s.root
  · intro time
    have plain : entries { s with reportsMethods := false } files paths =
        (entries { s with reportsMethods := true } files paths).map (List.map bare) := by
      rw [entries, mapM_congr fun path _ => scanFile_plain s files path, mapM_map_ok]
      rfl
    rw [scan_outcome (s := { s with reportsMethods := false }) selected,
      scan_outcome (s := { s with reportsMethods := true }) selected, plain]
    cases entries { s with reportsMethods := true } files paths with
    | error e => rfl
    | ok results => exact congrArg Except.ok (toValue_plain s.root s.thresholds results time)

/-- A directory with the tree of a method and a document that ends too early. -/
def halfDirectory : Files :=
  ⟨.directory [("a.json", .file "\x7b\"kind\": \"MethodDeclaration\", \"name\": \"f\"\x7d".toUTF8.data.toList),
    ("b.json", .file [91])], ⟨.root, []⟩⟩

/-- The scanner of the tree documents of a directory, with the methods in them. -/
def treeScanner : Scanner :=
  ⟨⟨.root, []⟩, ⟨.list [.str "vendor"], [], [.str "tree"]⟩, .int 2, .standard, true⟩

set_option maxRecDepth 4000 in
/-- Both documents are selected; one fails, and the method in the other one is counted. -/
theorem half_directory_reported :
    Scanner.make ⟨.root, []⟩ (.list [.str "vendor"]) .null (.list [.str "tree"]) (.int 2) .null true = .ok treeScanner ∧
      treeScanner.selection.paths halfDirectory treeScanner.root =
        .ok [⟨.root, ["a.json"]⟩, ⟨.root, ["b.json"]⟩] ∧
      Reports treeScanner halfDirectory [⟨.root, ["a.json"]⟩, ⟨.root, ["b.json"]⟩] ∧
      ((entries treeScanner halfDirectory [⟨.root, ["a.json"]⟩, ⟨.root, ["b.json"]⟩]).toOption.map
        fun results => results.map fun f => (f.findings.methodCount, f.error?.isNone)) =
          some [(1, true), (0, false)] := by
  have made : Scanner.make ⟨.root, []⟩ (.list [.str "vendor"]) .null (.list [.str "tree"]) (.int 2) .null true =
      .ok treeScanner := rfl
  have found : treeScanner.selection.foundAmong ⟨.here, []⟩ halfDirectory.top.entries =
      .ok [⟨"a.json", false, [⟨.here, ["a.json"]⟩]⟩, ⟨"b.json", false, [⟨.here, ["b.json"]⟩]⟩] := by rfl
  have arranged : arrange [⟨"a.json", false, [⟨.here, ["a.json"]⟩]⟩, ⟨"b.json", false, [⟨.here, ["b.json"]⟩]⟩] =
      [⟨.here, ["a.json"]⟩, ⟨.here, ["b.json"]⟩] := by
    rw [arrange, List.mergeSort_of_pairwise (by decide +kernel)]
    rfl
  have selected : treeScanner.selection.paths halfDirectory treeScanner.root =
      .ok [⟨.root, ["a.json"]⟩, ⟨.root, ["b.json"]⟩] := by
    change (treeScanner.selection.foundAmong ⟨.here, []⟩ halfDirectory.top.entries >>= fun found =>
      .ok (arrange found)).map (List.map treeScanner.root.join) = _
    rw [found]
    simp only [bind, Except.bind, Except.map, arranged]
    rfl
  exact ⟨made, selected, scan_report_consistent made halfDirectory _ selected, by decide +kernel⟩

end MethodLint.ScanReports
