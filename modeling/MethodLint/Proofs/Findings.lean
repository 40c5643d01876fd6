import MethodLint.Proofs.Flags

/-! The analysis of one tree is all or nothing. Either every method declaration in
it could be measured, and then the findings are those of the methods beyond all
four thresholds, each once and in pre-order; or one of them could not, and then
there are no findings at all. -/
namespace MethodLint.Findings
open Outcomes Walks Flags

/-- The method declarations of a tree in pre-order, the root first if it is one. -/
def methods (root : Node) : List Node :=
  (root :: root.descendants).filter fun d => d.kind = Kind.methodDeclaration

/-- The lines of every method declaration of a tree are known or left out. -/
def LinesKnown (root : Node) : Prop :=
  ∀ d ∈ methods root, IsLine d.header.beginLine ∧ IsLine d.header.endLine

/-- The declaration has this name, these lines and this body, and its metrics are
these. -/
structure Measures (t : Thresholds) (d : Node) (m : Method) (s : Snapshot) : Prop where
  declares : d.header.variant = .methodDeclaration m.name
  named : m.name ≠ .null
  beginLine : m.beginLine = d.header.beginLine
  endLine : m.endLine = d.header.endLine
  children : m.children = d.children
  metrics : m.measure t = .ok s

/-- Each of the four metrics is strictly beyond its threshold. -/
structure Exceeds (cyclo noav loc : Int) (s : Snapshot) : Prop where
  loc : s.loc.exceeds (.int loc) = .ok true
  cyclo : cyclo < s.cyclo
  nesting : s.nestingExceeds = true
  noav : noav < s.noav

/-- The violation says of a method what was measured, and where. -/
structure Reports (d : Node) (m : Method) (s : Snapshot) (path : Option String) (v : Violation) :
    Prop where
  rule : v.rule = ruleName
  method : v.method = m.name
  beginLine : v.beginLine = d.header.beginLine
  endLine : v.endLine = d.header.endLine
  metrics : v.metrics = some s
  path : v.path = path

/-- The violations of some declarations: in their order, one for each of those
beyond the thresholds and none for any other. -/
inductive Found (cyclo maxnesting noav loc : Int) (path : Option String) :
    List Node → List Violation → Prop where
  | none : Found cyclo maxnesting noav loc path [] []
  | report (measured : Measures (.ofInts cyclo maxnesting noav loc) d m s)
      (beyond : Exceeds cyclo noav loc s) (reported : Reports d m s path v)
      (later : Found cyclo maxnesting noav loc path ds vs) :
      Found cyclo maxnesting noav loc path (d :: ds) (v :: vs)
  | pass (measured : Measures (.ofInts cyclo maxnesting noav loc) d m s)
      (within : ¬ Exceeds cyclo noav loc s)
      (later : Found cyclo maxnesting noav loc path ds vs) :
      Found cyclo maxnesting noav loc path (d :: ds) vs

variable {cyclo maxnesting noav loc : Int} {path : Option String}

/-! ## One declaration -/

/-- What an analysis makes of one declaration, without its log. -/
def finding (t : Thresholds) (path : Option String) (d : Node) : Except Fault (Option Violation) := do
  let m ← Method.ofNode d
  let s ← m.measure t
  let beyond ← isBrainMethod s t
  return if beyond then some (.of m s t path) else none

/-- The method of a node keeps the node's lines and children. -/
theorem ofNode_ok {d : Node} {m : Method} (made : Method.ofNode d = .ok m) :
    d.header.variant = .methodDeclaration m.name ∧ m.name ≠ .null ∧
      m.beginLine = d.header.beginLine ∧ m.endLine = d.header.endLine ∧ m.children = d.children := by
  unfold Method.ofNode at made
  obtain ⟨name, named, made⟩ := bind_ok_iff.mp made
  cases made
  unfold Header.methodName? at named
  cases variant : d.header.variant with
  | methodDeclaration given =>
    simp only [variant] at named
    split at named
    · cases named
    · rename_i present
      cases named
      exact ⟨rfl, fun null => present (isNull_iff.mpr null), rfl, rfl, rfl⟩
  | _ => simp [variant] at named

theorem guarded_ofNode (d : Node) : Guarded (¬ HasName d.header) (Method.ofNode d) := by
  unfold Method.ofNode
  have whole := guarded_bind (guarded_name d.header) fun name _ =>
    guarded_ok (⟨name, d.header.beginLine, d.header.endLine, d.children⟩ : Method)
  exact (guarded_congr (by simp)).mp whole

/-- A method with known lines is measured unless a flag is missing below it. -/
theorem guarded_measure (m : Method) (first : IsLine m.beginLine) (last : IsLine m.endLine) :
    Guarded (∃ d ∈ m.descendants, Unflagged d) (m.measure (.ofInts cyclo maxnesting noav loc)) := by
  obtain ⟨span, known, _⟩ := loc_number m first last
  unfold Method.measure Method.measureAt
  simp only [known, Thresholds.ofInts, anyExceeds_int]
  have whole := guarded_bind (guarded_cyclo m) fun complexity _ =>
    guarded_ok (⟨span, complexity, m.nestingLevels.any fun level => decide (maxnesting < level),
      m.noav⟩ : Snapshot)
  exact (guarded_congr (by simp)).mp whole

theorem measured_loc {m : Method} {t : Thresholds} {s : Snapshot} (measured : m.measure t = .ok s) :
    m.loc = .ok s.loc := by
  unfold Method.measure Method.measureAt at measured
  obtain ⟨span, known, measured⟩ := bind_ok_iff.mp measured
  obtain ⟨_, _, measured⟩ := bind_ok_iff.mp measured
  obtain ⟨_, _, measured⟩ := bind_ok_iff.mp measured
  cases measured
  exact known

/-- The policy reports just what is beyond all four thresholds. -/
theorem isBrainMethod_iff {m : Snapshot} {t : Thresholds} {answer : Bool} (judged : isBrainMethod m t = .ok answer) :
    answer = true ↔ m.loc.exceeds t.loc = .ok true ∧ (Value.int m.cyclo).exceeds t.cyclo = .ok true ∧
      m.nestingExceeds = true ∧ (Value.int m.noav).exceeds t.noav = .ok true := by
  unfold isBrainMethod at judged
  obtain ⟨long, first, judged⟩ := bind_ok_iff.mp judged
  cases long with
  | false =>
    cases judged
    simp [first]
  | true =>
    obtain ⟨complex, second, judged⟩ := bind_ok_iff.mp judged
    cases complex with
    | false =>
      cases judged
      simp [second]
    | true =>
      cases nested : m.nestingExceeds with
      | false =>
        rw [nested] at judged
        cases judged
        simp
      | true =>
        rw [nested] at judged
        have last : (Value.int m.noav).exceeds t.noav = .ok answer := judged
        simp [first, second, last]

/-- The policy answers for a line span that is a number, and its answer is that
all four metrics are beyond their thresholds. -/
theorem policy_answers (cyclo maxnesting noav loc : Int) (s : Snapshot)
    (span : s.loc.number?.isSome = true) :
    ∃ answer, isBrainMethod s (.ofInts cyclo maxnesting noav loc) = .ok answer ∧
      (answer = true ↔ Exceeds cyclo noav loc s) := by
  obtain ⟨long, compared⟩ := exceeds_number (b := .int loc) span rfl
  refine ⟨long && decide (cyclo < s.cyclo) && s.nestingExceeds && decide (noav < s.noav), ?_, ?_⟩
  · by_cases complex : cyclo < s.cyclo <;> cases long <;> cases nested : s.nestingExceeds <;>
      simp [isBrainMethod, Thresholds.ofInts, compared, nested, complex, bind, Except.bind, pure,
        Except.pure]
  · simp only [Bool.and_eq_true, decide_eq_true_eq, and_assoc]
    constructor
    · rintro ⟨rfl, complex, nested, many⟩
      exact ⟨compared, complex, nested, many⟩
    · intro beyond
      have same := compared.symm.trans beyond.loc
      exact ⟨Except.ok.inj same, beyond.cyclo, beyond.nesting, beyond.noav⟩

theorem guarded_finding (cyclo maxnesting noav loc : Int) (path : Option String) (d : Node)
    (lines : IsLine d.header.beginLine ∧ IsLine d.header.endLine) :
    Guarded (Malformed d) (finding (.ofInts cyclo maxnesting noav loc) path d) := by
  have whole : Guarded (¬ HasName d.header ∨ (∃ below ∈ d.descendants, Unflagged below) ∨ False)
      (finding (.ofInts cyclo maxnesting noav loc) path d) := by
    refine guarded_bind (guarded_ofNode d) fun m made => ?_
    obtain ⟨_, _, first, last, children⟩ := ofNode_ok made
    have below : m.descendants = d.descendants := by
      rw [method_descendants, descendants_preorder, children]
    rw [← below]
    refine guarded_bind (guarded_measure m (first ▸ lines.1) (last ▸ lines.2)) fun s measured => ?_
    obtain ⟨span, known, number⟩ := loc_number m (first ▸ lines.1) (last ▸ lines.2)
    have spanned : span = s.loc := Except.ok.inj (known.symm.trans (measured_loc measured))
    obtain ⟨answer, judged, _⟩ := policy_answers cyclo maxnesting noav loc s
      (spanned ▸ number)
    rw [judged]
    exact guarded_ok _
  exact (guarded_congr (by simp [Malformed])).mp whole

/-- What is found of a declaration is what the relation of findings asks for. -/
theorem finding_found {d : Node} {found : Option Violation} {ds : List Node} {vs : List Violation}
    (lines : IsLine d.header.beginLine ∧ IsLine d.header.endLine)
    (ran : finding (.ofInts cyclo maxnesting noav loc) path d = .ok found)
    (later : Found cyclo maxnesting noav loc path ds vs) :
    Found cyclo maxnesting noav loc path (d :: ds) (found.toList ++ vs) := by
  obtain ⟨m, made, ran⟩ := bind_ok_iff.mp ran
  obtain ⟨s, measured, ran⟩ := bind_ok_iff.mp ran
  obtain ⟨declares, named, first, last, children⟩ := ofNode_ok made
  have measures : Measures (.ofInts cyclo maxnesting noav loc) d m s :=
    ⟨declares, named, first, last, children, measured⟩
  obtain ⟨span, known, number⟩ := loc_number m (first ▸ lines.1) (last ▸ lines.2)
  have spanned : span = s.loc := Except.ok.inj (known.symm.trans (measured_loc measured))
  obtain ⟨answer, judged, meaning⟩ := policy_answers cyclo maxnesting noav loc s
    (spanned ▸ number)
  rw [judged] at ran
  cases ran
  cases answer with
  | true => exact .report measures (meaning.mp rfl) ⟨rfl, rfl, first, last, rfl, rfl⟩ later
  | false => exact .pass measures (fun beyond => by simpa using meaning.mpr beyond) later

/-! ## The whole tree -/

theorem opening_outcome (p : Pass) : p.opening.outcome = .ok () := by
  unfold Pass.opening
  split <;> rfl

/-- The records of a tree are those of its declarations, behind the opening of the pass. -/
theorem pass_records (t : Thresholds) (root : Node) :
    List.map Measured.fields <$> root.pass.measure t =
      root.pass.opening >>= fun _ => (methods root).mapM fun d => Measured.fields <$> d.declared.measure t := by
  have declarations : root.pass.declarations = (methods root).map Node.declared := rfl
  rw [Pass.measure, declarations, map_bind, List.mapM_map]
  simp only [map_mapM, Function.comp_def]

/-- Without its log the measurement of a declaration found in a tree is that of
its method. -/
theorem declared_measure (t : Thresholds) (d : Node) :
    (d.declared.measure t).outcome = Method.ofNode d >>= fun m => m.measure t >>= fun s =>
      .ok ⟨m, s, Method.deepest d.declared.levels⟩ := by
  unfold Declaration.measure
  simp only [Traced.outcome_bind, Traced.outcome_of]
  cases made : Method.ofNode d.declared.node with
  | error e => simp [show Method.ofNode d = .error e from made, bind, Except.bind]
  | ok m =>
    have same : d.declared.levels = m.nestingLevels := by
      rw [declared_levels, nesting_levels, (ofNode_ok made).2.2.2.2]
      rfl
    simp only [show Method.ofNode d = .ok m from made, same, bind, Except.bind, Method.measure]
    rfl

/-- Without its log a measured method is a finding if the policy reports it. -/
theorem judge_outcome (t : Thresholds) (m : Measured) :
    (m.judge t path).outcome = isBrainMethod m.metrics t >>= fun beyond =>
      .ok (if beyond then some (.of m.method m.metrics t path) else none) := by
  unfold Measured.judge
  rw [Traced.outcome_bind, Traced.outcome_of]
  congr 1
  funext beyond
  cases beyond <;> rfl

theorem declared_judge (t : Thresholds) (d : Node) :
    (d.declared.measure t >>= fun measured => measured.judge t path).outcome =
      finding t path d := by
  simp only [Traced.outcome_bind, declared_measure, judge_outcome, finding]
  cases Method.ofNode d with
  | error e => rfl
  | ok m => cases measured : m.measure t <;> simp [measured, bind, Except.bind, pure, Except.pure]

/-- Without its log an analysis looks for a finding in every declaration. -/
theorem analyze_outcome (t : Thresholds) (root : Node) :
    (root.analyze t path).outcome =
      (methods root).mapM (finding t path) >>= fun found => .ok (found.filterMap id) := by
  have declarations : root.pass.declarations = (methods root).map Node.declared := rfl
  unfold Node.analyze Pass.analyze
  rw [declarations, Traced.outcome_bind, opening_outcome]
  change (Traced.outcome (_ >>= _)) = _
  rw [Traced.outcome_bind, outcome_mapM, List.mapM_map]
  simp only [Function.comp_def, declared_judge]
  rfl

/-- Without its log the measurement of a tree is that of every declaration in it. -/
theorem measureMethods_outcome (t : Thresholds) (root : Node) :
    (root.measureMethods t).outcome = (methods root).mapM fun d => (d.declared.measure t).outcome := by
  have declarations : root.pass.declarations = (methods root).map Node.declared := rfl
  unfold Node.measureMethods Pass.measure
  rw [declarations, Traced.outcome_bind, opening_outcome, outcome_mapM, List.mapM_map]
  rfl

/-- The findings of declarations that were all measured stand in their order. -/
theorem findings_found {ds : List Node} {found : List (Option Violation)}
    (lines : ∀ d ∈ ds, IsLine d.header.beginLine ∧ IsLine d.header.endLine)
    (each : List.Forall₂ (fun d f => finding (.ofInts cyclo maxnesting noav loc) path d = .ok f) ds found) :
    Found cyclo maxnesting noav loc path ds (found.filterMap id) := by
  induction each with
  | nil => exact .none
  | @cons d f ds found ran _ ih =>
    have later := ih fun other member => lines other (by simp [member])
    have whole := finding_found (lines d (by simp)) ran later
    cases f <;> simpa using whole

/-- A method with a branch around another method that has no name. -/
def namelessInner : Node :=
  .mk ⟨Kind.methodDeclaration, .int 1, .int 9, .methodDeclaration (.str "outer")⟩
    [.mk (.plain Kind.ifStatement (.int 2) (.int 9))
      [.mk ⟨Kind.methodDeclaration, .int 3, .null, .methodDeclaration .null⟩ []]]

end MethodLint.Findings
