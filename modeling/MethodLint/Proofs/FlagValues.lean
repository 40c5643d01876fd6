import MethodLint.Proofs.InertNodes
import MethodLint.Proofs.WrappedDocuments

/-! Flags are taken by their truth. A document may give any value for the flag of a
conditional expression or of a switch label. Where an analysis looks at a flag that is
missing or null, the tree is malformed and nothing is measured. But a value of another sort
stops nobody: a text, a number or a list is taken for true or false as it counts, so that
everything observed is as if the document had said so. -/
namespace MethodLint.FlagValues
open Node Walks Outcomes Flags Findings Documents OutlineFunctions AlikeOutlines InertNodes DumpedOutlines
open DocumentNodes AcceptedDocuments WrappedDocuments ScanReports ScanIsolation FrontEndTrees
open DecisionPoints (countLabel)

/-! ## Flags in a document -/

/-- A flag that the decision points of a described node depend on: its own, if it is a
conditional expression, and if it is a switch those of the labels among its children, the
last child left out. What is missing counts as null. -/
inductive FlagOf (item : Value) : Value → Prop where
  | ternary (conditional : kindIn item = "ConditionalExpr") : FlagOf item (item.getD "is_ternary")
  | label (switch : kindIn item = "Switch") (among : c ∈ (listed item).dropLast) (label : kindIn c = "SwitchLabel") :
      FlagOf item (c.getD "is_default")

/-- An analysis of the document depends on this flag, of some node below a method. -/
def LooksAt (v flag : Value) : Prop :=
  ∃ method ∈ nodesIn v, describesMethod method = true ∧ ∃ item ∈ nodesAmong (listed method), FlagOf item flag

/-- A method of the document has no name. -/
def HasNameless (v : Value) : Prop :=
  ∃ method ∈ nodesIn v, describesMethod method = true ∧ method.getD "name" = .null

variable {v item : Value} {n d : Node} {h : Header} {below nodes : List Node} {t : Thresholds} {file : Option String}

theorem variant_described {kind name : String} (made : Node.ofValue v = .ok n) (same : n.kind = kind)
    (field : (Shape.ofKind kind).field? = some name) : n.header.variant = .of (Shape.ofKind kind) (v.getD name) := by
  subst same
  exact header_variant (ofValue_parts made).1 field

theorem ternaryFlag_iff (made : Node.ofValue v = .ok n) (kind : n.kind = Kind.conditionalExpr) :
    HasTernaryFlag n.header ↔ v.getD "is_ternary" ≠ .null := by
  have variant : n.header.variant = .conditionalExpr (v.getD "is_ternary") := variant_described made kind (by decide)
  simp [HasTernaryFlag, variant]

theorem defaultFlag_iff (made : Node.ofValue v = .ok n) (kind : n.kind = Kind.switchLabel) :
    HasDefaultFlag n.header ↔ v.getD "is_default" ≠ .null := by
  have variant : n.header.variant = .switchLabel (v.getD "is_default") := variant_described made kind (by decide)
  simp [HasDefaultFlag, variant]

theorem name_iff (made : Node.ofValue v = .ok n) (kind : n.kind = Kind.methodDeclaration) :
    HasName n.header ↔ v.getD "name" ≠ .null := by
  have variant : n.header.variant = .methodDeclaration (v.getD "name") := variant_described made kind (by decide)
  simp [HasName, variant]

theorem dropLast_described {items : List Value}
    (each : List.Forall₂ (fun item c => Node.ofValue item = .ok c) items nodes) :
    List.Forall₂ (fun item c => Node.ofValue item = .ok c) items.dropLast nodes.dropLast := by
  rw [List.dropLast_eq_take, List.dropLast_eq_take, each.length_eq]
  exact List.forall₂_take _ each

/-- A node lacks a flag if its value has a null where the flag should be. -/
theorem unflagged_iff (made : Node.ofValue v = .ok n) : Unflagged n ↔ FlagOf v .null := by
  have labels := dropLast_described (listed_describe made)
  have kind := kind_described made
  constructor
  · rintro (⟨conditional, missing⟩ | ⟨switch, c, among, label, missing⟩)
    · have null : v.getD "is_ternary" = .null := by simpa [ternaryFlag_iff made conditional] using missing
      exact null ▸ .ternary (kind.symm.trans conditional)
    · obtain ⟨item, listed, described⟩ := item_of_mem labels among
      have null : item.getD "is_default" = .null := by simpa [defaultFlag_iff described label] using missing
      exact null ▸ .label (kind.symm.trans switch) listed ((kind_described described).symm.trans label)
  · intro lacks
    generalize missing : Value.null = absent at lacks
    cases lacks with
    | ternary conditional =>
      have conditional := kind.trans conditional
      exact .inl ⟨conditional, fun flagged => (ternaryFlag_iff made conditional).mp flagged missing.symm⟩
    | label switch among label =>
      obtain ⟨c, member, described⟩ := answer_of_mem labels among
      have label := (kind_described described).trans label
      exact .inr ⟨kind.trans switch, c, member, label, fun flagged =>
        (defaultFlag_iff described label).mp flagged missing.symm⟩

theorem below_described (made : Node.ofValue v = .ok n) :
    List.Forall₂ (fun item d => Node.ofValue item = .ok d) (nodesAmong (listed v)) n.descendants := by
  rw [descendants_preorder]
  exact nodesAmong_describe n.children (listed_describe made)

/-- A method is malformed if its value has no name or a flag below it is null. -/
theorem malformed_iff (made : Node.ofValue v = .ok n) (kind : n.kind = Kind.methodDeclaration) :
    Malformed n ↔ v.getD "name" = .null ∨ ∃ item ∈ nodesAmong (listed v), FlagOf item .null := by
  refine or_congr (by simp [name_iff made kind]) ⟨?_, ?_⟩
  · rintro ⟨d, inside, unflagged⟩
    obtain ⟨item, member, described⟩ := item_of_mem (below_described made) inside
    exact ⟨item, member, (unflagged_iff described).mp unflagged⟩
  · rintro ⟨item, member, lacks⟩
    obtain ⟨d, inside, described⟩ := answer_of_mem (below_described made) member
    exact ⟨d, inside, (unflagged_iff described).mpr lacks⟩

/-- Some method of a tree is malformed exactly if its document shows it. -/
theorem malformed_described (made : Node.ofValue v = .ok n) :
    (∃ d ∈ methods n, Malformed d) ↔ HasNameless v ∨ LooksAt v .null := by
  have each := methods_described made
  constructor
  · rintro ⟨d, member, malformed⟩
    obtain ⟨method, among, described⟩ := item_of_mem each member
    obtain ⟨inside, declares⟩ := List.mem_filter.mp among
    have kind : d.kind = Kind.methodDeclaration := (kind_described described).trans (of_decide_eq_true declares)
    rcases (malformed_iff described kind).mp malformed with nameless | lacks
    · exact .inl ⟨method, inside, declares, nameless⟩
    · exact .inr ⟨method, inside, declares, lacks⟩
  · intro either
    obtain ⟨method, inside, declares, bad⟩ : ∃ method ∈ nodesIn v, describesMethod method = true ∧
        (method.getD "name" = .null ∨ ∃ item ∈ nodesAmong (listed method), FlagOf item .null) := by
      rcases either with ⟨method, inside, declares, nameless⟩ | ⟨method, inside, declares, lacks⟩
      · exact ⟨method, inside, declares, .inl nameless⟩
      · exact ⟨method, inside, declares, .inr lacks⟩
    obtain ⟨d, member, described⟩ := answer_of_mem each (List.mem_filter.mpr ⟨inside, declares⟩)
    have kind : d.kind = Kind.methodDeclaration := (kind_described described).trans (of_decide_eq_true declares)
    exact ⟨d, member, (malformed_iff described kind).mpr bad⟩

/-! ## Where a flag is missing -/

/-- A declaration that is measured is not malformed, whatever the thresholds are. -/
theorem measured_fine {m : Measured} (ran : (d.declared.measure t).outcome = .ok m) : ¬ Malformed d := by
  rw [declared_measure] at ran
  obtain ⟨a, made, ran⟩ := bind_ok_iff.mp ran
  obtain ⟨_, measured, _⟩ := bind_ok_iff.mp ran
  obtain ⟨_, _, measured⟩ := bind_ok_iff.mp measured
  obtain ⟨complexity, counted, _⟩ := bind_ok_iff.mp measured
  rintro (nameless | unflagged)
  · exact nameless (hasName_of_ofNode made)
  · obtain ⟨_, _, _, _, children⟩ := ofNode_ok made
    rcases guarded_cyclo a with ⟨fine, _⟩ | ⟨_, defect, stopped⟩
    · rw [method_descendants, children, ← descendants_preorder] at fine
      exact fine unflagged
    · rw [stopped] at counted
      cases counted

theorem measureMethods_fine {ms : List Measured} (ran : (n.measureMethods t).outcome = .ok ms) :
    ∀ d ∈ methods n, ¬ Malformed d := by
  rw [measureMethods_outcome] at ran
  intro d member
  obtain ⟨m, _, measured⟩ := answer_of_mem (mapM_ok_forall ran) member
  exact measured_fine measured

section
variable (lines : LinesKnown n) (cyclo maxnesting noav loc : Int)

theorem guarded_declared (known : IsLine d.header.beginLine ∧ IsLine d.header.endLine) :
    Guarded (Malformed d) (d.declared.measure (.ofInts cyclo maxnesting noav loc)).outcome := by
  rw [declared_measure]
  have whole := guarded_bind (guarded_ofNode d) fun m made => by
    obtain ⟨_, _, first, last, children⟩ := ofNode_ok made
    have inside : m.descendants = d.descendants := by
      rw [method_descendants, children, ← descendants_preorder]
    have taken := @guarded_measure cyclo maxnesting noav loc m (first ▸ known.1) (last ▸ known.2)
    rw [inside] at taken
    exact guarded_bind taken fun s _ => guarded_ok (⟨m, s, Method.deepest d.declared.levels⟩ : Measured)
  exact (guarded_congr (by simp [Malformed])).mp whole

include lines

/-- With whole numbers for thresholds an analysis stops exactly if a method is malformed. -/
theorem guarded_analysis (file : Option String) :
    Guarded (∃ d ∈ methods n, Malformed d) (n.analyze (.ofInts cyclo maxnesting noav loc) file).outcome ∧
      Guarded (∃ d ∈ methods n, Malformed d) (n.measureMethods (.ofInts cyclo maxnesting noav loc)).outcome := by
  rw [analyze_outcome, measureMethods_outcome]
  constructor
  · have whole := guarded_bind
      (guarded_mapM (methods n) fun d member => guarded_finding cyclo maxnesting noav loc file d (lines d member))
      fun found _ => guarded_ok (found.filterMap id)
    exact (guarded_congr (by simp)).mp whole
  · exact guarded_mapM (methods n) fun d member => guarded_declared cyclo maxnesting noav loc (lines d member)

end

/-! ## Where it is not -/

/-- What a flag is taken for: nothing if it is null, and else its truth. -/
def settledFlag (flag : Value) : Value := if flag.isNull then .null else .bool flag.isTruthy

/-- A field with a flag that is taken for its truth; other fields are as they are. -/
def settledVariant : Variant → Variant
  | .conditionalExpr flag => .conditionalExpr (settledFlag flag)
  | .switchLabel flag => .switchLabel (settledFlag flag)
  | variant => variant

/-- Conditional expressions and labels with their flags taken for their truth. -/
def settledHeader (h : Header) : Header :=
  if h.kind = Kind.conditionalExpr ∨ h.kind = Kind.switchLabel then { h with variant := settledVariant h.variant }
  else h

mutual

/-- A tree with all flags taken for their truth. -/
def settled : Node → Node
  | .mk h below => .mk (settledHeader h) (settledAll below)

/-- Some trees with all flags taken for their truth. -/
def settledAll : List Node → List Node
  | [] => []
  | n :: rest => settled n :: settledAll rest

end

theorem settledAll_map (nodes : List Node) : settledAll nodes = nodes.map settled := by
  induction nodes with
  | nil => rfl
  | cons n rest ih => rw [settledAll, ih, List.map_cons]

theorem settledFlag_null (flag : Value) : (settledFlag flag).isNull = flag.isNull := by
  unfold settledFlag
  cases null : flag.isNull <;> simp [Value.isNull]

theorem settledFlag_truth (flag : Value) : (settledFlag flag).isTruthy = flag.isTruthy := by
  unfold settledFlag
  cases null : flag.isNull with
  | true => rw [isNull_iff.mp null]; rfl
  | false => simp [Value.isTruthy, Value.isFalsy]

theorem settledHeader_kind (h : Header) : (settledHeader h).kind = h.kind := by
  unfold settledHeader
  split <;> rfl

theorem settled_kind (n : Node) : (settled n).kind = n.kind := by
  obtain ⟨h, below⟩ := n
  exact settledHeader_kind h

/-- Whoever looks at a flag sees the same after it was taken for its truth. -/
theorem settledHeader_flags (h : Header) :
    (settledHeader h).ternary? = h.ternary? ∧ (settledHeader h).default? = h.default? := by
  unfold settledHeader
  split
  · obtain ⟨kind, first, last, variant⟩ := h
    cases variant <;> simp [settledVariant, Header.ternary?, Header.default?, settledFlag_null, settledFlag_truth]
  · exact ⟨rfl, rfl⟩

theorem countLabel_settled (count : Nat) (c : Node) : countLabel count (settled c) = countLabel count c := by
  obtain ⟨h, below⟩ := c
  have same := (settledHeader_flags h).2
  unfold countLabel
  rw [settled_kind, settled, header_mk, same, header_mk]

/-- A node adds the same decision points after all flags were taken for their truth. -/
theorem decisions_settled (h : Header) (below : List Node) :
    Method.decisions (.mk (settledHeader h) (settledAll below)) = Method.decisions (.mk h below) := by
  have labels : Method.caseLabels (.mk (settledHeader h) (settledAll below)) = Method.caseLabels (.mk h below) := by
    change (settledAll below).dropLast.foldlM countLabel 0 = below.dropLast.foldlM countLabel 0
    rw [settledAll_map, ← List.map_dropLast, List.foldlM_map]
    simp only [countLabel_settled]
  unfold Method.decisions
  rw [labels]
  simp only [Node.kind, header_mk, settledHeader_kind, settledHeader_flags]
  rfl

mutual

theorem indistinct_settled (n : Node) : Indistinct [n] [settled n] := by
  cases n with
  | mk h below =>
    have inner := indistinct_settledAll below
    have own := (decisions_settled h below).symm
    rw [settled]
    by_cases flagged : h.kind = Kind.conditionalExpr ∨ h.kind = Kind.switchLabel
    · have other : declaresMethod h = false := by
        apply decide_eq_false
        rcases flagged with kind | kind <;> rw [kind] <;> decide
      have same := settledHeader_kind h
      refine ⟨alike_undeclared same.symm other own inner.alike, ?_⟩
      have also : declaresMethod (settledHeader h) = false := by rw [declaresMethod, same]; exact other
      rw [among_skip below other, among_skip _ also, inner.headers]
    · have same : settledHeader h = h := if_neg flagged
      rw [same] at own ⊢
      exact indistinct_node own inner

theorem indistinct_settledAll (nodes : List Node) : Indistinct nodes (settledAll nodes) := by
  cases nodes with
  | nil => exact indistinct_refl []
  | cons n rest => exact indistinct_append (indistinct_settled n) (indistinct_settledAll rest)

end

theorem opening_settled (n : Node) : n.pass.opening = (settled n).pass.opening := by
  obtain ⟨h, below⟩ := n
  change Pass.opening ⟨h, []⟩ = Pass.opening ⟨settledHeader h, []⟩
  by_cases flagged : h.kind = Kind.conditionalExpr ∨ h.kind = Kind.switchLabel
  · have other : h.kind ≠ Kind.compilationUnit := by rcases flagged with kind | kind <;> rw [kind] <;> decide
    have also : (settledHeader h).kind ≠ Kind.compilationUnit := by rwa [settledHeader_kind]
    rw [Pass.opening, Pass.opening, if_neg other, if_neg also]
  · rw [show settledHeader h = h from if_neg flagged]

theorem observed_settled (n : Node) : ObservedAlike n.pass (settled n).pass :=
  observed_indistinct (indistinct_settled n) (opening_settled n)

/-! ## Files -/

variable {files : Files} {path : FilePath} {s : Scanner}

theorem scanFile_malformed {frontEnd : FrontEnd} {defect : TreeDefect} (reads : FrontEnd.ofPath? path = some frontEnd)
    (failed : (s.analyzeFile files path frontEnd).outcome = .error (.tree defect)) :
    (s.scanFile files path).outcome = .ok ⟨s.shownPath files path, some frontEnd.language,
      .error ("malformed tree: " ++ defect.message)⟩ := by
  unfold Scanner.scanFile
  simp only [reads, Traced.outcome_bind, Traced.attempt, failed]
  rfl

/-- The tree of a document is parsed as its unit, of which the analysis is that of the tree. -/
theorem analyzeFile_document (loads : Loads files path v) (made : Node.ofValue v = .ok n) :
    (s.analyzeFile files path .document).outcome =
      (n.analyze s.thresholds (some (s.shownPath files path))).outcome >>= fun violations =>
        (if s.reportsMethods then (n.measureMethods s.thresholds).outcome else .ok []) >>= fun ms =>
          .ok ⟨(unitOf path n).descendants.countP fun d => d.kind = Kind.methodDeclaration, violations, ms⟩ := by
  obtain ⟨tree, parsed⟩ := parse_loaded loads made
  obtain ⟨w, m, ⟨_, again, reread⟩, described, rfl⟩ := parse_made parsed
  obtain ⟨text, readable, read⟩ := loads
  cases readable.symm.trans again
  cases read.symm.trans reread
  cases made.symm.trans described
  have alike := passedAlike (methods_unitOf path n)
  rw [analyzeFile_outcome, parsed, ← alike.analyze, ← alike.measure]
  rfl

/-! ## Documents with flags of any sort -/

/-- What becomes of the flags of a document that describes a tree. -/
structure FlagsTaken (v : Value) (n : Node) : Prop where
  /-- If one that is looked at is missing or null, nothing is measured, by whatever thresholds. -/
  unmeasured : LooksAt v .null → ∀ t file, (∀ violations, (n.analyze t file).outcome ≠ .ok violations) ∧
    ∀ ms, (n.measureMethods t).outcome ≠ .ok ms
  /-- With whole numbers for thresholds the tree is found malformed then. -/
  malformed : LooksAt v .null → ∀ cyclo maxnesting noav loc file,
    (∃ defect, (n.analyze (.ofInts cyclo maxnesting noav loc) file).outcome = .error (.tree defect)) ∧
      ∃ defect, (n.measureMethods (.ofInts cyclo maxnesting noav loc)).outcome = .error (.tree defect)
  /-- A scan has a diagnostic for such a file, and nothing else. -/
  diagnosed : LooksAt v .null → ∀ (s : Scanner) files path, AreWhole s.thresholds → Loads files path v →
    FrontEnd.ofPath? path = some .document → ∃ defect, (s.scanFile files path).outcome =
      .ok ⟨s.shownPath files path, some "tree", .error ("malformed tree: " ++ TreeDefect.message defect)⟩
  /-- If none is, and every method has a name, the tree is analyzed and measured. -/
  answered : ¬ LooksAt v .null → ¬ HasNameless v → ∀ cyclo maxnesting noav loc file,
    (∃ violations, (n.analyze (.ofInts cyclo maxnesting noav loc) file).outcome = .ok violations) ∧
      ∃ ms, (n.measureMethods (.ofInts cyclo maxnesting noav loc)).outcome = .ok ms
  /-- In any case nothing that is observed would differ with true or false for each flag that is
  there, as its value counts. -/
  settled : ObservedAlike n.pass (settled n).pass

/-- A method with a conditional expression that says by a text that it is no ternary one. -/
def textFlag : Value :=
  .map [(.str "kind", .str "MethodDeclaration"), (.str "name", .str "f"), (.str "children", .list [
    .map [(.str "kind", .str "ConditionalExpr"), (.str "is_ternary", .str "false")]])]

end MethodLint.FlagValues
