import Mathlib.Data.List.Perm.Subperm
import MethodLint.Proofs.Flags

/-! Cyclomatic complexity is a sum over the nodes below a method. Each node adds what it
adds by itself: a loop, a branch, a handler one, a ternary one, and a switch one with as
many as it has case labels among its own children before the last. The sum is there
exactly if no flag is missing that it depends on. -/
namespace MethodLint.DecisionPoints
open Node Outcomes Walks Flags

/-! ## What one node adds -/

/-- The kinds that add a decision point each. -/
def decidingKinds : List String := ["For", "If", "While", "Catch", "Do"]

/-- A conditional expression with a flag that counts as true. -/
def isTernary (n : Node) : Bool :=
  n.kind = "ConditionalExpr" && match n.header.variant with
    | .conditionalExpr flag => flag.isTruthy
    | _ => false

/-- A switch label with a flag that does not count as true. -/
def isCaseLabel (n : Node) : Bool :=
  n.kind = "SwitchLabel" && match n.header.variant with
    | .switchLabel flag => flag.isFalsy
    | _ => false

/-- The case labels of a switch: they are among its own children, and the last of these is
not looked at. Other nodes have none. -/
def caseLabels (n : Node) : List Node :=
  if n.kind = "Switch" then n.children.dropLast.filter isCaseLabel else []

/-- A node that adds a decision point, its labels apart. -/
def decides (n : Node) : Bool := decidingKinds.contains n.kind || isTernary n || n.kind = "Switch"

mutual

/-- The decision points of a node and of all that is below it. -/
def points : Node → Nat
  | .mk h below =>
    (if decides (.mk h below) then 1 else 0) + (caseLabels (.mk h below)).length + pointsAmong below

/-- The decision points of some nodes and of all that is below them. -/
def pointsAmong : List Node → Nat
  | [] => 0
  | n :: rest => points n + pointsAmong rest

end

/-- A switch in a case of another one: each counts itself and its own labels. The label that
stands last is not looked at, with or without a flag. -/
example :
    let label (flag : Value) : Node := .mk ⟨"SwitchLabel", .null, .null, .switchLabel flag⟩ []
    let switch (below : List Node) : Node := .mk (.plain "Switch" .null .null) below
    pointsAmong [switch [label (.bool false), switch [label (.bool false), label (.bool true), label .null],
      label (.bool false), label (.bool false)]] = 5 := by decide

variable {n : Node} {first second rest below : List Node} {h : Header} {j k : Nat}

theorem ternary_flagged (kind : n.kind = Kind.conditionalExpr) (flagged : HasTernaryFlag n.header) :
    n.header.ternary? = .ok (isTernary n) := by
  obtain ⟨flag, variant, present⟩ := flagged
  have given : flag.isNull = false := by simpa [← Bool.not_eq_true, isNull_iff] using present
  simp [Header.ternary?, isTernary, variant, given, kind, Kind.conditionalExpr]

theorem default_flagged (kind : n.kind = Kind.switchLabel) (flagged : HasDefaultFlag n.header) :
    n.header.default? = .ok (!isCaseLabel n) := by
  obtain ⟨flag, variant, present⟩ := flagged
  have given : flag.isNull = false := by simpa [← Bool.not_eq_true, isNull_iff] using present
  simp [Header.default?, isCaseLabel, variant, given, kind, Kind.switchLabel, Value.isTruthy]

/-- One step of the count of labels. -/
def countLabel (count : Nat) (child : Node) : Except Fault Nat :=
  if child.kind = Kind.switchLabel then
    (child.header.default?).map fun isDefault => if isDefault then count else count + 1
  else .ok count

theorem countLabel_flagged (flagged : n.kind = Kind.switchLabel → HasDefaultFlag n.header) (count : Nat) :
    countLabel count n = .ok (count + if isCaseLabel n then 1 else 0) := by
  unfold countLabel
  by_cases label : n.kind = Kind.switchLabel
  · rw [if_pos label, default_flagged label (flagged label)]
    cases isCaseLabel n <;> rfl
  · have other : isCaseLabel n = false := by
      simp only [isCaseLabel, Bool.and_eq_false_iff, decide_eq_false_iff_not]
      exact .inl label
    rw [if_neg label, other]
    rfl

theorem labels_flagged (items : List Node)
    (flagged : ∀ c ∈ items, c.kind = Kind.switchLabel → HasDefaultFlag c.header) (count : Nat) :
    items.foldlM countLabel count = .ok (count + (items.filter isCaseLabel).length) := by
  induction items generalizing count with
  | nil => rfl
  | cons c rest ih =>
    obtain ⟨here, later⟩ := List.forall_mem_cons.mp flagged
    rw [List.foldlM_cons, countLabel_flagged here]
    refine (ih later _).trans ?_
    rw [List.filter_cons]
    split
    · simp only [List.length_cons, Nat.add_assoc, Nat.add_comm 1]
    · rfl

theorem deciding_kind (n : Node) : decidingKinds.contains n.kind = Kind.isDecision n.kind := by
  have listed : decidingKinds =
      [Kind.forLoop, Kind.ifStatement, Kind.whileLoop, Kind.catchClause, Kind.doLoop] := rfl
  rw [Bool.eq_iff_iff]
  simp [listed, Kind.isDecision, or_assoc]

/-- A node with the flags that its decision points depend on adds what it should. -/
theorem decisions_flagged (flagged : ¬ Unflagged n) :
    Method.decisions n = .ok ((if decides n then 1 else 0) + (caseLabels n).length) := by
  obtain ⟨ternary, labels⟩ := not_or.mp flagged
  unfold Method.decisions decides
  rw [deciding_kind]
  by_cases decision : Kind.isDecision n.kind = true
  · have unlabelled : caseLabels n = [] := by
      apply if_neg
      intro kind
      rw [kind] at decision
      exact absurd decision (by decide)
    simp [decision, unlabelled]
  by_cases conditional : n.kind = Kind.conditionalExpr
  · have unlabelled : caseLabels n = [] := if_neg (by rw [conditional]; decide)
    have flag : HasTernaryFlag n.header := by
      by_contra missing
      exact ternary ⟨conditional, missing⟩
    rw [if_neg decision, if_pos conditional, ternary_flagged conditional flag, unlabelled]
    have other : ¬ n.kind = "Switch" := by rw [conditional]; decide
    cases isTernary n <;> simp [decision, other, Except.map]
  by_cases switch : n.kind = Kind.switch
  · have flags : ∀ c ∈ n.children.dropLast, c.kind = Kind.switchLabel → HasDefaultFlag c.header := by
      intro c member label
      by_contra missing
      exact labels ⟨switch, c, member, label, missing⟩
    have own : caseLabels n = n.children.dropLast.filter isCaseLabel := if_pos switch
    have counted : Method.caseLabels n = .ok (caseLabels n).length := by
      rw [own, ← Nat.zero_add (List.length _)]
      exact labels_flagged n.children.dropLast flags 0
    rw [if_neg decision, if_neg conditional, if_pos switch, counted]
    have counts : (n.kind = "Switch") = True := eq_true switch
    simp [counts, Except.map]
  · have unlabelled : caseLabels n = [] := if_neg switch
    have other : isTernary n = false := by
      simp only [isTernary, Bool.and_eq_false_iff, decide_eq_false_iff_not]
      exact .inl conditional
    have last : ¬ n.kind = "Switch" := switch
    simp [decision, conditional, switch, unlabelled, other, last]

/-! ## Sums over nodes -/

/-- Adds the decision points of some nodes, and of all that is below them, to a total. -/
def addDecisions (nodes : List Node) (total : Nat) : Except Fault Nat :=
  (preorderAll nodes).foldlM (fun total n => (Method.decisions n).map (total + ·)) total

theorem addDecisions_append (first second : List Node) (total : Nat) :
    addDecisions (first ++ second) total = addDecisions first total >>= addDecisions second := by
  rw [addDecisions, preorderAll_append, List.foldlM_append]
  rfl

theorem addDecisions_node (h : Header) (below : List Node) (total : Nat) :
    addDecisions [.mk h below] total =
      (Method.decisions (.mk h below)).map (total + ·) >>= addDecisions below := by
  rw [addDecisions, preorderAll, preorder_eq, preorderAll, List.append_nil, List.foldlM_cons]
  rfl

/-- The nodes, with all that is below them, add `k` decision points. -/
def Counts (nodes : List Node) (k : Nat) : Prop := ∀ total, addDecisions nodes total = .ok (total + k)

theorem counts_nil : Counts [] 0 := fun _ => rfl

theorem counts_append (left : Counts first j) (right : Counts second k) : Counts (first ++ second) (j + k) := by
  intro total
  rw [addDecisions_append, left total]
  exact (right (total + j)).trans (by rw [Nat.add_assoc])

theorem counts_cons (left : Counts [n] j) (right : Counts rest k) : Counts (n :: rest) (j + k) :=
  counts_append left right

theorem counts_node {own : Nat} (here : Method.decisions (.mk h below) = .ok own) (inner : Counts below k) :
    Counts [.mk h below] (own + k) := by
  intro total
  rw [addDecisions_node, here]
  exact (inner (total + own)).trans (by rw [Nat.add_assoc])

/-- Complexity is the sum over what is below, and one for a body that is not empty. -/
theorem cyclo_counts {m : Method} (counted : Counts m.children k) :
    m.cyclo = .ok ((if m.children.isEmpty then 0 else 1) + k) := by
  unfold Method.cyclo
  rw [method_descendants]
  exact counted _

/-- Nodes without a missing flag add what the recursive sum says. -/
theorem counts_points (nodes : List Node) (flagged : ∀ d ∈ preorderAll nodes, ¬ Unflagged d) :
    Counts nodes (pointsAmong nodes) := by
  match nodes with
  | [] => exact counts_nil
  | .mk h below :: rest =>
    simp only [preorderAll, preorder_eq, children_mk, List.forall_mem_cons, List.forall_mem_append] at flagged
    obtain ⟨here, inner, later⟩ := flagged
    rw [pointsAmong, points]
    exact counts_cons (counts_node (decisions_flagged here) (counts_points below inner)) (counts_points rest later)

/-- A method with all flags has the complexity that the sum says. -/
theorem cyclo_flagged {m : Method} (flagged : ¬ ∃ d ∈ m.descendants, Unflagged d) :
    m.cyclo = .ok ((if m.children.isEmpty then 0 else 1) + pointsAmong m.children) := by
  apply cyclo_counts
  apply counts_points
  intro d member unflagged
  rw [← method_descendants] at member
  exact flagged ⟨d, member, unflagged⟩

theorem cyclo_value {m : Method} {c : Nat} (taken : m.cyclo = .ok c) :
    c = (if m.children.isEmpty then 0 else 1) + pointsAmong m.children := by
  rcases guarded_cyclo m with ⟨flagged, _⟩ | ⟨_, defect, stopped⟩
  · rw [cyclo_flagged flagged] at taken
    exact (Except.ok.inj taken).symm
  · rw [stopped] at taken
    cases taken

/-! ## Every label once -/

/-- Every node below is a child of one node, the one that it stands in. -/
theorem preorder_perm (nodes : List Node) :
    (preorderAll nodes).Perm (nodes ++ (preorderAll nodes).flatMap Node.children) := by
  match nodes with
  | [] => exact .nil
  | .mk h below :: rest =>
    have inner := preorder_perm below
    have later := preorder_perm rest
    simp only [preorderAll, preorder_eq, children_mk, List.flatMap_cons, List.flatMap_append, List.cons_append]
    refine ((inner.append later).trans ?_).cons _
    rw [← List.append_assoc below]
    exact List.perm_append_comm_assoc _ _ _

/-- The case labels that are counted below some nodes. -/
def labelsAmong (nodes : List Node) : List Node := (preorderAll nodes).flatMap caseLabels

theorem caseLabels_sublist (n : Node) : (caseLabels n).Sublist n.children := by
  unfold caseLabels
  split
  · exact List.filter_sublist.trans (List.dropLast_sublist _)
  · exact List.nil_sublist _

/-- Each label is counted at most once, because it stands in one node only. -/
theorem labels_once (nodes : List Node) : (labelsAmong nodes).Subperm (preorderAll nodes) := by
  have sublist (ds : List Node) : (ds.flatMap caseLabels).Sublist (ds.flatMap Node.children) := by
    induction ds with
    | nil => exact .slnil
    | cons d rest ih => exact (caseLabels_sublist d).append ih
  have inside : ((preorderAll nodes).flatMap Node.children).Sublist
      (nodes ++ (preorderAll nodes).flatMap Node.children) := List.sublist_append_right _ _
  exact ((sublist _).trans inside).subperm.trans (preorder_perm nodes).symm.subperm

/-- The sum is one for each node that decides and one for each label that is counted. -/
theorem points_split (nodes : List Node) :
    pointsAmong nodes = (preorderAll nodes).countP decides + (labelsAmong nodes).length := by
  match nodes with
  | [] => rfl
  | .mk h below :: rest =>
    have inner := points_split below
    have later := points_split rest
    simp only [labelsAmong, pointsAmong, points, preorderAll, preorder_eq, children_mk, List.countP_cons,
      List.countP_append, List.flatMap_cons, List.flatMap_append, List.length_append] at inner later ⊢
    omega

/-! ## Complexity -/

end MethodLint.DecisionPoints
