import MethodLint.Proofs.DecisionPoints
import MethodLint.Proofs.NestingDepth

/-! A method and the methods inside it. What is below an inner method is a part of what is
below the outer one, in one piece of its pre-order, so no metric of the inner method is
greater than the outer one's, its line span apart; and where the inner method is reported
and the outer one is as long, that one is reported before it. -/
namespace MethodLint.EnclosingMethods
open Node Walks Outcomes Flags Findings LinkedTrees LinkedWalks NestingDepth DecisionPoints

/-! ## What is found where -/

/-- There is a method declaration at an address. -/
def declares (s : Store) (a : Nat) : Bool := (s.cell a).header.kind = Kind.methodDeclaration

/-- The method declarations of a tree in the order in which an analysis comes to them. -/
def declarations (s : Store) (root : Nat) : List Nat := (root :: s.descendants root).filter (declares s)

/-- What an analysis makes of the declaration at an address: a violation, or nothing. -/
def judged (s : Store) (t : Thresholds) (path : Option String) (a : Nat) : Except Fault (Option Violation) :=
  ((s.declared a).measure t >>= fun m => m.judge t path).outcome

/-- The declaration is reported at this place among the violations of an analysis: as many
stand before it as the declarations before it have. -/
def ReportedAt (s : Store) (root : Nat) (t : Thresholds) (path : Option String) (violations : List Violation)
    (a place : Nat) : Prop :=
  ∃ before after earlier v, declarations s root = before ++ a :: after ∧
    before.mapM (judged s t path) = .ok earlier ∧ judged s t path a = .ok (some v) ∧
    place = (earlier.filterMap id).length ∧ violations[place]? = some v

/-- No structural metric of one method is greater than that of another. -/
structure Dominates (outer inner : Measured) : Prop where
  noav : inner.metrics.noav ≤ outer.metrics.noav
  cyclo : inner.metrics.cyclo ≤ outer.metrics.cyclo
  depth : inner.depth ≤ outer.depth
  nesting : inner.metrics.nestingExceeds = true → outer.metrics.nestingExceeds = true

variable {s : Store} {n : Node} {root outer inner a b x : Nat} {t : Thresholds} {path : Option String}
  {violations : List Violation}

/-! ## A part of the pre-order -/

mutual

/-- What is below a node of a tree stands right after it, in one piece. -/
theorem block_holds (n : Node) {b : Nat} (held : Holds s n b) (member : x ∈ b :: addresses s n b) :
    (x :: s.descendants x) <:+: (b :: addresses s n b) := by
  rcases List.mem_cons.mp member with rfl | below
  · rw [descendants_holds held]
  · obtain ⟨h, cs⟩ := n
    obtain ⟨_, _, inner⟩ := held
    exact (block_holdsAll cs inner below).trans (List.suffix_cons _ _).isInfix

theorem block_holdsAll (nodes : List Node) {p : Nat} {bs : List Nat} (held : HoldsAll s p nodes bs)
    (member : x ∈ addressesAll s nodes bs) : (x :: s.descendants x) <:+: addressesAll s nodes bs := by
  cases held with
  | nil => exact absurd member List.not_mem_nil
  | @cons n _ _ rest others here _ later =>
    rw [addressesAll, ← List.cons_append] at member ⊢
    rcases List.mem_append.mp member with first | beside
    · exact (block_holds n here first).trans (List.prefix_append _ _).isInfix
    · exact (block_holdsAll rest later beside).trans (List.suffix_append _ _).isInfix

end

/-- What stands in a well-formed tree is, with all below it, a piece of the tree. -/
theorem block_below (tree : WellFormed s root) (member : x ∈ root :: s.descendants root) :
    (x :: s.descendants x) <:+: (root :: s.descendants root) := by
  have held := tree.tree
  rw [descendants_holds held] at member ⊢
  exact block_holds _ held member

theorem block_inside (tree : WellFormed s root) (member : x ∈ s.descendants root) :
    (x :: s.descendants x) <:+: s.descendants root := by
  have held := tree.tree
  rw [descendants_holds held] at member ⊢
  generalize s.tree root = n at held member ⊢
  obtain ⟨h, cs⟩ := n
  obtain ⟨_, _, inner⟩ := held
  exact block_holdsAll cs inner member

/-- What stands in a well-formed tree has a well-formed tree itself. -/
theorem wellFormed_inside (tree : WellFormed s root) (member : x ∈ root :: s.descendants root) :
    WellFormed s x := by
  obtain ⟨held, living⟩ := wellFormed_below tree member
  exact ⟨held, living, (block_below tree member).sublist.nodup tree.once⟩

/-- The nodes below the root are the trees at the addresses below it. -/
theorem nodes_below (tree : WellFormed s root) :
    preorderAll (s.tree root).children = (s.descendants root).map s.tree := by
  have each := (List.forall₂_cons.mp (nodes_hold tree.tree tree.living)).2
  rw [descendants_preorder] at each
  rw [eq_comm, ← List.forall₂_eq_eq_eq, List.forall₂_map_left_iff]
  exact each.flip.imp fun _ _ both => tree_holds both.1

/-- A node of a well-formed tree is at the end of a way down from every node above it. -/
theorem way_below (nodes : List Node) {d : Node} (member : d ∈ preorderAll nodes) : ∃ path, Way nodes path d := by
  match nodes with
  | [] => exact absurd member List.not_mem_nil
  | .mk h below :: rest =>
    simp only [preorderAll, preorder_eq, children_mk, List.mem_cons, List.mem_append] at member
    rcases member with rfl | inside | beside
    · exact ⟨[], .child List.mem_cons_self⟩
    · obtain ⟨path, way⟩ := way_below below inside
      exact ⟨.mk h below :: path, .further List.mem_cons_self way⟩
    · obtain ⟨path, way⟩ := way_below rest beside
      refine ⟨path, ?_⟩
      cases way with
      | child member => exact .child (List.mem_cons_of_mem _ member)
      | further member way => exact .further (List.mem_cons_of_mem _ member) way

theorem way_append {cs path further : List Node} {c d : Node} (first : Way cs path c)
    (second : Way c.children further d) : Way cs (path ++ c :: further) d := by
  induction first with
  | child member => exact .further member second
  | further member _ ih => exact .further member (ih second)

/-- A construct below an inner node has at least as many around it below an outer one. -/
theorem encloses_below {nodes : List Node} {d : Node} {count : Nat} (member : d ∈ preorderAll nodes)
    (encloses : Encloses d.children count) : ∃ more, Encloses nodes more ∧ count ≤ more := by
  obtain ⟨path, way⟩ := way_below nodes member
  obtain ⟨further, e, way', construct, rfl⟩ := encloses
  refine ⟨_, ⟨_, e, way_append way way', construct, rfl⟩, ?_⟩
  rw [List.countP_append, List.countP_cons]
  omega

/-- A part of a pre-order has at most its decision points. -/
theorem points_below {nodes inside : List Node} (part : preorderAll inside <:+: preorderAll nodes) :
    pointsAmong inside ≤ pointsAmong nodes := by
  obtain ⟨before, after, whole⟩ := part
  rw [points_split, points_split, labelsAmong, labelsAmong, ← whole]
  simp only [List.countP_append, List.flatMap_append, List.length_append]
  omega

/-! ## Measurements -/

/-- A measured declaration has the metrics of its method. -/
structure Taken (t : Thresholds) (d : Declaration) (m : Measured) : Prop where
  made : Method.ofNode d.node = .ok m.method
  depth : m.depth = Method.deepest d.levels
  loc : m.method.loc = .ok m.metrics.loc
  noav : m.metrics.noav = m.method.noav
  cyclo : ∃ c : Nat, m.method.cyclo = .ok c ∧ m.metrics.cyclo = c
  nesting : Method.anyExceeds t.maxnesting d.levels = .ok m.metrics.nestingExceeds

theorem measured_taken {d : Declaration} {m : Measured} (measured : (d.measure t).outcome = .ok m) :
    Taken t d m := by
  unfold Declaration.measure at measured
  rw [Traced.outcome_bind] at measured
  obtain ⟨method, made, measured⟩ := bind_ok_iff.mp measured
  rw [Traced.outcome_bind] at measured
  obtain ⟨metrics, taken, measured⟩ := bind_ok_iff.mp measured
  cases measured
  have taken : method.measureAt d.levels t = .ok metrics := taken
  obtain ⟨loc, span, taken⟩ := bind_ok_iff.mp taken
  obtain ⟨c, complexity, taken⟩ := bind_ok_iff.mp taken
  obtain ⟨exceeds, compared, taken⟩ := bind_ok_iff.mp taken
  cases taken
  exact ⟨made, rfl, span, rfl, ⟨c, complexity, rfl⟩, compared⟩

/-- A method inside another one, both measured, is dominated by it. -/
theorem dominates_below {cyclo maxnesting noav loc : Int} (tree : WellFormed s outer)
    (inside : inner ∈ s.descendants outer) {big small : Measured}
    (measured : ((s.declared outer).measure (.ofInts cyclo maxnesting noav loc)).outcome = .ok big)
    (also : ((s.declared inner).measure (.ofInts cyclo maxnesting noav loc)).outcome = .ok small) :
    Dominates big small := by
  have within : WellFormed s inner := wellFormed_inside tree (List.mem_cons_of_mem _ inside)
  have part : preorderAll (s.tree inner).children <:+: preorderAll (s.tree outer).children := by
    rw [nodes_below tree, nodes_below within]
    exact ((List.suffix_cons _ _).isInfix.trans (block_inside tree inside)).map s.tree
  have member : s.tree inner ∈ preorderAll (s.tree outer).children := by
    rw [nodes_below tree]
    exact List.mem_map_of_mem inside
  have levels := declared_below tree List.mem_cons_self
  have deeper := declared_below within List.mem_cons_self
  -- Every level below the inner method is at most a level below the outer one.
  have level (l : Nat) (there : l ∈ (s.declared inner).levels) : ∃ k ∈ (s.declared outer).levels, l ≤ k := by
    rw [deeper, mem_levelsAll] at there
    obtain ⟨count, encloses, rfl⟩ := there
    obtain ⟨more, around, less⟩ := encloses_below member encloses
    refine ⟨more, ?_, by omega⟩
    rw [levels, mem_levelsAll]
    exact ⟨more, around, (Nat.zero_add more).symm⟩
  have taken := measured_taken measured
  have taken' := measured_taken also
  have children : big.method.children = (s.tree outer).children := (ofNode_ok taken.made).2.2.2.2
  have children' : small.method.children = (s.tree inner).children := (ofNode_ok taken'.made).2.2.2.2
  constructor
  · rw [taken.noav, taken'.noav, Int.ofNat_le, Method.noav, Method.noav, method_descendants, method_descendants,
      children, children']
    exact part.sublist.countP_le
  · have filled : big.method.children.isEmpty = false := by
      rw [children]
      cases none : (s.tree outer).children with
      | nil =>
        rw [none] at member
        exact absurd member List.not_mem_nil
      | cons first rest => rfl
    have points := points_below part
    obtain ⟨c, complexity, counted⟩ := taken.cyclo
    obtain ⟨c', complexity', counted'⟩ := taken'.cyclo
    rw [counted, counted', Int.ofNat_le, cyclo_value complexity, cyclo_value complexity', filled, children,
      children']
    refine Nat.add_le_add ?_ points
    split
    · exact Nat.zero_le _
    · exact Nat.le_refl _
  · rw [taken.depth, taken'.depth]
    by_cases flat : (s.declared inner).levels = []
    · rw [flat]
      exact Nat.zero_le _
    · obtain ⟨k, there, less⟩ := level _ (deepest_mem flat)
      exact Nat.le_trans less (le_deepest there)
  · intro exceeds
    have compared := taken.nesting
    have compared' := taken'.nesting
    simp only [Thresholds.ofInts, anyExceeds_int, Except.ok.injEq] at compared compared'
    rw [← compared, List.any_eq_true]
    rw [exceeds, List.any_eq_true] at compared'
    obtain ⟨l, there, beyond⟩ := compared'
    obtain ⟨k, around, less⟩ := level l there
    refine ⟨k, around, ?_⟩
    simp only [decide_eq_true_iff] at beyond ⊢
    omega

/-! ## Reports -/

/-- Without its log an analysis judges every declaration in turn. -/
theorem pass_outcome (s : Store) (root : Nat) (t : Thresholds) (path : Option String) :
    ((s.pass root).analyze t path).outcome =
      (declarations s root).mapM (judged s t path) >>= fun found => .ok (found.filterMap id) := by
  have listed : (s.pass root).declarations = (declarations s root).map s.declared := rfl
  unfold Pass.analyze
  rw [listed, Traced.outcome_bind, opening_outcome]
  change (Traced.outcome (_ >>= _)) = _
  rw [Traced.outcome_bind, outcome_mapM, List.mapM_map]
  rfl

/-- A declaration is judged to be a violation if its metrics are beyond the thresholds. -/
theorem judged_iff {answer : Option Violation} : judged s t path a = .ok answer ↔
    ∃ m beyond, ((s.declared a).measure t).outcome = .ok m ∧ isBrainMethod m.metrics t = .ok beyond ∧
      answer = if beyond then some (.of m.method m.metrics t path) else none := by
  unfold judged
  rw [Traced.outcome_bind]
  simp only [judge_outcome, bind_ok_iff, Except.ok.injEq]
  constructor
  · rintro ⟨m, measured, beyond, compared, rfl⟩
    exact ⟨m, beyond, measured, compared, rfl⟩
  · rintro ⟨m, beyond, measured, compared, rfl⟩
    exact ⟨m, measured, beyond, compared, rfl⟩

/-- What is judged to be a violation is reported behind what stands before it. -/
theorem reported_here {before after : List Nat} {v : Violation} {found : List (Option Violation)}
    (ran : (declarations s root).mapM (judged s t path) = .ok found)
    (split : declarations s root = before ++ a :: after) (judgement : judged s t path a = .ok (some v)) :
    ∃ earlier, before.mapM (judged s t path) = .ok earlier ∧
      ReportedAt s root t path (found.filterMap id) a (earlier.filterMap id).length := by
  rw [split] at ran
  obtain ⟨earlier, _, later, first, same, _, rfl⟩ := mapM_ok_split ran
  cases judgement.symm.trans same
  refine ⟨earlier, first, before, after, earlier, v, split, first, judgement, rfl, ?_⟩
  rw [List.filterMap_append, List.getElem?_append_right (Nat.le_refl _), Nat.sub_self]
  rfl

/-- The declarations before a method that stands inside another one are those before the
outer one, that one, and some more. -/
theorem declarations_inside (tree : WellFormed s root) (declared : outer ∈ declarations s root)
    (inside : inner ∈ s.descendants outer) {before after : List Nat}
    (split : declarations s root = before ++ inner :: after) :
    ∃ first between, before = first ++ outer :: between := by
  obtain ⟨member, kind⟩ := List.mem_filter.mp declared
  obtain ⟨front, back, whole⟩ := block_below tree member
  obtain ⟨upper, lower, below⟩ := List.append_of_mem inside
  have method : inner ∈ declarations s root := by
    rw [split]
    exact List.mem_append_right _ List.mem_cons_self
  have pieces : declarations s root = (front.filter (declares s) ++ outer :: upper.filter (declares s)) ++
      inner :: (lower.filter (declares s) ++ back.filter (declares s)) := by
    unfold declarations
    rw [← whole, below]
    simp only [List.filter_append, List.filter_cons, kind, (List.mem_filter.mp method).2, if_true,
      List.append_assoc, List.cons_append]
  have once : (declarations s root).Nodup := tree.once.filter _
  rw [split, List.nodup_middle, List.nodup_cons, List.mem_append, not_or] at once
  obtain ⟨⟨notBefore, notAfter⟩, _⟩ := once
  exact ⟨_, _, ((List.append_cons_inj_of_notMem notBefore notAfter).mp (split.symm.trans pieces)).1⟩

/-- A method with metrics no greater than those of a longer one is not reported unless that
one is. -/
theorem beyond_dominates {cyclo maxnesting noav loc a b : Int} {big small : Measured} {answer : Bool}
    (dominates : Dominates big small) (long : big.metrics.loc = .int a) (short : small.metrics.loc = .int b)
    (longer : b ≤ a) (beyond : isBrainMethod small.metrics (.ofInts cyclo maxnesting noav loc) = .ok true)
    (judged : isBrainMethod big.metrics (.ofInts cyclo maxnesting noav loc) = .ok answer) : answer = true := by
  obtain ⟨first, second, third, fourth⟩ := (isBrainMethod_iff beyond).mp rfl
  apply (isBrainMethod_iff judged).mpr
  simp only [long, short, Thresholds.ofInts, Value.exceeds_int, Except.ok.injEq, decide_eq_true_iff] at *
  have more := dominates.cyclo
  have many := dominates.noav
  exact ⟨by omega, by omega, dominates.nesting third, by omega⟩

/-- A method that encloses another one dominates it wherever their tree can be analyzed, and
if the inner one is reported and is not longer, the outer one is reported before it. -/
theorem enclosing_method_dominates {cyclo maxnesting noav loc : Int} (tree : WellFormed s root)
    (analyzed : ((s.pass root).analyze (.ofInts cyclo maxnesting noav loc) path).outcome = .ok violations)
    (declared : outer ∈ declarations s root) (declared' : inner ∈ declarations s root)
    (inside : inner ∈ s.descendants outer) :
    ∃ big small : Measured,
      ((s.declared outer).measure (.ofInts cyclo maxnesting noav loc)).outcome = .ok big ∧
      ((s.declared inner).measure (.ofInts cyclo maxnesting noav loc)).outcome = .ok small ∧
      Dominates big small ∧
      ∀ a b : Int, big.metrics.loc = .int a → small.metrics.loc = .int b → b ≤ a →
        ∀ place, ReportedAt s root (.ofInts cyclo maxnesting noav loc) path violations inner place →
          ∃ earlier < place,
            ReportedAt s root (.ofInts cyclo maxnesting noav loc) path violations outer earlier := by
  rw [pass_outcome] at analyzed
  obtain ⟨found, ran, analyzed⟩ := bind_ok_iff.mp analyzed
  cases analyzed
  obtain ⟨answer, _, judgement⟩ := answer_of_mem (mapM_ok_forall ran) declared
  obtain ⟨answer', _, judgement'⟩ := answer_of_mem (mapM_ok_forall ran) declared'
  obtain ⟨big, beyond, measured, compared, rfl⟩ := judged_iff.mp judgement
  obtain ⟨small, beyond', measured', compared', rfl⟩ := judged_iff.mp judgement'
  have well : WellFormed s outer := wellFormed_inside tree (List.mem_filter.mp declared).1
  have dominates := dominates_below well inside measured measured'
  refine ⟨big, small, measured, measured', dominates, ?_⟩
  intro a b long short longer place reported
  obtain ⟨before, after, earlier, v, split, first, judgement'', rfl, _⟩ := reported
  rw [judgement'] at judgement''
  -- The inner method is reported, so its metrics are beyond the thresholds.
  cases beyond' with
  | false => cases judgement''
  | true =>
    have outerBeyond := beyond_dominates dominates long short longer compared' compared
    subst outerBeyond
    obtain ⟨upper, between, rfl⟩ := declarations_inside tree declared inside split
    rw [List.append_assoc, List.cons_append] at split
    obtain ⟨sooner, ahead, there⟩ := reported_here ran split judgement
    refine ⟨_, ?_, there⟩
    obtain ⟨first', _, _, ahead', same, _, rfl⟩ := mapM_ok_split first
    cases ahead.symm.trans ahead'
    cases judgement.symm.trans same
    simp only [if_true, List.filterMap_append, List.filterMap_cons, id, List.length_append, List.length_cons]
    omega

/-- A declaration without a first line is measured as having no lines. -/
theorem loc_unlined {m : Measured} (measured : ((s.declared a).measure t).outcome = .ok m)
    (unknown : (s.declared a).node.header.beginLine.isNull = true) : m.metrics.loc = .int 0 := by
  have taken := measured_taken measured
  obtain ⟨_, _, first, _, _⟩ := ofNode_ok taken.made
  have span := taken.loc
  unfold Method.loc at span
  rw [first, unknown, Bool.true_or, if_pos rfl] at span
  exact (Except.ok.inj span).symm

/-- Both methods of the loop are beyond thresholds this low, and neither has lines. The
inner one, at address 6, is reported behind the outer one, at address 1. -/
theorem loop_methods_reported :
    WellFormed loopStore 0 ∧ 1 ∈ declarations loopStore 0 ∧ 6 ∈ declarations loopStore 0 ∧
      6 ∈ loopStore.descendants 1 ∧
      ∃ violations, ((loopStore.pass 0).analyze (.ofInts 2 0 (-1) (-1)) none).outcome = .ok violations ∧
        ReportedAt loopStore 0 (.ofInts 2 0 (-1) (-1)) none violations 6 1 ∧
        ∃ place < 1, ReportedAt loopStore 0 (.ofInts 2 0 (-1) (-1)) none violations 1 place := by
  have listed : declarations loopStore 0 = [1, 6] := by decide +kernel
  have inside : 6 ∈ loopStore.descendants 1 := by decide +kernel
  have reports (a : Nat) (beyond : (judged loopStore (.ofInts 2 0 (-1) (-1)) none a).toOption.join.isSome = true) :
      ∃ v, judged loopStore (.ofInts 2 0 (-1) (-1)) none a = .ok (some v) := by
    cases outcome : judged loopStore (.ofInts 2 0 (-1) (-1)) none a with
    | error e => simp [outcome, Except.toOption] at beyond
    | ok found =>
      obtain ⟨v, rfl⟩ := Option.isSome_iff_exists.mp (by simpa [outcome, Except.toOption] using beyond)
      exact ⟨v, rfl⟩
  obtain ⟨v, judgement⟩ := reports 1 (by decide +kernel)
  obtain ⟨w, judgement'⟩ := reports 6 (by decide +kernel)
  have ran : (declarations loopStore 0).mapM (judged loopStore (.ofInts 2 0 (-1) (-1)) none) =
      .ok [some v, some w] := by
    rw [listed]
    exact mapM_ok_iff.mpr (.cons judgement (.cons judgement' .nil))
  have analyzed : ((loopStore.pass 0).analyze (.ofInts 2 0 (-1) (-1)) none).outcome = .ok [v, w] := by
    rw [pass_outcome, ran]
    rfl
  have declared : 1 ∈ declarations loopStore 0 := by simp [listed]
  have declared' : 6 ∈ declarations loopStore 0 := by simp [listed]
  have reported : ReportedAt loopStore 0 (.ofInts 2 0 (-1) (-1)) none [v, w] 6 1 :=
    ⟨[1], [], [some v], w, listed, mapM_ok_iff.mpr (.cons judgement .nil), judgement', rfl, rfl⟩
  obtain ⟨big, small, measured, measured', _, report⟩ :=
    enclosing_method_dominates loopStore_wellFormed analyzed declared declared' inside
  have long := loc_unlined measured (by decide +kernel)
  have short := loc_unlined measured' (by decide +kernel)
  exact ⟨loopStore_wellFormed, declared, declared', inside, [v, w], analyzed, reported,
    report 0 0 long short (Int.le_refl 0) 1 reported⟩

end MethodLint.EnclosingMethods
