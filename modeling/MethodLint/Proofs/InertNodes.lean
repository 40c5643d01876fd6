import Mathlib.Logic.Relation
import MethodLint.Proofs.AlikeOutlines
import MethodLint.Proofs.NestingDepth

/-! Nodes of unknown kinds. An analysis looks at a dozen kinds and passes over every other
one, so nothing that it observes depends on whether a node of another kind stands around
some consecutive children of a node, or on what that kind is. Only a switch looks at its
own children, so there no node may come between. -/
namespace MethodLint.InertNodes
open Node Walks Outcomes Flags Findings LinkedWalks NestingDepth OutlineFunctions OutlineVariables OutlineMetrics
open AlikeOutlines
open DecisionPoints (countLabel addDecisions_node)

/-! ## Changes -/

/-- The kinds that an analysis looks at. -/
def inspectedKinds : List String :=
  ["CompilationUnit", "MethodDeclaration", "If", "For", "While", "Do", "Switch", "SwitchLabel", "Try", "Catch",
    "ConditionalExpr", "VariableDeclarator"]

/-- A kind that no analysis looks at. -/
def Unknown (kind : String) : Prop := kind ∉ inspectedKinds

instance (kind : String) : Decidable (Unknown kind) := inferInstanceAs (Decidable (_ ∉ _))

/-- One change to a tree that concerns a node of an unknown kind only: it is put around some
consecutive children of a node that is no switch, or it gets another unknown kind. The node
may be anywhere in the tree. -/
inductive Changes : Node → Node → Prop where
  | wrap {h w : Header} {before run after : List Node} (parent : h.kind ≠ "Switch") (unknown : Unknown w.kind)
      (some : run ≠ []) :
      Changes (.mk h (before ++ run ++ after)) (.mk h (before ++ .mk w run :: after))
  | rename (unknown : Unknown h.kind) (also : Unknown other) :
      Changes (.mk h below) (.mk { h with kind := other } below)
  | inside (change : Changes c d) : Changes (.mk h (before ++ c :: after)) (.mk h (before ++ d :: after))

/-- Nothing that is observed of two passes differs. The records of their methods are the
same, with the same log before them; they stop for the same faults; and they find the same
violations. -/
structure ObservedAlike (p q : Pass) : Prop where
  records : ∀ t, List.map Measured.fields <$> p.measure t = List.map Measured.fields <$> q.measure t
  stops : ∀ t e, (p.measure t).outcome = .error e ↔ (q.measure t).outcome = .error e
  findings : ∀ t path, p.analyze t path = q.analyze t path

variable {h h' : Header} {c d n m : Node} {first second first' second' below below' before after : List Node}
  {kind : String} {t : Thresholds}

/-! ## Unknown kinds -/

theorem unknown_ne {other : String} (unknown : Unknown kind) (inspected : other ∈ inspectedKinds) :
    kind ≠ other := by
  rintro rfl
  exact unknown inspected

theorem unknown_inert (unknown : Unknown h.kind) : Inert h := by
  simp only [Unknown, inspectedKinds, List.mem_cons, List.not_mem_nil, or_false, not_or] at unknown
  obtain ⟨-, method, branch, loop, whileLoop, doLoop, switch, -, tried, caught, conditional, declarator⟩ := unknown
  constructor
  · exact declarator
  · exact decide_eq_false method
  · simp only [Header.opensLevel, Kind.opensLevel, Bool.or_eq_false_iff, decide_eq_false_iff_not]
    exact ⟨⟨⟨⟨loop, branch⟩, whileLoop⟩, tried⟩, switch⟩
  · intro below
    have undecided : Kind.isDecision h.kind = false := by
      simp only [Kind.isDecision, Bool.or_eq_false_iff, decide_eq_false_iff_not]
      exact ⟨⟨⟨⟨loop, branch⟩, whileLoop⟩, caught⟩, doLoop⟩
    have plain : ¬ h.kind = Kind.conditionalExpr := conditional
    have other : ¬ h.kind = Kind.switch := switch
    simp [Method.decisions, Node.kind, undecided, plain, other]

/-! ## Nodes that are not told apart -/

/-- Nodes that are alike, and whose method declarations have the same headers, lines
included. -/
structure Indistinct (first second : List Node) : Prop where
  alike : Alike first second
  headers : (among declaresMethod first).map Node.header = (among declaresMethod second).map Node.header

theorem indistinct_refl (nodes : List Node) : Indistinct nodes nodes := ⟨alike_refl nodes, rfl⟩

theorem indistinct_append (left : Indistinct first first') (right : Indistinct second second') :
    Indistinct (first ++ second) (first' ++ second') := by
  constructor
  · exact alike_append left.alike right.alike
  · rw [among_append, among_append, List.map_append, List.map_append, left.headers, right.headers]

theorem indistinct_around (same : Indistinct first second) (before after : List Node) :
    Indistinct (before ++ first ++ after) (before ++ second ++ after) :=
  indistinct_append (indistinct_append (indistinct_refl before) same) (indistinct_refl after)

/-- A node of an unknown kind can be left out, unless nothing is in it. -/
theorem indistinct_left_out (unknown : Unknown h.kind) (filled : below ≠ []) : Indistinct [.mk h below] below := by
  have inert := unknown_inert unknown
  constructor
  · exact alike_inert inert filled
  · rw [among_skip below inert.method]

/-- Nodes of unknown kinds are not told apart by these, whatever is in them. -/
theorem indistinct_unknown (unknown : Unknown h.kind) (also : Unknown h'.kind) (below : List Node) :
    Indistinct [.mk h below] [.mk h' below] := by
  by_cases filled : below = []
  · subst filled
    have inert := unknown_inert unknown
    have inert' := unknown_inert also
    refine ⟨⟨by simp, ?_, ?_, ?_, ?_⟩, ?_⟩
    · have plain : isDeclarator (.mk h []) = false := decide_eq_false inert.declarator
      have plain' : isDeclarator (.mk h' []) = false := decide_eq_false inert'.declarator
      simp [preorderAll, plain, plain']
    · intro total
      rw [addDecisions_node, addDecisions_node, inert.decisions, inert'.decisions]
    · intro outer
      simp only [levelsAll, levels_closed outer inert.level, levels_closed outer inert'.level]
    · rw [among_skip [] inert.method, among_skip [] inert'.method]
      exact .nil
    · rw [among_skip [] inert.method, among_skip [] inert'.method]
  · have left := indistinct_left_out unknown filled
    have right := indistinct_left_out also filled
    exact ⟨alike_trans left.alike (alike_symm right.alike), left.headers.trans right.headers.symm⟩

/-- A node around nodes that are not told apart, if it adds the same decision points. -/
theorem indistinct_node (own : Method.decisions (.mk h below) = Method.decisions (.mk h below'))
    (inner : Indistinct below below') : Indistinct [.mk h below] [.mk h below'] := by
  constructor
  · refine alike_node rfl own inner.alike fun _ => ?_
    rcases guarded_ofNode (.mk h below) with ⟨named, m, made⟩ | ⟨unnamed, _⟩
    · obtain ⟨name, named, ran⟩ := bind_ok_iff.mp made
      cases ran
      have also : Method.ofNode (.mk h below') = .ok ⟨name, h.beginLine, h.endLine, below'⟩ :=
        bind_ok_iff.mpr ⟨name, named, rfl⟩
      exact .named made also (sameMetrics_alike rfl inner.alike)
    · exact .unnamed unnamed unnamed
  · by_cases method : declaresMethod h = true
    · rw [among_take below method, among_take below' method, List.map_cons, List.map_cons, inner.headers]
      rfl
    · rw [among_skip below (by simpa using method), among_skip below' (by simpa using method), inner.headers]

/-! ## What a changed child means to its parent -/

/-- Only a switch looks at its children for its decision points. -/
theorem decisions_own (other : h.kind ≠ "Switch") (below below' : List Node) :
    Method.decisions (.mk h below) = Method.decisions (.mk h below') := by
  have other : h.kind ≠ Kind.switch := other
  simp [Method.decisions, Node.kind, other]

/-- A child that is changed keeps its header, or is of an unknown kind before and after. -/
theorem changes_header (change : Changes n m) :
    n.header = m.header ∨ Unknown n.kind ∧ Unknown m.kind := by
  cases change with
  | wrap _ _ _ => exact .inl rfl
  | rename unknown also => exact .inr ⟨unknown, also⟩
  | inside _ => exact .inl rfl

/-- A switch sees the same label in a child that was changed, or none. -/
theorem countLabel_changed (change : Changes c d) (count : Nat) : countLabel count c = countLabel count d := by
  rcases changes_header change with same | ⟨unknown, also⟩
  · unfold countLabel Node.kind
    rw [same]
  · have plain : c.kind ≠ Kind.switchLabel := unknown_ne unknown (by decide)
    have plain' : d.kind ≠ Kind.switchLabel := unknown_ne also (by decide)
    rw [countLabel, countLabel, if_neg plain, if_neg plain']

theorem decisions_changed (change : Changes c d) (before after : List Node) :
    Method.decisions (.mk h (before ++ c :: after)) = Method.decisions (.mk h (before ++ d :: after)) := by
  have labels : Method.caseLabels (.mk h (before ++ c :: after)) =
      Method.caseLabels (.mk h (before ++ d :: after)) := by
    change (before ++ c :: after).dropLast.foldlM countLabel 0 = (before ++ d :: after).dropLast.foldlM countLabel 0
    rw [List.dropLast_append_of_ne_nil (List.cons_ne_nil _ _), List.dropLast_append_of_ne_nil (List.cons_ne_nil _ _)]
    cases after with
    | nil => rfl
    | cons last rest =>
      simp only [List.dropLast_cons_cons, List.foldlM_append, List.foldlM_cons, countLabel_changed change]
  unfold Method.decisions
  rw [labels]
  rfl

/-- A tree with such a change is not told apart from the one without. -/
theorem indistinct_changes (change : Changes n m) : Indistinct [n] [m] := by
  induction change with
  | @wrap _ w before run after parent unknown some =>
    apply indistinct_node
    · exact decisions_own parent _ _
    · have wrapped : Indistinct run [.mk w run] := by
        obtain ⟨alike, headers⟩ := indistinct_left_out unknown some
        exact ⟨alike_symm alike, headers.symm⟩
      simpa using indistinct_around wrapped before after
  | rename unknown also => exact indistinct_unknown unknown also _
  | @inside c d h before after change ih =>
    apply indistinct_node
    · exact decisions_changed change before after
    · simpa using indistinct_around ih before after

/-! ## Measurements -/

/-- A declaration of a method is measured by the metrics of the method. -/
theorem declared_method {a : Method} (made : Method.ofNode n = .ok a) (t : Thresholds) :
    n.declared.measure t = (⟨a.locRecords, a.measure t⟩ : Traced Snapshot) >>= fun metrics =>
      pure ⟨a, metrics, a.nestingDepth⟩ := by
  have levels : n.declared.levels = a.nestingLevels := by
    rw [declared_levels, nesting_levels, (ofNode_ok made).2.2.2.2]
  unfold Declaration.measure Method.measure Method.nestingDepth
  rw [levels, show Method.ofNode n.declared.node = .ok a from made]
  rfl

/-- A measured method without what is below it. -/
def headed (m : Measured) : Measured := { m with method := { m.method with children := [] } }

/-- What is measured of two declarations is the same but for what is below them, and so is
the log. -/
theorem declared_alike (header : n.header = m.header) (alike : DeclaredAlike n m) (t : Thresholds) :
    headed <$> n.declared.measure t = headed <$> m.declared.measure t := by
  cases alike with
  | @named a b first second same =>
    obtain ⟨_, _, begins, ends, _⟩ := ofNode_ok first
    obtain ⟨_, _, begins', ends', _⟩ := ofNode_ok second
    have beginLine : a.beginLine = b.beginLine := by rw [begins, begins', header]
    have endLine : a.endLine = b.endLine := by rw [ends, ends', header]
    have records : a.locRecords = b.locRecords := by
      rw [Method.locRecords, Method.locRecords, beginLine, endLine, same.name]
    have metrics : a.measure t = b.measure t := by
      have exceeds : Method.anyExceeds t.maxnesting a.nestingLevels = Method.anyExceeds t.maxnesting b.nestingLevels :=
        same.exceeds t.maxnesting
      simp only [Method.measure, Method.measureAt, Method.loc, beginLine, endLine, same.cyclo, exceeds, same.noav]
    rw [declared_method first, declared_method second, map_bind, map_bind, records, metrics, same.depth]
    simp only [map_pure, headed, beginLine, endLine, same.name]
  | unnamed unnamed _ =>
    rcases guarded_name n.header with ⟨named, _⟩ | ⟨_, defect, refused⟩
    · exact absurd unnamed named
    · have refuses (k : Node) (same : k.header = n.header) :
          k.declared.measure t = ⟨[], .error (.tree defect)⟩ := by
        have failed : Method.ofNode k.declared.node = .error (.tree defect) := by
          change Method.ofNode k = _
          rw [Method.ofNode, same, refused]
          rfl
        rw [Declaration.measure, failed]
        rfl
      rw [refuses n rfl, refuses m header.symm]

/-- The declarations of nodes that are not told apart are measured alike. -/
theorem declarations_alike (same : Indistinct first second) (t : Thresholds) :
    (among declaresMethod first).map (fun d => headed <$> d.declared.measure t) =
      (among declaresMethod second).map fun d => headed <$> d.declared.measure t := by
  obtain ⟨alike, headers⟩ := same
  have each := alike.methods
  generalize among declaresMethod first = xs at each headers
  generalize among declaresMethod second = ys at each headers
  induction each with
  | nil => rfl
  | cons here _ ih =>
    obtain ⟨header, others⟩ := List.cons_eq_cons.mp headers
    rw [List.map_cons, List.map_cons, declared_alike header here, ih others]

/-! ## Passes -/

/-- The measurements of the methods of a tree, in their order, without what is below each. -/
def measurements (t : Thresholds) (n : Node) : List (Traced Measured) :=
  (methods n).map fun d => headed <$> d.declared.measure t

/-- The records of a pass are those of its measurements, after the opening. -/
theorem measure_measurements (t : Thresholds) (n : Node) :
    List.map Measured.fields <$> n.pass.measure t =
      n.pass.opening >>= fun _ => (measurements t n).mapM fun measured => Measured.fields <$> measured := by
  have shown (m : Measured) : (headed m).fields = m.fields := rfl
  rw [pass_records, measurements]
  simp only [List.mapM_map, Function.comp_def, Functor.map_map, shown]

/-- The violations of a pass are those that its measurements are judged to be. -/
theorem analyze_measurements (t : Thresholds) (path : Option String) (n : Node) :
    n.pass.analyze t path = n.pass.opening >>= fun _ =>
      ((measurements t n).mapM fun measured => measured >>= Measured.judge t path) >>= fun found =>
        pure (found.filterMap id) := by
  have declarations : n.pass.declarations = (methods n).map declared := rfl
  have judged (m : Measured) : (headed m).judge t path = m.judge t path := rfl
  rw [Pass.analyze, declarations, measurements]
  simp only [List.mapM_map, Function.comp_def, bind_map_left, judged]

/-- Passes over trees that are not told apart are observed alike, if they begin alike. -/
theorem observed_indistinct (same : Indistinct [n] [m]) (opening : n.pass.opening = m.pass.opening) :
    ObservedAlike n.pass m.pass := by
  have measured (t : Thresholds) : measurements t n = measurements t m := by
    rw [measurements, measurements, methods_among, methods_among]
    exact declarations_alike same t
  have records (t : Thresholds) :
      List.map Measured.fields <$> n.pass.measure t = List.map Measured.fields <$> m.pass.measure t := by
    rw [measure_measurements, measure_measurements, measured, opening]
  constructor
  · exact records
  · intro t e
    have stops (p : Pass) : (p.measure t).outcome = .error e ↔
        (List.map Measured.fields <$> p.measure t).outcome = .error e := by
      rw [outcome_map]
      cases (p.measure t).outcome <;> simp [Except.map]
    rw [stops, stops, records]
  · intro t path
    rw [analyze_measurements, analyze_measurements, measured, opening]

/-- A pass begins alike on a tree with such a change. -/
theorem opening_changes (change : Changes n m) : n.pass.opening = m.pass.opening := by
  have plain {k : Node} (unknown : Unknown k.kind) : k.pass.opening = pure () :=
    if_neg (unknown_ne unknown (by decide))
  rcases changes_header change with same | ⟨unknown, also⟩
  · exact congrArg (fun h => Pass.opening ⟨h, []⟩) same
  · rw [plain unknown, plain also]

theorem observed_changes (change : Changes n m) : ObservedAlike n.pass m.pass :=
  observed_indistinct (indistinct_changes change) (opening_changes change)

/-- Any number of changes, made or taken back, cannot be observed. -/
theorem observed_changed (changed : Relation.EqvGen Changes n m) : ObservedAlike n.pass m.pass := by
  induction changed with
  | rel n m change => exact observed_changes change
  | refl n => exact ⟨fun _ => rfl, fun _ _ => .rfl, fun _ _ => rfl⟩
  | symm n m _ ih =>
    exact ⟨fun t => (ih.records t).symm, fun t e => (ih.stops t e).symm, fun t path => (ih.findings t path).symm⟩
  | trans n m k _ _ first second =>
    exact ⟨fun t => (first.records t).trans (second.records t), fun t e => (first.stops t e).trans (second.stops t e),
      fun t path => (first.findings t path).trans (second.findings t path)⟩

variable {s u : Store} {root top : Nat}

/-- An analysis of a well-formed tree observes nothing of the nodes of unknown kinds: if they
are put around consecutive children of nodes that are no switches, are taken away again, or
get other unknown kinds, it has the same records, violations and faults as before, for all
thresholds. -/
theorem unknown_kinds_unobserved (tree : WellFormed s root) (other : WellFormed u top)
    (changed : Relation.EqvGen Changes (s.tree root) (u.tree top)) : ObservedAlike (s.pass root) (u.pass top) := by
  rw [pass_holds tree.tree tree.living, pass_holds other.tree other.living]
  exact observed_changed changed

/-- A switch looks for labels among its own children, so it does matter what is put around one. -/
example :
    let label : Node := .mk ⟨"SwitchLabel", .null, .null, .switchLabel (.bool false)⟩ []
    let plain (kind : String) (below : List Node) : Node := .mk (.plain kind .null .null) below
    DecisionPoints.pointsAmong [plain "Switch" [label, plain "CaseBody" []]] = 2 ∧
      DecisionPoints.pointsAmong [plain "Switch" [plain "Block" [label], plain "CaseBody" []]] = 1 := by decide

/-- A method with a loop, in which a branch and an expression stand in a suite. -/
def suitedLoop : Node :=
  .mk ⟨"MethodDeclaration", .int 1, .int 4, .methodDeclaration (.str "f")⟩
    [.mk (.plain "For" (.int 2) (.int 4)) [.mk (.plain "Suite" .null .null)
      [.mk (.plain "If" (.int 3) (.int 3)) [], .mk (.plain "Expr" (.int 4) (.int 4)) []]]]

/-- The same method, where a block stands around the loop and none in it, and the
expression is returned. -/
def blockedLoop : Node :=
  .mk ⟨"MethodDeclaration", .int 1, .int 4, .methodDeclaration (.str "f")⟩
    [.mk (.plain "Block" .null .null) [.mk (.plain "For" (.int 2) (.int 4))
      [.mk (.plain "If" (.int 3) (.int 3)) [], .mk (.plain "Return" (.int 4) (.int 4)) []]]]

theorem suited_changed : Relation.EqvGen Changes suitedLoop blockedLoop := by
  let header : Header := ⟨"MethodDeclaration", .int 1, .int 4, .methodDeclaration (.str "f")⟩
  let branch : Node := .mk (.plain "If" (.int 3) (.int 3)) []
  let loop (below : List Node) : Node := .mk (.plain "For" (.int 2) (.int 4)) below
  let last (kind : String) : Node := .mk (.plain kind (.int 4) (.int 4)) []
  have suite : Changes (.mk header [loop [branch, last "Expr"]]) suitedLoop :=
    @Changes.inside _ _ header [] []
      (@Changes.wrap _ (.plain "Suite" .null .null) [] [branch, last "Expr"] [] (by decide) (by decide) (by decide))
  have returned : Changes (.mk header [loop [branch, last "Expr"]]) (.mk header [loop [branch, last "Return"]]) :=
    @Changes.inside _ _ header [] [] (@Changes.inside _ _ _ [branch] []
      (.rename (by decide) (by decide)))
  have block : Changes (.mk header [loop [branch, last "Return"]]) blockedLoop :=
    @Changes.wrap header (.plain "Block" .null .null) [] [loop [branch, last "Return"]] [] (by decide) (by decide)
      (by decide)
  exact .trans _ _ _ (.symm _ _ (.rel _ _ suite)) (.trans _ _ _ (.rel _ _ returned) (.rel _ _ block))

/-- Either way the branch is one level deep in the method. -/
theorem loops_observed_alike :
    let s := (Store.empty.insert suitedLoop).2.hold "tree" 0
    let u := (Store.empty.insert blockedLoop).2.hold "tree" 0
    WellFormed s 0 ∧ WellFormed u 0 ∧ Relation.EqvGen Changes (s.tree 0) (u.tree 0) ∧
      ObservedAlike (s.pass 0) (u.pass 0) ∧ (s.declared 0).levels = [0, 1] ∧ (u.declared 0).levels = [0, 1] := by
  intro s u
  obtain ⟨tree, suited⟩ : WellFormed s 0 ∧ s.tree 0 = suitedLoop := wellFormed_inserted (by decide +kernel)
  obtain ⟨other, blocked⟩ : WellFormed u 0 ∧ u.tree 0 = blockedLoop := wellFormed_inserted (by decide +kernel)
  have changed : Relation.EqvGen Changes (s.tree 0) (u.tree 0) := by
    rw [suited, blocked]
    exact suited_changed
  exact ⟨tree, other, changed, unknown_kinds_unobserved tree other changed, by decide +kernel, by decide +kernel⟩

end MethodLint.InertNodes
