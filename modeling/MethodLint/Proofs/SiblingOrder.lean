import MethodLint.Proofs.AlikeOutlines
import MethodLint.Proofs.NestingDepth

/-! The order of siblings. If the children of nodes are put in another order, in a switch with
the same last child, then every method keeps its metrics, although the scan for deep
constructs stops early and flags that are missing are met in another order. An analysis
reports the same then, only in another order. -/
namespace MethodLint.SiblingOrder
open Node Walks Outcomes Flags Findings LinkedWalks NestingDepth OutlineFunctions OutlineVariables OutlineMetrics
open AlikeOutlines (levelsAll_append)
open DecisionPoints

/-! ## Orders -/

/-- One change of order in a tree: the children of one node are rearranged, wherever it is.
In a switch the last child, which is not looked at for labels, has to stay the last. -/
inductive Reorders : Node → Node → Prop where
  | children (rearranged : first.Perm second) (last : h.kind = "Switch" → first.getLast? = second.getLast?) :
      Reorders (.mk h first) (.mk h second)
  | inside (change : Reorders c d) : Reorders (.mk h (before ++ c :: after)) (.mk h (before ++ d :: after))

/-- Two computations come to the same answers in some order, or both stop. -/
inductive AnyOrder {α : Type} : Except Fault (List α) → Except Fault (List α) → Prop where
  | ok (rearranged : as.Perm bs) : AnyOrder (.ok as) (.ok bs)
  | stopped (e other : Fault) : AnyOrder (.error e) (.error other)

/-- Two passes observe the same but for the order: the records of their methods, and their
violations. -/
structure SameButOrder (t : Thresholds) (path : Option String) (p q : Pass) : Prop where
  records : AnyOrder (List.map Measured.fields <$> p.measure t).outcome
    (List.map Measured.fields <$> q.measure t).outcome
  violations : AnyOrder (p.analyze t path).outcome (q.analyze t path).outcome

/-- The computation ends with a malformed tree. -/
def IsMalformed {α : Type} (x : Except Fault α) : Prop := ∃ defect, x = .error (.tree defect)

/-- Either pass ends with a malformed tree if the other one does. -/
structure MalformedAlike (t : Thresholds) (path : Option String) (p q : Pass) : Prop where
  measuring : IsMalformed (p.measure t).outcome ↔ IsMalformed (q.measure t).outcome
  analyzing : IsMalformed (p.analyze t path).outcome ↔ IsMalformed (q.analyze t path).outcome

/-- Thresholds that metrics can be compared with. -/
structure Numeric (t : Thresholds) : Prop where
  cyclo : t.cyclo.number?.isSome = true
  maxnesting : t.maxnesting.number?.isSome = true
  noav : t.noav.number?.isSome = true
  loc : t.loc.number?.isSome = true

variable {h : Header} {c d n m : Node} {first second first' second' below below' before after : List Node}
  {t : Thresholds} {path : Option String} {α β : Type}

/-! ## Answers, whatever the faults -/

theorem toOption_bind (x : Except Fault α) (f : α → Except Fault β) :
    (x >>= f).toOption = x.toOption.bind fun a => (f a).toOption := by
  cases x <;> rfl

theorem toOption_ok (a : α) : (.ok a : Except Fault α).toOption = some a := rfl

theorem toOption_eq_some {x : Except Fault α} {a : α} : x.toOption = some a ↔ x = .ok a := by
  cases x <;> simp [Except.toOption]

/-- Items are all answered if none of them has no answer. -/
theorem mapM_answered {f : α → Except Fault β} {items : List α} :
    (∃ answers, items.mapM f = .ok answers) ↔ none ∉ items.map fun item => (f item).toOption := by
  constructor
  · rintro ⟨answers, ran⟩ absent
    obtain ⟨item, member, unanswered⟩ := List.mem_map.mp absent
    obtain ⟨answer, _, answered⟩ := answer_of_mem (mapM_ok_forall ran) member
    rw [toOption_eq_some.mpr answered] at unanswered
    cases unanswered
  · intro present
    have each (item : α) (member : item ∈ items) : ∃ answer, f item = .ok answer ∧ True := by
      obtain ⟨answer, answered⟩ := Option.ne_none_iff_exists'.mp fun absent =>
        present (List.mem_map.mpr ⟨item, member, absent⟩)
      exact ⟨answer, toOption_eq_some.mp answered, trivial⟩
    obtain ⟨answers, ran, _⟩ := mapM_total each
    exact ⟨answers, ran⟩

theorem mapM_answers {f : α → Except Fault β} {items : List α} {answers : List β} (ran : items.mapM f = .ok answers) :
    (items.map fun item => (f item).toOption) = answers.map some := by
  rw [← List.forall₂_eq_eq_eq, List.forall₂_map_left_iff, List.forall₂_map_right_iff]
  exact (mapM_ok_forall ran).imp fun _ _ => toOption_eq_some.mpr

/-- Items with the same answers in some order are answered all together in some order, or
not at all. -/
theorem anyOrder_mapM {f : α → Except Fault β} {xs ys : List α}
    (same : (xs.map fun x => (f x).toOption).Perm (ys.map fun y => (f y).toOption)) :
    AnyOrder (xs.mapM f) (ys.mapM f) := by
  have answered : (∃ as, xs.mapM f = .ok as) ↔ ∃ bs, ys.mapM f = .ok bs := by
    rw [mapM_answered, mapM_answered, same.mem_iff]
  cases ran : xs.mapM f with
  | ok as =>
    obtain ⟨bs, also⟩ := answered.mp ⟨as, ran⟩
    rw [also]
    rw [mapM_answers ran, mapM_answers also] at same
    exact .ok ((List.map_perm_map_iff (Option.some_injective β)).mp same)
  | error e =>
    cases also : ys.mapM f with
    | ok bs =>
      obtain ⟨as, answers⟩ := answered.mpr ⟨bs, also⟩
      rw [ran] at answers
      cases answers
    | error other => exact .stopped e other

theorem anyOrder_map {x y : Except Fault (List α)} (f : List α → List β)
    (keeps : ∀ as bs, as.Perm bs → (f as).Perm (f bs)) (same : AnyOrder x y) :
    AnyOrder (x >>= fun as => .ok (f as)) (y >>= fun bs => .ok (f bs)) := by
  cases same with
  | ok rearranged => exact .ok (keeps _ _ rearranged)
  | stopped e other => exact .stopped e other

/-- The tree is malformed. -/
def IsTree (e : Fault) : Prop := ∃ defect, e = .tree defect

theorem ends_any {good : α → Prop} {sort : Fault → Prop} {x : Except Fault α} (ends : Ends good sort x) :
    Ends (fun _ => True) sort x := by
  cases ends with
  | ok _ => exact .ok trivial
  | error sorted => exact .error sorted

/-- What stops for nothing but a malformed tree ends with one if it stops. -/
theorem isMalformed_anyOrder {x y : Except Fault (List α)} (same : AnyOrder x y)
    (left : Ends (fun _ => True) IsTree x) (right : Ends (fun _ => True) IsTree y) :
    IsMalformed x ↔ IsMalformed y := by
  cases same with
  | ok _ => exact iff_of_false nofun nofun
  | stopped e other =>
    cases left with
    | error left =>
      cases right with
      | error right => exact iff_of_true (left.imp fun _ => congrArg _) (right.imp fun _ => congrArg _)

theorem isMalformed_map (f : α → β) (x : Traced α) : IsMalformed (f <$> x).outcome ↔ IsMalformed x.outcome := by
  rw [outcome_map]
  cases x.outcome <;> simp [IsMalformed, Except.map]

/-! ## Comparisons with numbers -/

theorem anyExceeds_number {threshold : Value} (number : threshold.number?.isSome = true) (levels : List Nat) :
    ∃ answer, Method.anyExceeds threshold levels = .ok answer := by
  induction levels with
  | nil => exact ⟨false, rfl⟩
  | cons level rest ih =>
    obtain ⟨beyond, compared⟩ := exceeds_number (a := .int level) rfl number
    cases beyond with
    | true => exact ⟨true, by rw [Method.anyExceeds, compared]; rfl⟩
    | false =>
      obtain ⟨answer, scanned⟩ := ih
      exact ⟨answer, by rw [Method.anyExceeds, compared]; exact scanned⟩

/-- A threshold can be compared with every level or with none, so the order in which levels
are scanned does not matter. -/
theorem anyExceeds_perm (threshold : Value) {levels others : List Nat} (same : levels.Perm others) :
    Method.anyExceeds threshold levels = Method.anyExceeds threshold others := by
  induction same with
  | nil => rfl
  | cons level _ ih => rw [Method.anyExceeds, Method.anyExceeds, ih]
  | swap level other rest =>
    -- Either every comparison stops, and all for the same fault, or none does.
    cases number : threshold.number? with
    | none => simp [Method.anyExceeds, Value.exceeds, number, bind, Except.bind, Value.typeName]
    | some bound =>
      have compared (l : Nat) : (Value.int l).exceeds threshold = .ok ((Number.int l).exceeds bound) := by
        rw [Value.exceeds, number]
        rfl
      simp only [Method.anyExceeds, compared, bind, Except.bind, pure, Except.pure]
      split <;> split <;> rfl
  | trans _ _ left right => exact left.trans right

/-- A method with known lines is measured unless the tree is malformed, and its line span is
a number. -/
theorem measure_ends (a : Method) (begins : IsLine a.beginLine) (ends : IsLine a.endLine) (numeric : Numeric t) :
    Ends (fun s => s.loc.number?.isSome = true) IsTree (a.measure t) := by
  obtain ⟨span, known, number⟩ := loc_number a begins ends
  obtain ⟨answer, scanned⟩ := anyExceeds_number numeric.maxnesting a.nestingLevels
  unfold Method.measure Method.measureAt
  rw [known, scanned]
  -- Of the four metrics only the complexity is left to stop.
  change Ends _ _ (a.cyclo >>= _)
  exact ends_bind (ends_guarded (guarded_cyclo a)) fun _ _ => .ok number

theorem policy_numeric (numeric : Numeric t) {s : Snapshot} (span : s.loc.number?.isSome = true) :
    ∃ answer, isBrainMethod s t = .ok answer := by
  obtain ⟨long, first⟩ := exceeds_number span numeric.loc
  obtain ⟨complex, second⟩ := exceeds_number (a := .int s.cyclo) rfl numeric.cyclo
  obtain ⟨many, last⟩ := exceeds_number (a := .int s.noav) rfl numeric.noav
  refine ⟨long && complex && s.nestingExceeds && many, ?_⟩
  cases long <;> cases complex <;> cases nested : s.nestingExceeds <;>
    simp [isBrainMethod, first, second, last, nested, bind, Except.bind, pure, Except.pure]

/-! ## What is seen of a method -/

/-- The record of a method declaration, without the log. -/
def record (t : Thresholds) (d : Node) : Except Fault (List (String × Value)) :=
  (Measured.fields <$> d.declared.measure t).outcome

/-- What an analysis sees of a method declaration, as far as it can be measured. -/
structure Seen where
  header : Header
  record : Option (List (String × Value))
  finding : Option (Option Violation)

def seen (t : Thresholds) (path : Option String) (d : Node) : Seen :=
  ⟨d.header, (record t d).toOption, (finding t path d).toOption⟩

theorem record_eq (t : Thresholds) (d : Node) : record t d = Method.ofNode d >>= fun a => a.measure t >>= fun s =>
    .ok (Measured.fields ⟨a, s, Method.deepest (levelsAll d.children 0)⟩) := by
  rw [record, outcome_map, declared_measure, declared_levels]
  cases Method.ofNode d with
  | error e => rfl
  | ok a => cases measured : a.measure t <;> simp [measured, bind, Except.bind, Except.map]

/-- A declaration with known lines stops for nothing but a malformed tree, if nothing else
stops what is done with its measurement. -/
theorem declaration_ends {f : Method → Snapshot → Except Fault α}
    (lines : IsLine d.header.beginLine ∧ IsLine d.header.endLine) (numeric : Numeric t)
    (later : ∀ a s, s.loc.number?.isSome = true → Ends (fun _ => True) IsTree (f a s)) :
    Ends (fun _ => True) IsTree (Method.ofNode d >>= fun a => a.measure t >>= f a) := by
  rcases guarded_ofNode d with ⟨_, a, made⟩ | ⟨_, defect, unmade⟩
  · obtain ⟨_, _, begins, ends, _⟩ := ofNode_ok made
    rw [made]
    change Ends _ _ (a.measure t >>= f a)
    exact ends_bind (measure_ends a (begins ▸ lines.1) (ends ▸ lines.2) numeric) (later a)
  · rw [unmade]
    exact .error ⟨defect, rfl⟩

theorem record_ends (lines : IsLine d.header.beginLine ∧ IsLine d.header.endLine) (numeric : Numeric t) :
    Ends (fun _ => True) IsTree (record t d) := by
  rw [record_eq]
  exact declaration_ends lines numeric fun _ _ _ => .ok trivial

theorem finding_ends (lines : IsLine d.header.beginLine ∧ IsLine d.header.endLine) (numeric : Numeric t) :
    Ends (fun _ => True) IsTree (finding t path d) := by
  refine declaration_ends lines numeric fun a s span => ?_
  obtain ⟨answer, judged⟩ := policy_numeric numeric span
  rw [judged]
  exact .ok trivial

/-! ## Balanced nodes -/

/-- Nodes that differ in their order only, as far as a method around them can tell. -/
structure Balanced (first second : List Node) : Prop where
  filled : first = [] ↔ second = []
  declarators : (preorderAll first).countP isDeclarator = (preorderAll second).countP isDeclarator
  unflagged : (∃ d ∈ preorderAll first, Unflagged d) ↔ ∃ d ∈ preorderAll second, Unflagged d
  points : pointsAmong first = pointsAmong second
  levels : ∀ outer, (levelsAll first outer).Perm (levelsAll second outer)
  methods : ∀ t path,
    ((among declaresMethod first).map (seen t path)).Perm ((among declaresMethod second).map (seen t path))

theorem balanced_refl (nodes : List Node) : Balanced nodes nodes :=
  ⟨.rfl, rfl, .rfl, rfl, fun _ => .rfl, fun _ _ => .rfl⟩

theorem pointsAmong_append (first second : List Node) :
    pointsAmong (first ++ second) = pointsAmong first + pointsAmong second := by
  induction first with
  | nil => exact (Nat.zero_add _).symm
  | cons n rest ih => rw [List.cons_append, pointsAmong, pointsAmong, ih, Nat.add_assoc]

theorem balanced_append (left : Balanced first first') (right : Balanced second second') :
    Balanced (first ++ second) (first' ++ second') := by
  constructor
  · rw [List.append_eq_nil_iff, List.append_eq_nil_iff, left.filled, right.filled]
  · rw [preorderAll_append, preorderAll_append, List.countP_append, List.countP_append, left.declarators,
      right.declarators]
  · simp only [preorderAll_append, List.mem_append, or_and_right, exists_or, left.unflagged, right.unflagged]
  · rw [pointsAmong_append, pointsAmong_append, left.points, right.points]
  · intro outer
    rw [levelsAll_append, levelsAll_append]
    exact (left.levels outer).append (right.levels outer)
  · intro t path
    rw [among_append, among_append, List.map_append, List.map_append]
    exact (left.methods t path).append (right.methods t path)

/-- The pre-order goes through the same nodes, whatever order they stand in. -/
theorem preorderAll_perm (same : first.Perm second) : (preorderAll first).Perm (preorderAll second) := by
  have flat (nodes : List Node) : preorderAll nodes = nodes.flatMap fun n => n :: preorder n := by
    induction nodes with
    | nil => rfl
    | cons n rest ih => rw [preorderAll, ih, List.flatMap_cons, List.cons_append]
  rw [flat, flat]
  exact same.flatMap_right _

theorem levelsAll_perm (same : first.Perm second) (outer : Nat) :
    (levelsAll first outer).Perm (levelsAll second outer) := by
  have flat (nodes : List Node) : levelsAll nodes outer = nodes.flatMap fun n => levels n outer := by
    induction nodes with
    | nil => rfl
    | cons n rest ih => rw [levelsAll, ih, List.flatMap_cons]
  rw [flat, flat]
  exact same.flatMap_right _

theorem balanced_perm (same : first.Perm second) : Balanced first second := by
  have all := preorderAll_perm same
  constructor
  · rw [← List.length_eq_zero_iff, ← List.length_eq_zero_iff, same.length_eq]
  · exact all.countP_eq isDeclarator
  · simp only [all.mem_iff]
  · rw [points_split, points_split, labelsAmong, labelsAmong, all.countP_eq, (all.flatMap_right _).length_eq]
  · exact levelsAll_perm same
  · intro t path
    exact (all.filter _).map _

/-! ## A node around balanced nodes -/

/-- Methods around balanced nodes have the same complexity, or none. -/
theorem cyclo_balanced {a b : Method} (inner : Balanced a.children b.children) :
    a.cyclo.toOption = b.cyclo.toOption := by
  have unflagged := inner.unflagged
  rw [← method_descendants, ← method_descendants] at unflagged
  rcases guarded_cyclo a with ⟨flagged, _⟩ | ⟨missing, defect, stopped⟩
  · have filled : a.children.isEmpty = b.children.isEmpty := by
      rw [Bool.eq_iff_iff, List.isEmpty_iff, List.isEmpty_iff, inner.filled]
    rw [cyclo_flagged flagged, cyclo_flagged (mt unflagged.mpr flagged), filled, inner.points]
  · rcases guarded_cyclo b with ⟨flagged, _⟩ | ⟨_, other, also⟩
    · exact absurd (unflagged.mp missing) flagged
    · rw [stopped, also]
      rfl

theorem measure_balanced {a b : Method} (begins : a.beginLine = b.beginLine) (ends : a.endLine = b.endLine)
    (inner : Balanced a.children b.children) (t : Thresholds) : (a.measure t).toOption = (b.measure t).toOption := by
  have span : a.loc = b.loc := by rw [Method.loc, Method.loc, begins, ends]
  have scanned : Method.anyExceeds t.maxnesting a.nestingLevels = Method.anyExceeds t.maxnesting b.nestingLevels := by
    rw [nesting_levels, nesting_levels]
    exact anyExceeds_perm _ (inner.levels 0)
  have noav : a.noav = b.noav := by
    rw [Method.noav, Method.noav, method_descendants, method_descendants]
    exact inner.declarators
  simp only [Method.measure, Method.measureAt, toOption_bind, span, cyclo_balanced inner, scanned, noav]

/-- A method declaration is seen alike around balanced nodes. -/
theorem seen_balanced (h : Header) (inner : Balanced below below') (t : Thresholds) (path : Option String) :
    seen t path (.mk h below) = seen t path (.mk h below') := by
  have depth : Method.deepest (levelsAll below 0) = Method.deepest (levelsAll below' 0) := by
    rw [deepest_perm (inner.levels 0), deepest_perm .rfl]
  cases named : h.methodName? with
  | error e =>
    have unmade (below : List Node) : Method.ofNode (.mk h below) = .error e := by
      rw [Method.ofNode, header_mk, named]
      rfl
    simp only [seen, record_eq, finding, unmade]
    rfl
  | ok name =>
    have made (below : List Node) : Method.ofNode (.mk h below) = .ok ⟨name, h.beginLine, h.endLine, below⟩ := by
      rw [Method.ofNode, header_mk, named]
      rfl
    have measured := measure_balanced (a := ⟨name, h.beginLine, h.endLine, below⟩)
      (b := ⟨name, h.beginLine, h.endLine, below'⟩) rfl rfl inner t
    simp only [seen, record_eq, finding, toOption_bind, made, toOption_ok, Option.bind_some, measured, children_mk,
      depth]
    rfl

/-- The labels of a switch are known from the headers of its children before the last. -/
theorem labels_headers (same : (below.dropLast.map Node.header).Perm (below'.dropLast.map Node.header)) :
    (caseLabels (.mk h below)).length = (caseLabels (.mk h below')).length ∧
      (Unflagged (.mk h below) ↔ Unflagged (.mk h below')) := by
  have labels (nodes : List Node) :
      (nodes.filter isCaseLabel).length = (nodes.map Node.header).countP fun h => isCaseLabel (.mk h []) := by
    rw [← List.countP_eq_length_filter, List.countP_map]
    rfl
  have missing (nodes : List Node) : (∃ c ∈ nodes, c.kind = Kind.switchLabel ∧ ¬ HasDefaultFlag c.header) ↔
      ∃ h ∈ nodes.map Node.header, h.kind = Kind.switchLabel ∧ ¬ HasDefaultFlag h := by
    simp [Node.kind]
  constructor
  · by_cases switch : h.kind = "Switch"
    · simp only [caseLabels, Node.kind, header_mk, switch, if_true, children_mk, labels, same.countP_eq]
    · simp [caseLabels, Node.kind, switch]
  · simp only [Unflagged, children_mk, missing, same.mem_iff]
    rfl

/-- A node around balanced nodes, where a switch has the same labels. -/
theorem balanced_node (inner : Balanced below below') (labels : h.kind = "Switch" →
    (below.dropLast.map Node.header).Perm (below'.dropLast.map Node.header)) :
    Balanced [.mk h below] [.mk h below'] := by
  -- Only a switch looks at its children, and no more than their headers.
  have own : (caseLabels (.mk h below)).length = (caseLabels (.mk h below')).length ∧
      (Unflagged (.mk h below) ↔ Unflagged (.mk h below')) := by
    by_cases switch : h.kind = "Switch"
    · exact labels_headers (labels switch)
    · have other : ¬ h.kind = Kind.switch := switch
      simp [caseLabels, Unflagged, Node.kind, switch, other]
  obtain ⟨counted, flagged⟩ := own
  have decided : decides (.mk h below) = decides (.mk h below') := rfl
  constructor
  · simp only [List.cons_ne_nil]
  · have declarator : isDeclarator (.mk h below) = isDeclarator (.mk h below') := rfl
    simp only [preorderAll, preorder_eq, children_mk, List.append_nil, List.countP_cons, inner.declarators, declarator]
  · simp only [preorderAll, preorder_eq, children_mk, List.append_nil, List.mem_cons, exists_eq_or_imp, flagged,
      inner.unflagged]
  · simp only [pointsAmong, points, decided, counted, inner.points]
  · intro outer
    simp only [levelsAll, levels, List.append_nil]
    split
    · exact (inner.levels _).cons _
    · exact inner.levels _
  · intro t path
    by_cases method : declaresMethod h = true
    · rw [among_take below method, among_take below' method, List.map_cons, List.map_cons, seen_balanced h inner]
      exact (inner.methods t path).cons _
    · rw [among_skip below (by simpa using method), among_skip below' (by simpa using method)]
      exact inner.methods t path

/-! ## Reordered trees -/

theorem dropLast_perm {α : Type} {xs ys : List α} (same : xs.Perm ys) (last : xs.getLast? = ys.getLast?) :
    xs.dropLast.Perm ys.dropLast := by
  have split (zs : List α) : zs.dropLast ++ zs.getLast?.toList = zs := by
    cases reversed : zs.getLast? with
    | none => simp [List.getLast?_eq_none_iff.mp reversed]
    | some z => exact List.dropLast_append_getLast? z reversed
  rw [← split xs, ← split ys, last] at same
  exact (List.perm_append_right_iff _).mp same

theorem reorders_header (change : Reorders n m) : n.header = m.header := by
  cases change <;> rfl

/-- A reordered tree is balanced against the tree it was. -/
theorem balanced_reorders (change : Reorders n m) : Balanced [n] [m] := by
  induction change with
  | children rearranged last =>
    apply balanced_node (balanced_perm rearranged)
    intro switch
    exact (dropLast_perm rearranged (last switch)).map _
  | @inside c d h before after change ih =>
    apply balanced_node
    · have changed : Balanced (c :: after) (d :: after) := balanced_append ih (balanced_refl after)
      exact balanced_append (balanced_refl before) changed
    · intro _
      rw [List.map_dropLast, List.map_dropLast, List.map_append, List.map_append, List.map_cons, List.map_cons,
        reorders_header change]

/-- However often a tree is reordered, the same is seen of its methods. -/
theorem seen_reordered (reordered : Relation.ReflTransGen Reorders n m) (t : Thresholds) (path : Option String) :
    ((methods n).map (seen t path)).Perm ((methods m).map (seen t path)) := by
  induction reordered with
  | refl => rfl
  | tail _ change ih =>
    refine ih.trans ?_
    rw [methods_among, methods_among]
    exact (balanced_reorders change).methods t path

theorem lines_reordered (reordered : Relation.ReflTransGen Reorders n m) (lines : LinesKnown n) : LinesKnown m := by
  intro d member
  have all := (seen_reordered reordered .standard none).map Seen.header
  rw [List.map_map, List.map_map] at all
  obtain ⟨e, inside, same⟩ := List.mem_map.mp (all.mem_iff.mpr (List.mem_map_of_mem member))
  rw [← show e.header = d.header from same]
  exact lines e inside

/-! ## Passes -/

theorem records_outcome (t : Thresholds) (n : Node) :
    (List.map Measured.fields <$> n.pass.measure t).outcome = (methods n).mapM (record t) := by
  rw [pass_records, Traced.outcome_bind, opening_outcome]
  exact outcome_mapM _ _

/-- A reordered tree is observed to be the same but for the order. -/
theorem observed_reordered (reordered : Relation.ReflTransGen Reorders n m) (t : Thresholds) (path : Option String) :
    SameButOrder t path n.pass m.pass := by
  have same := seen_reordered reordered t path
  constructor
  · have records := same.map Seen.record
    rw [List.map_map, List.map_map] at records
    rw [records_outcome, records_outcome]
    exact anyOrder_mapM records
  · have findings := same.map Seen.finding
    rw [List.map_map, List.map_map] at findings
    change AnyOrder (n.analyze t path).outcome (m.analyze t path).outcome
    rw [analyze_outcome, analyze_outcome]
    exact anyOrder_map _ (fun _ _ rearranged => rearranged.filterMap id) (anyOrder_mapM findings)

theorem records_ends (lines : LinesKnown n) (numeric : Numeric t) :
    Ends (fun _ => True) IsTree (List.map Measured.fields <$> n.pass.measure t).outcome := by
  rw [records_outcome]
  exact ends_any (ends_mapM (methods n) fun d member => record_ends (lines d member) numeric)

theorem violations_ends (lines : LinesKnown n) (numeric : Numeric t) (path : Option String) :
    Ends (fun _ => True) IsTree (n.pass.analyze t path).outcome := by
  change Ends _ _ (n.analyze t path).outcome
  rw [analyze_outcome]
  exact ends_bind (ends_mapM (methods n) fun d member => finding_ends (lines d member) numeric) fun _ _ => .ok trivial

/-- With numbers for lines and thresholds no other fault can come before a malformed tree. -/
theorem malformed_reordered (reordered : Relation.ReflTransGen Reorders n m) (lines : LinesKnown n)
    (numeric : Numeric t) (path : Option String) : MalformedAlike t path n.pass m.pass := by
  have also := lines_reordered reordered lines
  obtain ⟨records, violations⟩ := observed_reordered reordered t path
  constructor
  · rw [← isMalformed_map (List.map Measured.fields), ← isMalformed_map (List.map Measured.fields) (m.pass.measure t)]
    exact isMalformed_anyOrder records (records_ends lines numeric) (records_ends also numeric)
  · exact isMalformed_anyOrder violations (violations_ends lines numeric path) (violations_ends also numeric path)

variable {s u : Store} {root top : Nat}

/-- A label at the end of a switch is not counted, so no other child may be put there. -/
example :
    let label : Node := .mk ⟨"SwitchLabel", .null, .null, .switchLabel (.bool false)⟩ []
    let body : Node := .mk (.plain "CaseBody" .null .null) []
    let switch (below : List Node) : Node := .mk (.plain "Switch" .null .null) below
    pointsAmong [switch [label, body]] = 2 ∧ pointsAmong [switch [body, label]] = 1 := by decide

/-- A method with a variable and a switch in a loop, where these labels and their bodies are
in the switch. -/
def switchMethod (flags : List Bool) : Node :=
  .mk ⟨"MethodDeclaration", .int 1, .int 9, .methodDeclaration (.str "f")⟩
    [.mk (.plain "For" .null .null)
      [.mk ⟨"VariableDeclarator", .null, .null, .variableDeclarator (.str "x")⟩ [],
        .mk (.plain "Switch" .null .null) (flags.flatMap fun flag =>
          [.mk ⟨"SwitchLabel", .null, .null, .switchLabel (.bool flag)⟩ [], .mk (.plain "CaseBody" .null .null) []])]]

/-- A method with a variable and a branch in a loop. -/
def branchMethod : Node :=
  .mk ⟨"MethodDeclaration", .int 11, .int 19, .methodDeclaration (.str "g")⟩
    [.mk (.plain "While" .null .null) [.mk (.plain "If" .null .null) [],
      .mk ⟨"VariableDeclarator", .null, .null, .variableDeclarator (.str "y")⟩ []]]

/-- Nodes in a compilation unit. -/
def unit (nodes : List Node) : Node := .mk ⟨"CompilationUnit", .null, .null, .compilationUnit .null⟩ nodes

theorem methods_turned : Relation.ReflTransGen Reorders (unit [switchMethod [false, true], branchMethod])
    (unit [branchMethod, switchMethod [true, false]]) := by
  have labels (label other body : Node) : [label, body, other, body].Perm [other, body, label, body] :=
    (List.Perm.swap body label _).trans (((List.Perm.swap other label _).cons _).trans (List.Perm.swap other body _))
  have inner : Reorders (unit [switchMethod [false, true], branchMethod])
      (unit [switchMethod [true, false], branchMethod]) :=
    @Reorders.inside _ _ _ [] [branchMethod] (@Reorders.inside _ _ _ [] []
      (@Reorders.inside _ _ _ [_] [] (.children (labels _ _ _) fun _ => rfl)))
  have outer : Reorders (unit [switchMethod [true, false], branchMethod])
      (unit [branchMethod, switchMethod [true, false]]) :=
    .children (.swap _ _ _) fun switch => absurd switch (by decide)
  exact (Relation.ReflTransGen.single inner).tail outer

end MethodLint.SiblingOrder
