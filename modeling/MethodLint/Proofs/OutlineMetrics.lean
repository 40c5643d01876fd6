import Mathlib.Data.List.Fold
import Mathlib.Data.List.Perm.Basic
import MethodLint.Proofs.DecisionPoints
import MethodLint.Proofs.OutlineFunctions

/-! Complexity and nesting of a function, taken from its outline, are those of its
source. Nodes that the outline adds, such as the labels and bodies of cases or
contexts of names, decide nothing and open no level; the label of a case is
counted by the switch that it belongs to, and the last child of a switch, which
is not looked at, is never one. -/
namespace MethodLint.OutlineMetrics
open Source SourceParts Walks Outcomes Findings OutlineFunctions
open DecisionPoints (Counts counts_nil counts_cons counts_node cyclo_counts countLabel)

/-- The decision points among some parts. -/
def decided (parts : List (Part × Nat)) : Nat := parts.countP fun entry => entry.1.decides

/-- The levels of the constructs among some parts. -/
def nested (parts : List (Part × Nat)) : List Nat :=
  (parts.filter fun entry => entry.1.nests).map Prod.snd

theorem decided_append (first second : List (Part × Nat)) :
    decided (first ++ second) = decided first + decided second := by
  simp [decided]

theorem decided_cons (entry : Part × Nat) (rest : List (Part × Nat)) :
    decided (entry :: rest) = (if entry.1.decides then 1 else 0) + decided rest := by
  by_cases decides : entry.1.decides = true
  · simp [decided, decides]
    omega
  · simp [decided, decides]

theorem nested_append (first second : List (Part × Nat)) :
    nested (first ++ second) = nested first ++ nested second := by
  simp [nested]

theorem nested_cons (entry : Part × Nat) (rest : List (Part × Nat)) :
    nested (entry :: rest) = (if entry.1.nests then [entry.2] else []) ++ nested rest := by
  by_cases nests : entry.1.nests = true <;> simp [nested, nests]

/-! ## Decision points of single nodes -/

theorem cyclo_filled {m : Method} {k : Nat} (filled : m.children ≠ [])
    (counted : Counts m.children k) : m.cyclo = .ok (1 + k) := by
  rw [cyclo_counts counted, if_neg (by simpa using filled)]

theorem decisions_form (form : Form) (lines : Lines) (parts : List Syntax) (below : List Node) :
    Method.decisions (.mk (form.header lines) below) =
      .ok (if (Part.node (.plain form lines parts)).decides then 1 else 0) := by
  cases form <;> rfl

theorem decisions_name (id : String) (context : Context) (lines : Lines) (scopes : Scopes) :
    Counts [(nameNode id context lines scopes).1] 0 := by
  unfold nameNode
  split <;> cases context <;> exact fun _ => rfl

theorem outline_not_label (s : Syntax) (scopes : Scopes) :
    (s.outline scopes).1.kind ≠ Kind.switchLabel := by
  cases s with
  | plain form lines parts => exact form_kind_ne (by decide)
  | name id context lines =>
    rw [Syntax.outline]
    unfold nameNode
    split
    · exact show Kind.variableDeclarator ≠ Kind.switchLabel by decide
    · exact show "Name" ≠ Kind.switchLabel by decide
  | outer scope names lines =>
    exact show scope.label ≠ Kind.switchLabel by cases scope <;> decide
  | function name lines parameters body around =>
    exact show Kind.methodDeclaration ≠ Kind.switchLabel by decide
  | classDef lines parts => exact show "ClassDef" ≠ Kind.switchLabel by decide
  | matching lines subject cases => exact show Kind.switch ≠ Kind.switchLabel by decide
  | comprehension sort lines elements generators =>
    exact show sort.label ≠ Kind.switchLabel by cases sort <;> decide

/-- The flag of a label says whether its case decides. -/
theorem decides_case (c : Case) : (Part.case c).decides = !c.isDefault := by
  obtain ⟨pattern, guard, first, rest⟩ := c
  cases pattern with
  | plain form lines parts => cases form <;> cases parts <;> cases guard <;> rfl
  | _ => cases guard <;> rfl

theorem countLabel_other {n : Node} (other : n.kind ≠ Kind.switchLabel) (count : Nat) :
    countLabel count n = .ok count := by
  simp [countLabel, other]

theorem countLabel_label (c : Case) (lines : Lines) (below : List Node) (count : Nat) :
    countLabel count
        (.mk (variantHeader Kind.switchLabel lines (.switchLabel (.bool c.isDefault))) below) =
      .ok (count + if (Part.case c).decides then 1 else 0) := by
  rw [decides_case]
  cases c.isDefault <;> rfl

/-- The labels of a switch before its last child are those of all its cases: the
child that is left out is a body, or the subject of a switch without cases. -/
theorem caseLabels_outline (cases : List Case) (scopes : Scopes) (count : Nat) (before : Node)
    (other : before.kind ≠ Kind.switchLabel) :
    ((before :: (outlineCases cases scopes).1).dropLast).foldlM countLabel count =
      .ok (count + cases.countP fun c => (Part.case c).decides) := by
  induction cases generalizing scopes count before with
  | nil => rfl
  | cons c others ih =>
    obtain ⟨pattern, guard, first, rest⟩ := c
    have later (lines : Lines) (body : List Node) (scopes : Scopes) (count : Nat) :=
      ih scopes count (.mk (plainHeader "CaseBody" lines) body)
        (show "CaseBody" ≠ Kind.switchLabel by decide)
    rw [outlineCases_cons, List.dropLast_cons_cons, List.dropLast_cons_cons, List.foldlM_cons,
      countLabel_other other]
    refine bind_ok_iff.mpr ⟨_, rfl, bind_ok_iff.mpr ⟨_, countLabel_label _ _ _ _, ?_⟩⟩
    rw [later, List.countP_cons]
    congr 1
    omega

theorem decisions_switch (subject : Syntax) (cases : List Case) (lines : Lines) (scopes : Scopes) :
    Method.decisions (.mk (plainHeader Kind.switch lines)
        ((subject.outline scopes).1 :: (outlineCases cases (subject.outline scopes).2).1)) =
      .ok (1 + cases.countP fun c => (Part.case c).decides) := by
  have labels := caseLabels_outline cases (subject.outline scopes).2 0 _ (outline_not_label subject scopes)
  exact (congrArg (Except.map (1 + ·)) labels).trans (by rw [Nat.zero_add]; rfl)

theorem decisions_loop (lines : Lines) (below : List Node) :
    Method.decisions (.mk (plainHeader Kind.forLoop lines) below) = .ok 1 := rfl

theorem decisions_branch (lines : Lines) (below : List Node) :
    Method.decisions (.mk (plainHeader Kind.ifStatement lines) below) = .ok 1 := rfl

/-! ## Decision points of an outline -/

mutual

theorem outline_counts (s : Syntax) (scopes : Scopes) (outer : Nat) :
    Counts [(s.outline scopes).1] (decided (partsIn s outer)) := by
  cases s with
  | plain form lines parts =>
    rw [Syntax.outline, partsIn, decided_cons]
    exact counts_node (decisions_form form lines parts _) (outlineAll_counts parts _ _)
  | name id context lines => exact decisions_name id context lines scopes
  | outer scope names lines => cases scope <;> exact fun _ => rfl
  | function name lines parameters body around =>
    rw [Syntax.outline, partsIn, decided_cons]
    exact counts_node rfl (outlineAll_counts body _ _)
  | classDef lines parts =>
    rw [Syntax.outline, partsIn, decided_cons]
    exact counts_node rfl (outlineAll_counts parts _ _)
  | matching lines subject cases =>
    obtain ⟨k, total, counted⟩ := outlineCases_counts cases (subject.outline scopes).2 (outer + 1)
    have inner := counts_cons (outline_counts subject scopes (outer + 1)) counted
    have whole := counts_node (decisions_switch subject cases lines scopes) inner
    rw [Syntax.outline, partsIn, decided_cons, decided_append, total]
    convert whole using 1
    simp only [Part.decides, if_true]
    omega
  | comprehension sort lines elements generators =>
    rw [Syntax.outline, partsIn, decided_cons, decided_append, Nat.add_comm (decided (partsAmong _ _))]
    exact counts_node (by cases sort <;> rfl) (outlineGenerators_counts generators _ scopes outer
      fun scopes => outlineAll_counts elements scopes _)

theorem outlineAll_counts (parts : List Syntax) (scopes : Scopes) (outer : Nat) :
    Counts (outlineAll parts scopes).1 (decided (partsAmong parts outer)) := by
  cases parts with
  | nil => exact counts_nil
  | cons part rest =>
    rw [outlineAll, partsAmong, decided_append]
    exact counts_cons (outline_counts part _ _) (outlineAll_counts rest _ _)

/-- What is counted below the labels and bodies of some cases is all that they
hold but the cases themselves. -/
theorem outlineCases_counts (cases : List Case) (scopes : Scopes) (outer : Nat) :
    ∃ k, decided (partsAmongCases cases outer) = (cases.countP fun c => (Part.case c).decides) + k ∧
      Counts (outlineCases cases scopes).1 k := by
  match cases with
  | [] => exact ⟨0, rfl, counts_nil⟩
  | .mk pattern guard first rest :: others =>
    rw [outlineCases_cons]
    have label := counts_cons (outline_counts pattern scopes outer)
      (outlineGuard_counts guard (pattern.outline scopes).2 outer)
    have body scopes := counts_cons (outline_counts first scopes outer)
      (outlineAll_counts rest (first.outline scopes).2 outer)
    obtain ⟨k, total, later⟩ := outlineCases_counts others _ outer
    refine ⟨_, ?_, counts_cons (counts_node rfl label) (counts_cons (counts_node rfl (body _)) later)⟩
    simp only [partsAmongCases, decided_cons, decided_append, total, List.countP_cons]
    omega

theorem outlineGuard_counts (guard : Option Syntax) (scopes : Scopes) (outer : Nat) :
    Counts (outlineAll guard.toList scopes).1 (decided (partsOfGuard guard outer)) := by
  cases guard with
  | none => exact counts_nil
  | some condition => exact outline_counts condition scopes outer

theorem outlineGenerators_counts (generators : List Generator) (inside : Inside) (scopes : Scopes)
    (outer : Nat) {k : Nat} (counted : ∀ scopes, Counts (inside scopes).1 k) :
    Counts (outlineGenerators generators inside scopes).1
      (decided (partsAmongGenerators generators outer) + k) := by
  match generators with
  | [] => exact (Nat.zero_add k).symm ▸ counted scopes
  | .mk target iterable conditions :: rest =>
    have later scopes := outlineGenerators_counts rest inside scopes (outer + 1 + conditions.length) counted
    have tests := outlineConditions_counts conditions (outlineGenerators rest inside)
      (iterable.outline (target.outline scopes).2).2 (outer + 1) later
    have loop := counts_cons (outline_counts target scopes (outer + 1))
      (counts_cons (outline_counts iterable (target.outline scopes).2 (outer + 1)) tests)
    rw [outlineGenerators, Generator.outline]
    convert counts_node (decisions_loop _ _) loop using 1
    simp only [partsAmongGenerators, decided_cons, decided_append, Part.decides, if_true]
    omega

theorem outlineConditions_counts (conditions : List Syntax) (inside : Inside) (scopes : Scopes)
    (outer : Nat) {k : Nat} (counted : ∀ scopes, Counts (inside scopes).1 k) :
    Counts (outlineConditions conditions inside scopes).1
      (decided (partsAmongFilters conditions outer) + k) := by
  match conditions with
  | [] => exact (Nat.zero_add k).symm ▸ counted scopes
  | condition :: rest =>
    have later := outlineConditions_counts rest inside (condition.outline scopes).2 (outer + 1) counted
    rw [outlineConditions, partsAmongFilters, decided_cons, decided_append]
    convert counts_node (decisions_branch _ _)
      (counts_cons (outline_counts condition scopes (outer + 1)) later) using 1
    simp only [Part.decides, if_true]
    omega

end

/-! ## Levels of an outline -/

theorem opensLevel_form (form : Form) (lines : Lines) (parts : List Syntax) :
    (form.header lines).opensLevel = (Part.node (.plain form lines parts)).nests := by
  cases form <;> rfl

theorem levels_open {h : Header} {below : List Node} (outer : Nat) (opens : h.opensLevel = true) :
    levels (.mk h below) outer = outer :: levelsAll below (outer + 1) := by
  rw [levels, if_pos opens]

theorem levels_closed {h : Header} {below : List Node} (outer : Nat) (closed : h.opensLevel = false) :
    levels (.mk h below) outer = levelsAll below outer := by
  rw [levels, if_neg (by simp [closed])]

mutual

theorem outline_levels (s : Syntax) (scopes : Scopes) (outer : Nat) :
    (levels (s.outline scopes).1 outer).Perm (nested (partsIn s outer)) := by
  cases s with
  | plain form lines parts =>
    have opens := opensLevel_form form lines parts
    have inner := outlineAll_levels parts scopes (within (.node (.plain form lines parts)) outer)
    rw [Syntax.outline, partsIn, nested_cons]
    cases nests : (Part.node (.plain form lines parts)).nests with
    | true =>
      have deeper : within (.node (.plain form lines parts)) outer = outer + 1 := if_pos nests
      rw [levels_open outer (opens.trans nests), deeper]
      exact (deeper ▸ inner).cons outer
    | false =>
      have level : within (.node (.plain form lines parts)) outer = outer := if_neg (by simp [nests])
      rw [levels_closed outer (opens.trans nests), level]
      exact level ▸ inner
  | name id context lines =>
    rw [Syntax.outline]
    unfold nameNode
    split <;> cases context <;> exact .nil
  | outer scope names lines => cases scope <;> exact .nil
  | function name lines parameters body around =>
    rw [Syntax.outline, levels_closed outer rfl]
    exact outlineAll_levels body _ outer
  | classDef lines parts =>
    rw [Syntax.outline, levels_closed outer rfl]
    exact outlineAll_levels parts _ outer
  | matching lines subject cases =>
    rw [Syntax.outline, levels_open outer rfl, levelsAll, partsIn, nested_cons, nested_append]
    exact ((outline_levels subject scopes (outer + 1)).append
      (outlineCases_levels cases _ (outer + 1))).cons outer
  | comprehension sort lines elements generators =>
    have inner := outlineGenerators_levels generators (outlineAll elements) scopes outer _
      fun scopes => outlineAll_levels elements scopes (outer + opened generators)
    rw [Syntax.outline, levels_closed outer (by cases sort <;> rfl), partsIn, nested_cons, nested_append]
    exact inner.trans List.perm_append_comm

theorem outlineAll_levels (parts : List Syntax) (scopes : Scopes) (outer : Nat) :
    (levelsAll (outlineAll parts scopes).1 outer).Perm (nested (partsAmong parts outer)) := by
  cases parts with
  | nil => exact .nil
  | cons part rest =>
    rw [outlineAll, levelsAll, partsAmong, nested_append]
    exact (outline_levels part _ _).append (outlineAll_levels rest _ _)

theorem outlineCases_levels (cases : List Case) (scopes : Scopes) (outer : Nat) :
    (levelsAll (outlineCases cases scopes).1 outer).Perm (nested (partsAmongCases cases outer)) := by
  match cases with
  | [] => exact .nil
  | .mk pattern guard first rest :: others =>
    have label := (outline_levels pattern scopes outer).append
      (outlineGuard_levels guard (pattern.outline scopes).2 outer)
    have body scopes := (outline_levels first scopes outer).append
      (outlineAll_levels rest (first.outline scopes).2 outer)
    rw [outlineCases_cons, levelsAll, levelsAll, levels_closed outer rfl, levels_closed outer rfl,
      levelsAll, levelsAll, partsAmongCases, nested_cons, nested_append, nested_append, nested_append,
      nested_append, List.append_assoc (nested _ ++ nested _)]
    exact label.append ((body _).append (outlineCases_levels others _ outer))

theorem outlineGuard_levels (guard : Option Syntax) (scopes : Scopes) (outer : Nat) :
    (levelsAll (outlineAll guard.toList scopes).1 outer).Perm (nested (partsOfGuard guard outer)) := by
  cases guard with
  | none => exact .nil
  | some condition =>
    have alone := outline_levels condition scopes outer
    rwa [← List.append_nil (levels _ _)] at alone

theorem outlineGenerators_levels (generators : List Generator) (inside : Inside) (scopes : Scopes)
    (outer : Nat) (found : List Nat)
    (laid : ∀ scopes, (levelsAll (inside scopes).1 (outer + opened generators)).Perm found) :
    (levelsAll (outlineGenerators generators inside scopes).1 outer).Perm
      (nested (partsAmongGenerators generators outer) ++ found) := by
  match generators with
  | [] => exact laid scopes
  | .mk target iterable conditions :: rest =>
    have later scopes := outlineGenerators_levels rest inside scopes (outer + 1 + conditions.length)
      found fun scopes => by
        have reached := laid scopes
        rwa [opened, ← Nat.add_assoc, ← Nat.add_assoc] at reached
    have tests := outlineConditions_levels conditions (outlineGenerators rest inside)
      (iterable.outline (target.outline scopes).2).2 (outer + 1) _ later
    rw [outlineGenerators, Generator.outline, levelsAll, levels_open outer rfl, levelsAll, levelsAll,
      levelsAll, List.append_nil, partsAmongGenerators, nested_cons, nested_append, nested_append,
      nested_append]
    simp only [List.append_assoc]
    exact ((outline_levels target scopes _).append
      ((outline_levels iterable _ _).append tests)).cons outer

theorem outlineConditions_levels (conditions : List Syntax) (inside : Inside) (scopes : Scopes)
    (outer : Nat) (found : List Nat)
    (laid : ∀ scopes, (levelsAll (inside scopes).1 (outer + conditions.length)).Perm found) :
    (levelsAll (outlineConditions conditions inside scopes).1 outer).Perm
      (nested (partsAmongFilters conditions outer) ++ found) := by
  match conditions with
  | [] => exact laid scopes
  | condition :: rest =>
    have later := outlineConditions_levels rest inside (condition.outline scopes).2 (outer + 1)
      found fun scopes => by
        have reached := laid scopes
        rwa [List.length_cons, Nat.add_comm rest.length, ← Nat.add_assoc] at reached
    rw [outlineConditions, levelsAll, levels_open outer rfl, levelsAll, levelsAll, List.append_nil,
      partsAmongFilters, nested_cons, nested_append]
    simp only [List.append_assoc]
    exact ((outline_levels condition scopes _).append later).cons outer

end

theorem deepest_perm {first second : List Nat} (same : first.Perm second) :
    Method.deepest first = second.foldr max 0 := by
  rw [Method.deepest, List.foldl_eq_foldr, same.foldr_eq]

/-! ## What an outline says of each function -/

/-- A node says of a function what its source says: its name and lines, and the
complexity and nesting of its body with everything in it. -/
structure Describes (f : Function) (n : Node) : Prop where
  name : ∃ name, f.name = some name ∧ n.header.variant = .methodDeclaration (.str name)
  beginLine : n.header.beginLine = .ofLine? f.lines.first
  endLine : n.header.endLine = .ofLine? f.lines.last
  measured : ∃ method, Method.ofNode n = .ok method ∧
    method.cyclo = .ok (1 + decisionPoints f.body) ∧
    method.nestingDepth = nestingDepth f.body

theorem outlineAll_ne_nil {body : List Syntax} (filled : body ≠ []) (scopes : Scopes) :
    (outlineAll body scopes).1 ≠ [] := by
  cases body with
  | nil => exact absurd rfl filled
  | cons first rest => exact List.cons_ne_nil _ _

theorem describes_outline {f : Function} {n : Node} (outlined : IsOutlineOf f n) : Describes f n := by
  obtain ⟨named, filled, scopes, rfl⟩ := outlined
  obtain ⟨name, names⟩ := Option.isSome_iff_exists.mp named
  refine ⟨⟨name, names, by rw [names]; rfl⟩, rfl, rfl,
    ⟨.str name, .ofLine? f.lines.first, .ofLine? f.lines.last, _⟩, by rw [names]; rfl, ?_, ?_⟩
  · exact cyclo_filled (outlineAll_ne_nil filled _) (outlineAll_counts f.body _ 0)
  · rw [Method.nestingDepth, nesting_levels]
    exact deepest_perm (outlineAll_levels f.body _ 0)

/-- The outline of a source that keeps to the grammar has one method declaration
for each of its functions, in their order, and no other. Each has the name and the
lines of its function, and the complexity and nesting depth that are taken from it
are those of the function. -/
theorem outline_describes_functions (m : Module) (path : String) (lineCount : Int)
    (grammatical : areGrammatical m.body = true) :
    List.Forall₂ Describes (functionsAmong m.body) (methods (m.outline path lineCount)) := by
  rw [Module.outline, methods_unit _ (show Kind.compilationUnit ≠ Kind.methodDeclaration by decide)]
  exact (outlineAll_functions m.body grammatical _).imp fun _ _ => describes_outline

/-- A function that matches on its argument; a case of it holds another function,
which filters in a comprehension. The last case takes whatever is left. -/
def nestedMatch : Module where
  body := [.function (some "outer") ⟨some 1, some 8⟩ ["rows"]
    [.matching ⟨some 2, some 8⟩ (.name "rows" .load ⟨some 2, some 2⟩)
      [.mk (.plain .sequencePattern ⟨some 3, some 3⟩ []) none
        (.function (some "inner") ⟨some 4, some 5⟩ []
          [.plain .returning ⟨some 5, some 5⟩ [.comprehension .list ⟨some 5, some 5⟩
            [.name "x" .load ⟨some 5, some 5⟩]
            [.mk (.name "x" .store ⟨some 5, some 5⟩) (.name "rows" .load ⟨some 5, some 5⟩)
              [.name "x" .load ⟨some 5, some 5⟩]]]] []) [],
      .mk (.plain .capturePattern ⟨some 6, some 6⟩ []) none (.plain .pass ⟨some 7, some 7⟩ []) []]] []]

/-- Such a source keeps to the grammar, and its functions are described by the
outline with more than a trivial complexity and nesting. -/
theorem nested_match_described :
    areGrammatical nestedMatch.body = true ∧
    List.Forall₂ Describes (functionsAmong nestedMatch.body) (methods (nestedMatch.outline "a.py" 8)) ∧
    ((functionsAmong nestedMatch.body).map fun f => (f.name, decisionPoints f.body, nestingDepth f.body)) =
      [(some "outer", 4, 2), (some "inner", 2, 1)] :=
  have grammatical : areGrammatical nestedMatch.body = true := by decide
  ⟨grammatical, outline_describes_functions nestedMatch "a.py" 8 grammatical, by decide⟩

end MethodLint.OutlineMetrics
