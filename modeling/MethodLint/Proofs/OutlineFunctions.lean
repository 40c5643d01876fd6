import Mathlib.Data.List.Forall2
import MethodLint.Proofs.Findings
import MethodLint.Proofs.SourceParts

/-! The functions of a source and the method declarations of its outline are the
same, in the same order. A comprehension is laid out in another order than it is
written and the surroundings of a function are left out, but neither matters: the
grammar lets no function stand in either. -/
namespace MethodLint.OutlineFunctions
open Node Source SourceParts Walks Findings

/-! ## Kinds of the nodes of forms -/

variable {form : Form} {lines : Lines}

/-- Kinds of nodes that stand for something else than a form. -/
def reservedKinds : List String :=
  [Kind.methodDeclaration, Kind.switch, Kind.switchLabel, Kind.variableDeclarator, "ClassDef", "Name"]

theorem form_kind_ne {kind : String} (reserved : kind ∈ reservedKinds) :
    (form.header lines).kind ≠ kind := by
  have none : reservedKinds.contains (form.header lines).kind = false := by cases form <;> rfl
  rintro rfl
  simp [reserved] at none

/-! ## Cases -/

/-- The label and the body of a case before those of the others. A guard is laid
out like a list that holds it, if there is one. -/
theorem outlineCases_cons (pattern : Syntax) (guard : Option Syntax) (first : Syntax)
    (rest : List Syntax) (others : List Case) (scopes : Scopes) :
    outlineCases (.mk pattern guard first rest :: others) scopes =
      let matched := pattern.outline scopes
      let guarded := outlineAll guard.toList matched.2
      let opening := first.outline guarded.2
      let body := outlineAll rest opening.2
      let later := outlineCases others body.2
      let flag := Value.bool (Case.mk pattern guard first rest).isDefault
      (.mk (variantHeader Kind.switchLabel pattern.lines (.switchLabel flag))
          (matched.1 :: guarded.1) ::
        .mk (plainHeader "CaseBody" (Case.mk pattern guard first rest).bodyLines)
          (opening.1 :: body.1) :: later.1, later.2) := by
  cases guard <;> rfl

/-! ## Method declarations -/

/-- The header of a method declaration. -/
def declaresMethod (h : Header) : Bool := h.kind = Kind.methodDeclaration

theorem form_no_method : declaresMethod (form.header lines) = false :=
  decide_eq_false (form_kind_ne (by decide))

theorem methods_among (root : Node) : methods root = among declaresMethod [root] := by
  rw [methods, descendants_preorder, among, preorderAll, preorder_eq, preorderAll, List.append_nil]
  rfl

theorem methods_unit {h : Header} (below : List Node) (kind : h.kind ≠ Kind.methodDeclaration) :
    methods (.mk h below) = among declaresMethod below := by
  rw [methods_among, among_skip below (decide_eq_false kind)]

/-! ## No function stands in an expression -/

theorem statement_of_holds (holds : holdsStatements form = true) : isStatementForm form = true := by
  revert holds
  cases form <;> decide

mutual

theorem no_functions_in (s : Syntax) (grammatical : isGrammatical s = true)
    (expression : isStatement s = false) : functionsIn s = [] := by
  cases s with
  | plain form lines parts =>
    simp only [isGrammatical, Bool.and_eq_true, Bool.or_eq_true] at grammatical
    rcases grammatical.1 with holds | expressions
    · rw [isStatement, statement_of_holds holds] at expression
      cases expression
    · exact no_functions_among parts grammatical.2 expressions
  | name id context lines => rfl
  | comprehension sort lines elements generators =>
    simp only [isGrammatical, Bool.and_eq_true] at grammatical
    rw [functionsIn, no_functions_among elements grammatical.1.2 grammatical.1.1,
      no_functions_among_generators generators grammatical.2]
    rfl
  | _ => cases expression

theorem no_functions_among (parts : List Syntax) (grammatical : areGrammatical parts = true)
    (expressions : (parts.all fun part => !isStatement part) = true) : functionsAmong parts = [] := by
  cases parts with
  | nil => rfl
  | cons part rest =>
    simp only [areGrammatical, Bool.and_eq_true] at grammatical
    simp only [List.all_cons, Bool.and_eq_true, Bool.not_eq_true'] at expressions
    rw [functionsAmong, no_functions_in part grammatical.1 expressions.1,
      no_functions_among rest grammatical.2 expressions.2]
    rfl

theorem no_functions_among_generators (generators : List Generator)
    (grammatical : areGrammaticalGenerators generators = true) :
    functionsAmongGenerators generators = [] := by
  match generators with
  | [] => rfl
  | .mk target iterable conditions :: rest =>
    simp only [areGrammaticalGenerators, Bool.and_eq_true, Bool.not_eq_true'] at grammatical
    obtain ⟨⟨⟨⟨⟨⟨goal, targeted⟩, source⟩, iterated⟩, tests⟩, conditioned⟩, others⟩ := grammatical
    rw [functionsAmongGenerators, no_functions_in target targeted goal,
      no_functions_in iterable iterated source, no_functions_among conditions conditioned tests,
      no_functions_among_generators rest others]
    rfl

end

/-! ## The method declarations of an outline -/

/-- The node of a function that has a name and a body, made where some scopes are
open. -/
def IsOutlineOf (f : Function) (n : Node) : Prop :=
  f.name.isSome = true ∧ f.body ≠ [] ∧ ∃ scopes : Scopes, n = .mk
    (variantHeader Kind.methodDeclaration f.lines (.methodDeclaration (.ofText? f.name)))
    (outlineAll f.body (scopes.push f.parameters)).1

theorem expression_inert {s : Syntax} {n : Node} (grammatical : isGrammatical s = true)
    (expression : isStatement s = false)
    (pairs : List.Forall₂ IsOutlineOf (functionsIn s) (among declaresMethod [n])) : among declaresMethod [n] = [] := by
  rw [no_functions_in s grammatical expression] at pairs
  exact List.forall₂_nil_left_iff.mp pairs

mutual

theorem outline_functions (s : Syntax) (grammatical : isGrammatical s = true) (scopes : Scopes) :
    List.Forall₂ IsOutlineOf (functionsIn s) (among declaresMethod [(s.outline scopes).1]) := by
  cases s with
  | plain form lines parts =>
    simp only [isGrammatical, Bool.and_eq_true] at grammatical
    rw [Syntax.outline, among_skip _ form_no_method]
    exact outlineAll_functions parts grammatical.2 scopes
  | name id context lines =>
    have inert : among declaresMethod [(nameNode id context lines scopes).1] = [] := by
      unfold nameNode
      split <;> cases context <;> rfl
    rw [Syntax.outline, inert]
    exact .nil
  | outer scope names lines => cases scope <;> exact .nil
  | function name lines parameters body around =>
    simp only [isGrammatical, Bool.and_eq_true] at grammatical
    obtain ⟨⟨⟨⟨named, filled⟩, bodied⟩, expressions⟩, surrounded⟩ := grammatical
    rw [Syntax.outline, among_take _ rfl, functionsIn,
      no_functions_among around surrounded expressions, List.append_nil]
    exact .cons ⟨named, by simpa using filled, scopes, rfl⟩ (outlineAll_functions body bodied _)
  | classDef lines parts =>
    rw [Syntax.outline, among_skip _ rfl]
    exact outlineAll_functions parts grammatical _
  | matching lines subject cases =>
    simp only [isGrammatical, Bool.and_eq_true] at grammatical
    rw [Syntax.outline, among_skip _ rfl,
      among_cons]
    exact List.rel_append (outline_functions subject grammatical.1.2 _)
      (outlineCases_functions cases grammatical.2 _)
  | comprehension sort lines elements generators =>
    simp only [isGrammatical, Bool.and_eq_true] at grammatical
    have produced (scopes : Scopes) : among declaresMethod (outlineAll elements scopes).1 = [] := by
      have pairs := outlineAll_functions elements grammatical.1.2 scopes
      rw [no_functions_among elements grammatical.1.2 grammatical.1.1] at pairs
      exact List.forall₂_nil_left_iff.mp pairs
    have sorted : sort.label ≠ Kind.methodDeclaration := by cases sort <;> decide
    rw [Syntax.outline, among_skip _ (decide_eq_false sorted), functionsIn,
      no_functions_among elements grammatical.1.2 grammatical.1.1,
      no_functions_among_generators generators grammatical.2,
      outlineGenerators_functions generators grammatical.2 _ produced]
    exact .nil

theorem outlineAll_functions (parts : List Syntax) (grammatical : areGrammatical parts = true)
    (scopes : Scopes) :
    List.Forall₂ IsOutlineOf (functionsAmong parts) (among declaresMethod (outlineAll parts scopes).1) := by
  cases parts with
  | nil => exact .nil
  | cons part rest =>
    simp only [areGrammatical, Bool.and_eq_true] at grammatical
    rw [outlineAll, among_cons]
    exact List.rel_append (outline_functions part grammatical.1 _)
      (outlineAll_functions rest grammatical.2 _)

theorem outlineCases_functions (cases : List Case) (grammatical : areGrammaticalCases cases = true)
    (scopes : Scopes) :
    List.Forall₂ IsOutlineOf (functionsAmongCases cases)
      (among declaresMethod (outlineCases cases scopes).1) := by
  match cases with
  | [] => exact .nil
  | .mk pattern guard first rest :: others =>
    simp only [areGrammaticalCases, Bool.and_eq_true] at grammatical
    obtain ⟨⟨⟨⟨⟨_, matched⟩, guarded⟩, opening⟩, body⟩, later⟩ := grammatical
    rw [outlineCases_cons, among_cons, among_cons (.mk (plainHeader "CaseBody" _) _),
      among_skip _ rfl,
      among_skip _ rfl,
      among_cons (pattern.outline _).1, among_cons (first.outline _).1, ← List.append_assoc]
    exact List.rel_append (List.rel_append
      (List.rel_append (outline_functions pattern matched _) (outlineGuard_functions guard guarded _))
      (List.rel_append (outline_functions first opening _) (outlineAll_functions rest body _)))
      (outlineCases_functions others later _)

theorem outlineGuard_functions (guard : Option Syntax) (grammatical : isGrammaticalGuard guard = true)
    (scopes : Scopes) :
    List.Forall₂ IsOutlineOf (functionsOfGuard guard)
      (among declaresMethod (outlineAll guard.toList scopes).1) := by
  cases guard with
  | none => exact .nil
  | some condition =>
    simp only [isGrammaticalGuard, Bool.and_eq_true] at grammatical
    exact outline_functions condition grammatical.2 scopes

theorem outlineGenerators_functions (generators : List Generator)
    (grammatical : areGrammaticalGenerators generators = true) (inside : Inside)
    (produced : ∀ scopes, among declaresMethod (inside scopes).1 = []) (scopes : Scopes) :
    among declaresMethod (outlineGenerators generators inside scopes).1 = [] := by
  match generators with
  | [] => exact produced scopes
  | .mk target iterable conditions :: rest =>
    simp only [areGrammaticalGenerators, Bool.and_eq_true, Bool.not_eq_true'] at grammatical
    obtain ⟨⟨⟨⟨⟨⟨goal, targeted⟩, source⟩, iterated⟩, tests⟩, conditioned⟩, others⟩ := grammatical
    have later := outlineGenerators_functions rest others inside produced
    rw [outlineGenerators, Generator.outline,
      among_skip _ rfl,
      among_cons, among_cons (iterable.outline _).1,
      expression_inert targeted goal (outline_functions target targeted _),
      expression_inert iterated source (outline_functions iterable iterated _),
      outlineConditions_functions conditions conditioned tests _ later]
    rfl

theorem outlineConditions_functions (conditions : List Syntax)
    (grammatical : areGrammatical conditions = true)
    (expressions : (conditions.all fun part => !isStatement part) = true) (inside : Inside)
    (produced : ∀ scopes, among declaresMethod (inside scopes).1 = []) (scopes : Scopes) :
    among declaresMethod (outlineConditions conditions inside scopes).1 = [] := by
  match conditions with
  | [] => exact produced scopes
  | condition :: rest =>
    simp only [areGrammatical, Bool.and_eq_true] at grammatical
    simp only [List.all_cons, Bool.and_eq_true, Bool.not_eq_true'] at expressions
    rw [outlineConditions, among_skip _ rfl,
      among_cons, expression_inert grammatical.1 expressions.1 (outline_functions condition grammatical.1 _),
      outlineConditions_functions rest grammatical.2 expressions.2 inside produced]
    rfl

end

end MethodLint.OutlineFunctions
