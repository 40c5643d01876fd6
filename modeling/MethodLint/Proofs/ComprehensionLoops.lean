import Mathlib.Logic.Relation
import MethodLint.Proofs.AlikeOutlines

/-! A comprehension is measured exactly like its loops. Written as a statement it is laid
out like the statements that do the same: a loop for each generator inside the one before,
a branch for each condition, and innermost a statement for each element. So one can stand
for the other anywhere in a source, and no metric of a method changes, line spans apart. -/
namespace MethodLint.ComprehensionLoops
open Node Source Walks Findings OutlineFunctions OutlineMetrics OutlineVariables AlikeOutlines
open DecisionPoints (Counts)

/-! ## The loops of a comprehension -/

/-- A statement consists of an expression. -/
def StatedBy (e s : Syntax) : Prop := ∃ lines, s = .plain .expressionStatement lines [e]

/-- Some statements under some conditions, one branch inside the other. -/
inductive Tested (body : List Syntax) : (conditions branches : List Syntax) → Prop
  | all : Tested body [] body
  | branch (lines : Lines) (inner : Tested body rest branches) :
      Tested body (condition :: rest) [.plain .conditional lines (condition :: branches)]

/-- The statements that do what a comprehension with these elements and generators does. -/
inductive Unrolled (elements : List Syntax) : (generators : List Generator) → (loops : List Syntax) → Prop
  | produced (each : List.Forall₂ StatedBy elements loops) : Unrolled elements [] loops
  | loop (form : Form) (lines : Lines) (kind : form = .forLoop ∨ form = .asyncForLoop)
      (inner : Unrolled elements rest body) (tested : Tested body conditions branches) :
      Unrolled elements (.mk target iterable conditions :: rest)
        [.plain form lines (target :: iterable :: branches)]

/-- In some statements, or anywhere inside them, a comprehension that is a statement is
replaced by its loops. -/
inductive Replaced : (before after : List Syntax) → Prop
  | here (sort : Comprehension) (lines lines' : Lines) (unrolled : Unrolled elements generators loops)
      (produces : elements ≠ []) :
      Replaced (.plain .expressionStatement lines [.comprehension sort lines' elements generators] :: rest)
        (loops ++ rest)
  | later (inner : Replaced rest rest') : Replaced (s :: rest) (s :: rest')
  | plain (inner : Replaced parts parts') :
      Replaced (.plain form lines parts :: rest) (.plain form lines parts' :: rest)
  | function (inner : Replaced body body') :
      Replaced (.function name lines parameters body around :: rest)
        (.function name lines parameters body' around :: rest)
  | classDef (inner : Replaced parts parts') :
      Replaced (.classDef lines parts :: rest) (.classDef lines parts' :: rest)
  | case (guard : Option Syntax) (inner : Replaced (opening :: more) (opening' :: more')) :
      Replaced (.matching lines subject (front ++ .mk pattern guard opening more :: back) :: rest)
        (.matching lines subject (front ++ .mk pattern guard opening' more' :: back) :: rest)

variable {elements conditions body branches loops before after : List Syntax} {generators : List Generator}
  {f : Inside}

theorem inert_statement (lines : Lines) : Inert (Form.expressionStatement.header lines) :=
  ⟨show "Expr" ≠ Kind.variableDeclarator by decide, rfl, rfl, fun _ => rfl⟩

theorem inert_comprehension (sort : Comprehension) (lines : Lines) : Inert (plainHeader sort.label lines) := by
  constructor
  · exact show sort.label ≠ Kind.variableDeclarator by cases sort <;> decide
  · cases sort <;> rfl
  · cases sort <;> rfl
  · intro below
    cases sort <;> rfl

/-- What is laid out in an inert node may as well stand there by itself. -/
theorem interchangeable_inert {h : Header} (inert : Inert h) (filled : ∀ scopes, (f scopes).1 ≠ []) :
    Interchangeable (inNode h f) f := fun scopes => ⟨rfl, alike_inert inert (filled scopes)⟩

/-- Elements are laid out like the statements that consist of them. -/
theorem produced_interchangeable (each : List.Forall₂ StatedBy elements loops) :
    Interchangeable (outlineAll elements) (outlineAll loops) := by
  induction each with
  | nil => exact interchangeable_refl _
  | cons here _ ih =>
    obtain ⟨lines, rfl⟩ := here
    refine interchangeable_cons (interchangeable_symm ?_) ih
    apply interchangeable_inert (inert_statement lines)
    intro scopes
    exact List.cons_ne_nil _ _

theorem tested_interchangeable (tested : Tested body conditions branches)
    (inner : Interchangeable f (outlineAll body)) :
    Interchangeable (outlineConditions conditions f) (outlineAll branches) := by
  induction tested with
  | all => exact inner
  | branch lines _ ih =>
    rw [layout_condition, layout_form]
    refine interchangeable_deciding rfl rfl ?_
    exact interchangeable_andThen (interchangeable_refl _) ih

/-- The loops of generators around the elements are laid out like the loops that are
statements. -/
theorem unrolled_interchangeable (unrolled : Unrolled elements generators loops) :
    Interchangeable (outlineGenerators generators (outlineAll elements)) (outlineAll loops) := by
  induction unrolled with
  | produced each => exact produced_interchangeable each
  | loop form lines kind _ tested ih =>
    rw [layout_generator, layout_form]
    refine interchangeable_deciding rfl ?_ ?_
    · rcases kind with rfl | rfl <;> rfl
    · apply interchangeable_andThen (interchangeable_refl _)
      exact interchangeable_andThen (interchangeable_refl _) (tested_interchangeable tested ih)

theorem generators_filled (produces : elements ≠ []) (generators : List Generator) (scopes : Scopes) :
    (outlineGenerators generators (outlineAll elements) scopes).1 ≠ [] := by
  cases generators with
  | nil => exact outlineAll_ne_nil produces scopes
  | cons g rest =>
    obtain ⟨target, iterable, conditions⟩ := g
    exact List.cons_ne_nil _ _

/-- A statement that is a comprehension is laid out like its loops. -/
theorem comprehension_interchangeable (sort : Comprehension) (lines lines' : Lines) (produces : elements ≠ [])
    (unrolled : Unrolled elements generators loops) :
    Interchangeable (outlineAll [.plain .expressionStatement lines [.comprehension sort lines' elements generators]])
      (outlineAll loops) := by
  rw [layout_form, layout_comprehension]
  apply interchangeable_trans (interchangeable_inert (inert_statement lines) fun scopes => List.cons_ne_nil _ _)
  apply interchangeable_trans
    (interchangeable_inert (inert_comprehension sort lines') (generators_filled produces generators))
  exact unrolled_interchangeable unrolled

/-! ## Replacements -/

theorem outlineAll_append (first second : List Syntax) :
    outlineAll (first ++ second) = andThen (outlineAll first) (outlineAll second) := by
  induction first with
  | nil => rfl
  | cons s rest ih =>
    funext scopes
    rw [List.cons_append, outlineAll, ih]
    rfl

theorem outlineCases_append (first second : List Case) :
    outlineCases (first ++ second) = andThen (outlineCases first) (outlineCases second) := by
  induction first with
  | nil => rfl
  | cons c rest ih =>
    funext scopes
    rw [List.cons_append, outlineCases, ih]
    simp only [andThen, outlineCases, List.append_assoc]

/-- After a replacement everything is laid out as before it. -/
theorem replaced_interchangeable (replaced : Replaced before after) :
    Interchangeable (outlineAll before) (outlineAll after) := by
  induction replaced with
  | here sort lines lines' unrolled produces =>
    rw [outlineAll_append]
    exact interchangeable_andThen (comprehension_interchangeable sort lines lines' produces unrolled)
      (interchangeable_refl _)
  | later _ ih => exact interchangeable_cons (interchangeable_refl _) ih
  | plain _ ih => exact interchangeable_cons (interchangeable_form _ _ _ ih) (interchangeable_refl _)
  | function _ ih => exact interchangeable_cons (interchangeable_function _ _ _ _ _ _ ih) (interchangeable_refl _)
  | classDef _ ih => exact interchangeable_cons (interchangeable_class _ _ ih) (interchangeable_refl _)
  | @case _ _ _ _ lines subject front pattern back rest guard _ ih =>
    refine interchangeable_cons (interchangeable_matching lines lines ?_ (interchangeable_refl _) ?_)
      (interchangeable_refl _)
    · rw [List.map_append, List.map_append, List.map_cons, List.map_cons]
      rfl
    · rw [outlineCases_append, outlineCases_append]
      exact interchangeable_andThen (interchangeable_refl _)
        (interchangeable_case rfl (interchangeable_refl _) (interchangeable_refl _) ih (interchangeable_refl _))

/-- What is laid out leaves the same names bound, and it has the same declarators and
decision points and constructs at the same levels, however many enclose it. -/
structure LaidLike (one many : List Node × Scopes) : Prop where
  bound : one.2 = many.2
  declarators : (preorderAll one.1).countP isDeclarator = (preorderAll many.1).countP isDeclarator
  decisions : ∃ k, Counts one.1 k ∧ Counts many.1 k
  levels : ∀ outer, levelsAll one.1 outer = levelsAll many.1 outer

theorem laidLike_parts (same : Interchangeable (outlineAll before) (outlineAll after)) (scopes : Scopes) :
    LaidLike (outlineAll before scopes) (outlineAll after scopes) := by
  obtain ⟨bound, alike⟩ := same scopes
  have counts := outlineAll_counts before scopes 0
  refine ⟨bound, alike.declarators, ⟨_, counts, ?_⟩, alike.levels⟩
  intro total
  exact (alike.decisions total).symm.trans (counts total)

/-- Sources that go over into one another by replacements are laid out alike. -/
theorem restated_interchangeable (restated : Relation.EqvGen Replaced before after) :
    Interchangeable (outlineAll before) (outlineAll after) := by
  induction restated with
  | rel before after replaced => exact replaced_interchangeable replaced
  | refl parts => exact interchangeable_refl _
  | symm _ _ _ ih => exact interchangeable_symm ih
  | trans _ _ _ _ _ left right => exact interchangeable_trans left right

theorem unlined_interchangeable
    (same : Interchangeable (outlineAll (unlinedAll before)) (outlineAll (unlinedAll after))) :
    Interchangeable (outlineAll before) (outlineAll after) :=
  interchangeable_trans (outlineAll_unlined before)
    (interchangeable_trans same (interchangeable_symm (outlineAll_unlined after)))

/-- A comprehension that is a statement binds the same names as its loops, whichever are
bound before, and it has as many declarators and decision points and the same levels of
nesting. So wherever in two sources the one stands for the other, on whichever lines, the
methods of both have the same metrics one by one. -/
theorem comprehensions_measured_as_loops :
    (∀ sort lines lines' elements generators loops, elements ≠ [] →
      Unrolled (unlinedAll elements) (unlinedGenerators generators) (unlinedAll loops) → ∀ scopes,
      LaidLike
        (outlineAll [.plain .expressionStatement lines [.comprehension sort lines' elements generators]] scopes)
        (outlineAll loops scopes)) ∧
    ∀ m m' : Module, Relation.EqvGen Replaced (unlinedAll m.body) (unlinedAll m'.body) →
      ∀ path path' lineCount lineCount',
        List.Forall₂ DeclaredAlike (methods (m.outline path lineCount))
          (methods (m'.outline path' lineCount')) := by
  constructor
  · intro sort lines lines' elements generators loops produces unrolled
    apply laidLike_parts
    apply unlined_interchangeable
    apply comprehension_interchangeable sort .none .none _ unrolled
    intro empty
    cases elements with
    | nil => exact produces rfl
    | cons e rest => cases empty
  · intro m m' restated path path' lineCount lineCount'
    have other : Kind.compilationUnit ≠ Kind.methodDeclaration := by decide
    have same := unlined_interchangeable (restated_interchangeable restated)
    rw [Module.outline, Module.outline, methods_unit _ other, methods_unit _ other]
    exact (same ⟨[], []⟩).2.methods

/-- A function that goes through its rows for as long as there are any, and a class with
it as its only member; the statements of the loop are given. -/
def rowLoop (statements : List Syntax) (lines : Lines) : Module where
  body := [.classDef lines [.function (some "cells") lines ["rows"]
    [.plain .whileLoop lines (.name "rows" .load lines :: statements)] []]]

/-- The cells of the rows, by a comprehension with two generators and two conditions. The
last condition binds a name. -/
def cellsAtOnce : Module :=
  let lines : Lines := ⟨some 1, some 3⟩
  let name (id : String) (context : Context) : Syntax := .name id context lines
  rowLoop [.plain .expressionStatement lines [.comprehension .list lines [name "cell" .load]
    [.mk (name "row" .store) (name "rows" .load) [name "row" .load],
      .mk (name "cell" .store) (name "row" .load)
        [.plain .namedExpression lines [name "kept" .store, name "cell" .load]]]]] lines

/-- The same cells by loops, on more lines. -/
def cellsByLoops : Module :=
  let lines : Lines := ⟨some 1, some 7⟩
  let name (id : String) (context : Context) : Syntax := .name id context lines
  rowLoop [.plain .forLoop lines [name "row" .store, name "rows" .load,
    .plain .conditional lines [name "row" .load,
      .plain .forLoop lines [name "cell" .store, name "row" .load,
        .plain .conditional lines [.plain .namedExpression lines [name "kept" .store, name "cell" .load],
          .plain .expressionStatement lines [name "cell" .load]]]]]] lines

/-- Either way three names are declared in the function, and the innermost branch stands
inside four other constructs. -/
theorem cells_measured_alike :
    Relation.EqvGen Replaced (unlinedAll cellsAtOnce.body) (unlinedAll cellsByLoops.body) ∧
      List.Forall₂ DeclaredAlike (methods (cellsAtOnce.outline "a.py" 3))
        (methods (cellsByLoops.outline "a.py" 7)) ∧
      (preorderAll (outlineAll cellsByLoops.body ⟨[], []⟩).1).countP isDeclarator = 3 ∧
      levelsAll (outlineAll cellsAtOnce.body ⟨[], []⟩).1 0 = [0, 1, 2, 3, 4] := by
  have restated : Relation.EqvGen Replaced (unlinedAll cellsAtOnce.body) (unlinedAll cellsByLoops.body) := by
    apply Relation.EqvGen.rel
    apply Replaced.classDef
    apply Replaced.function
    apply Replaced.plain
    apply Replaced.later
    change Replaced _ ([_] ++ [])
    apply Replaced.here
    · apply Unrolled.loop .forLoop .none (.inl rfl)
      · apply Unrolled.loop .forLoop .none (.inl rfl)
        · exact .produced (.cons ⟨.none, rfl⟩ .nil)
        · exact .branch .none .all
      · exact .branch .none .all
    · exact List.cons_ne_nil _ _
  exact ⟨restated, comprehensions_measured_as_loops.2 _ _ restated "a.py" "a.py" 3 7, by decide, by decide⟩

end MethodLint.ComprehensionLoops
