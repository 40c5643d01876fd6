import MethodLint.Analysis
import MethodLint.Proofs.Outcomes
import MethodLint.Proofs.Walks

/-! When a metric cannot be taken. Names and flags are looked at only where a
metric needs them: the name of a method declaration, the flag of a conditional
expression below a method, and the flags of the labels of a switch below a
method, its last child left out. Nothing else can stop a measurement of a method
whose lines are known. -/
namespace MethodLint.Flags
open Outcomes Walks

theorem isNull_iff {v : Value} : v.isNull = true ↔ v = .null := by
  cases v <;> simp [Value.isNull]

/-! ## What is malformed -/

/-- The node is a method declaration by its shape, and it has a name. -/
def HasName (h : Header) : Prop := ∃ name, h.variant = .methodDeclaration name ∧ name ≠ .null

/-- The node is a conditional expression by its shape, and it says whether it is
a ternary one. -/
def HasTernaryFlag (h : Header) : Prop := ∃ flag, h.variant = .conditionalExpr flag ∧ flag ≠ .null

/-- The node is a switch label by its shape, and it says whether it is the
default. -/
def HasDefaultFlag (h : Header) : Prop := ∃ flag, h.variant = .switchLabel flag ∧ flag ≠ .null

/-- A flag that the node's decision points depend on is not there. -/
def Unflagged (n : Node) : Prop :=
  (n.kind = Kind.conditionalExpr ∧ ¬ HasTernaryFlag n.header) ∨
  (n.kind = Kind.switch ∧
    ∃ c ∈ n.children.dropLast, c.kind = Kind.switchLabel ∧ ¬ HasDefaultFlag c.header)

/-- A declaration that cannot be measured. -/
def Malformed (n : Node) : Prop := ¬ HasName n.header ∨ ∃ d ∈ n.descendants, Unflagged d

/-! ## Each look at a flag -/

/-- A field that must not be null stops whoever looks at it exactly if it is. -/
theorem guarded_field {α : Type} (field : Value) (defect : TreeDefect) (answer : α) :
    Guarded (field = .null) (if field.isNull then .error (.tree defect) else .ok answer) := by
  by_cases null : field = .null
  · rw [if_pos (isNull_iff.mpr null)]
    exact guarded_error null defect
  · rw [if_neg fun isNull => null (isNull_iff.mp isNull)]
    exact guarded_of_ok null answer

theorem guarded_ternary (h : Header) : Guarded (¬ HasTernaryFlag h) h.ternary? := by
  unfold Header.ternary?
  cases variant : h.variant with
  | conditionalExpr flag =>
    exact (guarded_congr (by simp [HasTernaryFlag, variant])).mp (guarded_field flag _ _)
  | _ => exact guarded_error (by simp [HasTernaryFlag, variant]) _

theorem guarded_default (h : Header) : Guarded (¬ HasDefaultFlag h) h.default? := by
  unfold Header.default?
  cases variant : h.variant with
  | switchLabel flag =>
    exact (guarded_congr (by simp [HasDefaultFlag, variant])).mp (guarded_field flag _ _)
  | _ => exact guarded_error (by simp [HasDefaultFlag, variant]) _

theorem guarded_name (h : Header) : Guarded (¬ HasName h) h.methodName? := by
  unfold Header.methodName?
  cases variant : h.variant with
  | methodDeclaration name =>
    exact (guarded_congr (by simp [HasName, variant])).mp (guarded_field name _ _)
  | _ => exact guarded_error (by simp [HasName, variant]) _

/-! ## From the flags to the metrics -/

theorem guarded_caseLabels (n : Node) :
    Guarded (∃ c ∈ n.children.dropLast, c.kind = Kind.switchLabel ∧ ¬ HasDefaultFlag c.header)
      (Method.caseLabels n) := by
  refine guarded_foldlM _ (fun total c _ => ?_) 0
  by_cases label : c.kind = Kind.switchLabel
  · simp only [label, ↓reduceIte, true_and]
    exact guarded_map _ (guarded_default c.header)
  · simp only [label, ↓reduceIte]
    exact guarded_of_ok (by simp) total

theorem guarded_decisions (n : Node) : Guarded (Unflagged n) (Method.decisions n) := by
  unfold Method.decisions
  by_cases decision : Kind.isDecision n.kind = true
  · simp only [decision, ↓reduceIte]
    refine guarded_of_ok (fun unflagged => ?_) 1
    rcases unflagged with ⟨kind, _⟩ | ⟨kind, _⟩ <;> rw [kind] at decision <;> revert decision <;> decide
  · simp only [decision]
    by_cases conditional : n.kind = Kind.conditionalExpr
    · simp only [conditional, ↓reduceIte]
      refine (guarded_congr ?_).mp (guarded_map _ (guarded_ternary n.header))
      simp [Unflagged, conditional, Kind.conditionalExpr, Kind.switch]
    · by_cases switch : n.kind = Kind.switch
      · rw [if_neg conditional, if_pos switch]
        refine (guarded_congr ?_).mp (guarded_map _ (guarded_caseLabels n))
        simp [Unflagged, switch, Kind.conditionalExpr, Kind.switch]
      · simp only [conditional, switch]
        exact guarded_of_ok (by simp [Unflagged, conditional, switch]) 0

theorem guarded_cyclo (m : Method) : Guarded (∃ d ∈ m.descendants, Unflagged d) m.cyclo :=
  guarded_foldlM _ (fun _ d _ => guarded_map _ (guarded_decisions d)) _

/-- A line that is null or counts as a number, as every tree has them that a
front end made. -/
def IsLine (v : Value) : Prop := v = .null ∨ v.number?.isSome = true

theorem exceeds_number {a b : Value} (left : a.number?.isSome = true) (right : b.number?.isSome = true) :
    ∃ answer, a.exceeds b = .ok answer := by
  obtain ⟨m, left⟩ := Option.isSome_iff_exists.mp left
  obtain ⟨n, right⟩ := Option.isSome_iff_exists.mp right
  exact ⟨m.exceeds n, by simp [Value.exceeds, left, right]⟩

/-- The line span of a method with known lines is a number. -/
theorem loc_number (m : Method) (first : IsLine m.beginLine) (last : IsLine m.endLine) :
    ∃ loc, m.loc = .ok loc ∧ loc.number?.isSome = true := by
  unfold Method.loc
  by_cases missing : (m.beginLine.isNull || m.endLine.isNull) = true
  · exact ⟨.int 0, by simp [missing], rfl⟩
  · simp only [Bool.or_eq_true, isNull_iff, not_or] at missing
    obtain ⟨a, number⟩ := Option.isSome_iff_exists.mp (last.resolve_left missing.2)
    obtain ⟨b, other⟩ := Option.isSome_iff_exists.mp (first.resolve_left missing.1)
    refine ⟨.ofNumber (a.sub b), ?_, ?_⟩
    · have known : (m.beginLine.isNull || m.endLine.isNull) = false := by
        simp [← Bool.not_eq_true, isNull_iff, missing]
      simp [known, Value.sub, number, other]
    · cases a.sub b <;> rfl

/-- Against a whole number the scan of the levels is the plain question whether
one of them is greater. -/
theorem anyExceeds_int (threshold : Int) (levels : List Nat) :
    Method.anyExceeds (.int threshold) levels = .ok (levels.any fun level => decide (threshold < level)) := by
  induction levels with
  | nil => rfl
  | cons level rest ih =>
    by_cases beyond : threshold < level
    · simp [Method.anyExceeds, beyond, bind, Except.bind, pure, Except.pure]
    · simp [Method.anyExceeds, beyond, ih, bind, Except.bind]

end MethodLint.Flags
