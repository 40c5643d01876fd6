import MethodLint.Proofs.NestingDepth

/-! Higher thresholds. One of the four thresholds is looked at while a method is measured and
three when it is judged, and each comparison may be the one that decides. Still, with
thresholds that are no lower than others a pass stops for the same faults, takes the same
metrics, and has no finding that it did not have before. -/
namespace MethodLint.RaisedThresholds
open Outcomes Flags Findings NestingDepth

/-! ## Two runs -/

/-- Two computations stop for the same fault, or their answers are related. -/
inductive Both {α β : Type} (R : α → β → Prop) : Except Fault α → Except Fault β → Prop where
  | ok (related : R a b) : Both R (.ok a) (.ok b)
  | error (e : Fault) : Both R (.error e) (.error e)

/-- Whole-number thresholds, and others of which none is lower. -/
inductive Raised : Thresholds → Thresholds → Prop where
  | ints {cyclo maxnesting noav loc cyclo' maxnesting' noav' loc' : Int} (complexity : cyclo ≤ cyclo')
      (nesting : maxnesting ≤ maxnesting') (many : noav ≤ noav') (span : loc ≤ loc') :
      Raised (.ofInts cyclo maxnesting noav loc) (.ofInts cyclo' maxnesting' noav' loc')

/-- A method was measured with other thresholds the second time: its metrics are the same,
and its nesting is beyond the threshold only if it was before. -/
structure Remeasured (m m' : Measured) : Prop where
  method : m'.method = m.method
  loc : m'.metrics.loc = m.metrics.loc
  cyclo : m'.metrics.cyclo = m.metrics.cyclo
  noav : m'.metrics.noav = m.metrics.noav
  depth : m'.depth = m.depth
  nesting : m'.metrics.nestingExceeds = true → m.metrics.nestingExceeds = true

/-- The name and the lines of the method that a violation is about. -/
def place (v : Violation) : Value × Value × Value := (v.method, v.beginLine, v.endLine)

/-- There is no finding the second time, or one for the same method as before. -/
def Kept (found found' : Option Violation) : Prop :=
  ∀ v', found' = some v' → ∃ v, found = some v ∧ place v = place v'

variable {α β γ δ : Type} {R : α → β → Prop} {Q : γ → δ → Prop} {t t' : Thresholds} {path : Option String}

theorem both_self (x : Except Fault α) : Both (fun a b => a = b ∧ x = .ok a) x x := by
  cases x with
  | ok a => exact .ok ⟨rfl, rfl⟩
  | error e => exact .error e

theorem both_imp {R' : α → β → Prop} {x : Except Fault α} {y : Except Fault β} (both : Both R x y)
    (weaker : ∀ a b, R a b → R' a b) : Both R' x y := by
  cases both with
  | ok related => exact .ok (weaker _ _ related)
  | error e => exact .error e

theorem both_bind {x : Except Fault α} {y : Except Fault β} {f : α → Except Fault γ} {g : β → Except Fault δ}
    (first : Both R x y) (later : ∀ a b, R a b → Both Q (f a) (g b)) : Both Q (x >>= f) (y >>= g) := by
  cases first with
  | ok related => exact later _ _ related
  | error e => exact .error e

theorem both_mapM {f : α → Except Fault γ} {g : α → Except Fault δ} (items : List α)
    (each : ∀ item, Both Q (f item) (g item)) : Both (List.Forall₂ Q) (items.mapM f) (items.mapM g) := by
  induction items with
  | nil => exact .ok .nil
  | cons item rest ih =>
    rw [List.mapM_cons, List.mapM_cons]
    refine both_bind (each item) fun a b here => ?_
    refine both_bind ih fun as bs later => ?_
    exact .ok (.cons here later)

/-! ## Lower bounds are exceeded as well -/

theorem exceedsInt_lower {a b : Int} (less : a ≤ b) {x : Decimal.Parts} (beyond : Number.exceedsInt b x = true) :
    Number.exceedsInt a x = true := by
  cases x with
  | nan => cases beyond
  | infinity negative => exact beyond
  | zero negative =>
    simp only [Number.exceedsInt, decide_eq_true_iff] at beyond ⊢
    omega
  | finite negative m q powerOfTwo =>
    simp only [Number.exceedsInt, decide_eq_true_iff] at beyond ⊢
    exact Int.lt_of_le_of_lt (Int.mul_le_mul_of_nonneg_right less (Int.natCast_nonneg _)) beyond

theorem exceeds_lower {a b : Int} (less : a ≤ b) {v : Value} (beyond : v.exceeds (.int b) = .ok true) :
    v.exceeds (.int a) = .ok true := by
  have compared (bound : Int) (n : Number) (counts : v.number? = some n) :
      v.exceeds (.int bound) = .ok (n.exceeds (.int bound)) := by
    rw [Value.exceeds, counts]
    rfl
  cases counts : v.number? with
  | none =>
    rw [Value.exceeds, counts] at beyond
    cases beyond
  | some n =>
    rw [compared b n counts, Except.ok.injEq] at beyond
    rw [compared a n counts, Except.ok.injEq]
    cases n with
    | int n =>
      simp only [Number.exceeds, decide_eq_true_iff] at beyond ⊢
      omega
    | float x => exact exceedsInt_lower less beyond

/-- A line span that was taken is a number, so it can always be compared. -/
theorem loc_counts {m : Method} {span : Value} (taken : m.loc = .ok span) : span.number?.isSome = true := by
  unfold Method.loc at taken
  split at taken
  · cases taken
    rfl
  · unfold Value.sub at taken
    split at taken
    · rename_i a b _ _
      cases taken
      cases a.sub b <;> rfl
    · cases taken

/-! ## One declaration -/

/-- A declaration is measured twice or not at all, and its line span is a number. -/
theorem measure_raised (raised : Raised t t') (d : Declaration) :
    Both (fun m m' => Remeasured m m' ∧ m.metrics.loc.number?.isSome = true) (d.measure t).outcome
      (d.measure t').outcome := by
  obtain ⟨complexity, nesting, many, span⟩ := raised
  unfold Declaration.measure
  simp only [Traced.outcome_bind, Traced.outcome_of, Traced.outcome_pure]
  refine both_bind (both_self (Method.ofNode d.node)) ?_
  rintro method _ ⟨rfl, _⟩
  unfold Method.measureAt
  simp only [Thresholds.ofInts, anyExceeds_int, bind_assoc]
  refine both_bind (both_self method.loc) ?_
  rintro loc _ ⟨rfl, taken⟩
  refine both_bind (both_self method.cyclo) ?_
  rintro cyclo _ ⟨rfl, _⟩
  refine .ok ⟨⟨rfl, rfl, rfl, rfl, rfl, ?_⟩, loc_counts taken⟩
  intro beyond
  obtain ⟨level, member, deeper⟩ := List.any_eq_true.mp beyond
  refine List.any_eq_true.mpr ⟨level, member, ?_⟩
  simp only [decide_eq_true_iff] at deeper ⊢
  omega

/-- A method that was measured twice is judged both times, and reported the second time only
if it was reported the first time. -/
theorem judge_raised (raised : Raised t t') {m m' : Measured} (again : Remeasured m m')
    (counts : m.metrics.loc.number?.isSome = true) :
    Both Kept (m.judge t path).outcome (m'.judge t' path).outcome := by
  obtain @⟨cyclo, maxnesting, noav, loc, cyclo', maxnesting', noav', loc', complexity, nesting, many, span⟩ :=
    raised
  obtain ⟨answer, judged, meaning⟩ := policy_answers cyclo maxnesting noav loc m.metrics counts
  obtain ⟨answer', judged', meaning'⟩ := policy_answers cyclo' maxnesting' noav' loc' m'.metrics (again.loc ▸ counts)
  rw [judge_outcome, judge_outcome, judged, judged']
  -- A violation the second time means that all four metrics were beyond the higher thresholds.
  refine .ok fun v' reported => ?_
  have beyond : answer' = true := by
    by_contra within
    rw [if_neg within] at reported
    cases reported
  rw [if_pos beyond] at reported
  cases reported
  obtain ⟨long, complex, nested, declared⟩ := meaning'.mp beyond
  rw [again.loc] at long
  rw [again.cyclo] at complex
  rw [again.noav] at declared
  have sooner : Exceeds cyclo noav loc m.metrics :=
    ⟨exceeds_lower span long, by omega, again.nesting nested, by omega⟩
  refine ⟨_, if_pos (meaning.mpr sooner), ?_⟩
  simp only [place, Violation.of, again.method]

/-! ## Passes -/

/-- The findings that are kept stand in the order that they had. -/
theorem kept_sublist {found found' : List (Option Violation)} (kept : List.Forall₂ Kept found found') :
    ((found'.filterMap id).map place).Sublist ((found.filterMap id).map place) := by
  induction kept with
  | nil => exact .slnil
  | @cons f f' found found' here _ ih =>
    cases f' with
    | none =>
      cases f with
      | none => exact ih
      | some v => exact ih.cons _
    | some v' =>
      obtain ⟨v, rfl, same⟩ := here v' rfl
      simp only [List.filterMap_cons, id, List.map_cons, same]
      exact ih.cons_cons _

end MethodLint.RaisedThresholds
