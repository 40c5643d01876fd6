import Mathlib.Logic.Relation
import MethodLint.Pool
import MethodLint.Proofs.Outcomes

/-! Runs of a pool. However many workers there are and whichever of them is done first,
a run ends, and it ends with what doing the tasks one after the other comes to: all
answers in the order of the tasks, or the fault of the first task that has one. -/
namespace MethodLint.PoolRuns
open Relation Outcomes Pool

variable {α : Type} {workers : Nat} {tasks : List (Except Fault α)} {p q : Pool α}

/-- A run leads from the pool that was just handed its tasks to here. -/
def Reached (workers : Nat) (tasks : List (Except Fault α)) (p : Pool α) : Prop :=
  ReflTransGen (Step workers tasks) (.start tasks.length) p

/-- What holds all the way. Answers were collected from the first tasks on, nothing is
lost while there is no fault, and a fault is that of the next task. -/
structure Orderly (tasks : List (Except Fault α)) (p : Pool α) : Prop where
  gathered : tasks.take p.collected.length = p.collected.map .ok
  finished : ∀ entry ∈ p.finished, tasks[entry.1]? = some entry.2
  waiting : ∀ i ∈ p.waiting, i < tasks.length
  working : ∀ i ∈ p.working, i < tasks.length
  placed : p.fault = none → ∀ i < tasks.length,
    i ∈ p.waiting ∨ i ∈ p.working ∨ ∃ outcome, (i, outcome) ∈ p.finished
  fault : ∀ e, p.fault = some e → tasks[p.collected.length]? = some (.error e)

/-! ## One step -/

theorem orderly_start (tasks : List (Except Fault α)) : Orderly tasks (.start tasks.length) where
  gathered := rfl
  finished := by simp [start]
  waiting i member := List.mem_range.mp member
  working := by simp [start]
  placed _ i inside := .inl (List.mem_range.mpr inside)
  fault e none := by cases none

theorem orderly_step (orderly : Orderly tasks p) (step : Step workers tasks p q) : Orderly tasks q := by
  cases step with
  | @take i rest first idle =>
    have here : i ∈ p.waiting := first ▸ List.mem_cons_self
    have others : ∀ j ∈ rest, j ∈ p.waiting := fun j member => first ▸ List.mem_cons_of_mem i member
    refine { orderly with waiting := ?_, working := ?_, placed := fun going j inside => ?_ }
    · intro j member
      exact orderly.waiting j (others j member)
    · exact List.forall_mem_cons.mpr ⟨orderly.waiting i here, orderly.working⟩
    · rcases orderly.placed going j inside with waits | works | done
      · rw [first] at waits
        rcases List.mem_cons.mp waits with rfl | later
        · exact .inr (.inl List.mem_cons_self)
        · exact .inl later
      · exact .inr (.inl (List.mem_cons_of_mem i works))
      · exact .inr (.inr done)
  | @finish i outcome busy came =>
    refine { orderly with finished := ?_, working := ?_, placed := fun going j inside => ?_ }
    · exact List.forall_mem_cons.mpr ⟨came, orderly.finished⟩
    · intro j member
      exact orderly.working j (List.mem_of_mem_erase member)
    · rcases orderly.placed going j inside with waits | works | ⟨other, done⟩
      · exact .inl waits
      · by_cases same : j = i
        · exact .inr (.inr ⟨outcome, same ▸ List.mem_cons_self⟩)
        · exact .inr (.inl ((List.mem_erase_of_ne same).mpr works))
      · exact .inr (.inr ⟨other, List.mem_cons_of_mem _ done⟩)
  | @collect answer going there =>
    have next : tasks[p.collected.length]? = some (.ok answer) := orderly.finished _ there
    refine { orderly with gathered := ?_, fault := fun e fault => ?_ }
    · rw [List.length_append, List.length_singleton, List.take_add_one, next, orderly.gathered]
      simp
    · rw [going] at fault
      cases fault
  | @stop e going there =>
    refine { orderly with waiting := ?_, placed := ?_, fault := fun other fault => ?_ }
    · simp
    · intro none
      cases none
    · cases fault
      exact orderly.finished _ there

theorem orderly_reached (reached : Reached workers tasks p) : Orderly tasks p := by
  induction reached with
  | refl => exact orderly_start tasks
  | tail _ step ih => exact orderly_step ih step

/-! ## Runs end -/

/-- How much there is left to happen. -/
def remaining (tasks : List (Except Fault α)) (p : Pool α) : Nat :=
  2 * p.waiting.length + p.working.length + (tasks.length - p.collected.length) +
    if p.fault.isNone then 1 else 0

/-- A task that is finished has not been collected beyond the end. -/
theorem finished_inside (orderly : Orderly tasks p) {i : Nat} {outcome : Except Fault α}
    (there : (i, outcome) ∈ p.finished) : i < tasks.length :=
  (List.getElem?_eq_some_iff.mp (orderly.finished _ there)).1

theorem remaining_step (orderly : Orderly tasks p) (step : Step workers tasks p q) :
    remaining tasks q < remaining tasks p := by
  cases step with
  | take first idle =>
    simp only [remaining, first, List.length_cons]
    omega
  | finish busy came =>
    have fewer := List.length_erase_of_mem busy
    have some := List.length_pos_of_mem busy
    simp only [remaining, fewer]
    omega
  | collect going there =>
    have more := finished_inside orderly there
    simp only [remaining, List.length_append, List.length_singleton]
    omega
  | stop going there =>
    simp only [remaining, going, List.length_nil, Option.isNone_none, Option.isNone_some, if_true,
      Bool.false_eq_true, if_false]
    omega

/-- From anywhere on a run, some way leads to its end. -/
theorem rests_eventually (orderly : Orderly tasks p) :
    ∃ q, ReflTransGen (Step workers tasks) p q ∧ Rests workers tasks q := by
  induction left : remaining tasks p using Nat.strongRecOn generalizing p with
  | ind n ih =>
    by_cases rests : Rests workers tasks p
    · exact ⟨p, .refl, rests⟩
    · obtain ⟨q, step⟩ : ∃ q, Step workers tasks p q := by
        simpa only [Rests, not_forall, not_not] using rests
      have fewer := remaining_step orderly step
      obtain ⟨r, later, end_⟩ := ih (remaining tasks q) (left ▸ fewer) (orderly_step orderly step) rfl
      exact ⟨r, .head step later, end_⟩

/-- A run of steps one after the other has no more of them than there are things to happen. -/
theorem run_bounded {run : Nat → Pool α} {n : Nat} (first : run 0 = .start tasks.length)
    (steps : ∀ i < n, Step workers tasks (run i) (run (i + 1))) : n ≤ 3 * tasks.length + 1 := by
  have falls : ∀ i ≤ n, Orderly tasks (run i) ∧ remaining tasks (run i) + i ≤ 3 * tasks.length + 1 := by
    intro i
    induction i with
    | zero =>
      intro _
      rw [first]
      refine ⟨orderly_start tasks, ?_⟩
      simp only [remaining, start, List.length_range, List.length_nil, Option.isNone_none, if_true]
      omega
    | succ i ih =>
      intro inside
      obtain ⟨orderly, less⟩ := ih (by omega)
      have step := steps i (by omega)
      have fewer := remaining_step orderly step
      exact ⟨orderly_step orderly step, by omega⟩
  have last := (falls n (Nat.le_refl n)).2
  omega

/-! ## What a run comes to -/

theorem mapM_answers (answers : List α) : (answers.map Except.ok).mapM id = (.ok answers : Except Fault _) := by
  rw [mapM_ok_iff, List.forall₂_map_left_iff]
  exact List.forall₂_same.mpr fun _ _ => rfl

/-- The first fault is that of the whole. -/
theorem mapM_fault (answers : List α) (e : Fault) (later : List (Except Fault α)) :
    (answers.map Except.ok ++ Except.error e :: later).mapM id = .error e := by
  rw [List.mapM_append, mapM_answers, List.mapM_cons]
  rfl

/-- Nobody works and nobody waits where nothing more happens. -/
theorem idle_at_rest (orderly : Orderly tasks p) (some : 0 < workers) (rests : Rests workers tasks p) :
    p.working = [] ∧ p.waiting = [] := by
  have idle : p.working = [] := by
    refine List.eq_nil_iff_forall_not_mem.mpr fun i busy => ?_
    have inside := orderly.working i busy
    exact rests _ (.finish busy (List.getElem?_eq_getElem inside))
  refine ⟨idle, ?_⟩
  cases first : p.waiting with
  | nil => rfl
  | cons i rest =>
    have free : p.working.length < workers := by simpa [idle] using some
    exact absurd (.take first free) (rests _)

theorem outcome_at_rest (orderly : Orderly tasks p) (some : 0 < workers) (rests : Rests workers tasks p) :
    p.outcome = tasks.mapM id := by
  obtain ⟨idle, empty⟩ := idle_at_rest orderly some rests
  unfold outcome
  cases fault : p.fault with
  | some e =>
    obtain ⟨inside, next⟩ := List.getElem?_eq_some_iff.mp (orderly.fault e fault)
    have parts := List.take_append_drop p.collected.length tasks
    rw [orderly.gathered, List.drop_eq_getElem_cons inside, next] at parts
    rw [← parts, mapM_fault]
  | none =>
    -- A task that is not collected would be finished, so it could be collected.
    have whole : tasks.length ≤ p.collected.length := by
      by_contra short
      rcases orderly.placed fault _ (Nat.lt_of_not_le short) with waits | works | ⟨outcome, done⟩
      · simp [empty] at waits
      · simp [idle] at works
      · cases outcome with
        | ok answer => exact rests _ (.collect fault done)
        | error e => exact rests _ (.stop fault done)
    have gathered := orderly.gathered
    rw [List.take_of_length_le whole] at gathered
    rw [gathered, mapM_answers]

end MethodLint.PoolRuns
