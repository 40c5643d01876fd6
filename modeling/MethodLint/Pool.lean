import MethodLint.Fault

/-!
A pool of workers. Tasks are handed in one after the other and wait in line; an idle worker takes the
first of them, whichever task is being worked on may be finished next, and what the tasks come to is
collected in their order. A fault that is collected is the end: tasks that still wait are given up,
and those that are being worked on are only waited for.
-/
namespace MethodLint

/-- The tasks of a pool by their places: those that wait, those that are being worked on, and what the
finished ones came to; then the answers that were collected, and the fault that was. -/
structure Pool (α : Type) where
  waiting : List Nat
  working : List Nat
  finished : List (Nat × Except Fault α)
  collected : List α
  fault : Option Fault

namespace Pool

variable {α : Type}

/-- A pool that was handed so many tasks. -/
def start (count : Nat) : Pool α := ⟨List.range count, [], [], [], none⟩

/-- What may happen next in a pool of so many workers, where `tasks` says what the tasks come to. -/
inductive Step (workers : Nat) (tasks : List (Except Fault α)) (p : Pool α) : Pool α → Prop
  | take (first : p.waiting = i :: rest) (idle : p.working.length < workers) :
    Step workers tasks p { p with waiting := rest, working := i :: p.working }
  | finish (busy : i ∈ p.working) (came : tasks[i]? = some outcome) :
    Step workers tasks p { p with working := p.working.erase i, finished := (i, outcome) :: p.finished }
  | collect (going : p.fault = none) (there : (p.collected.length, .ok answer) ∈ p.finished) :
    Step workers tasks p { p with collected := p.collected ++ [answer] }
  | stop (going : p.fault = none) (there : (p.collected.length, .error e) ∈ p.finished) :
    Step workers tasks p { p with waiting := [], fault := some e }

/-- Nothing more happens. -/
def Rests (workers : Nat) (tasks : List (Except Fault α)) (p : Pool α) : Prop :=
  ∀ q, ¬ Step workers tasks p q

/-- What a pool has come to: its fault, or else its answers. -/
def outcome (p : Pool α) : Except Fault (List α) :=
  match p.fault with
  | some e => .error e
  | none => .ok p.collected

end Pool

end MethodLint
