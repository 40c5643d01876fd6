import MethodLint.Fault

/-!
Computations that may fail and leave a log. The log of a computation that fails is what it had
written up to there. What a computation answers does not depend on what was written before it, so
the log can be forgotten: `outcome` turns every combination into the same one of plain results.
-/
namespace MethodLint

/-- How much a record of the log matters. -/
inductive Level
  | debug
  | warning
  deriving DecidableEq, Repr

/-- The name of a level. -/
def Level.label : Level → String
  | .debug => "DEBUG"
  | .warning => "WARNING"

/-- A record of the log. -/
structure Record where
  level : Level
  text : String
  deriving DecidableEq, Repr

/-- A record as one line. -/
def Record.line (r : Record) : String := r.level.label ++ ": " ++ r.text

/-- An answer or a fault, and the records on the way to it. -/
structure Traced (α : Type) where
  log : List Record
  outcome : Except Fault α

namespace Traced

instance : Monad Traced where
  pure a := ⟨[], .ok a⟩
  bind x f := match x.outcome with
    | .error e => ⟨x.log, .error e⟩
    | .ok a => ⟨x.log ++ (f a).log, (f a).outcome⟩

instance : MonadExceptOf Fault Traced where
  throw e := ⟨[], .error e⟩
  tryCatch x handle := match x.outcome with
    | .error e => ⟨x.log ++ (handle e).log, (handle e).outcome⟩
    | .ok a => ⟨x.log, .ok a⟩

instance : MonadLift (Except Fault) Traced where
  monadLift x := ⟨[], x⟩

/-- A plain result, with nothing to record. -/
def of {α : Type} (x : Except Fault α) : Traced α := ⟨[], x⟩

/-- Writes a record. -/
def record (level : Level) (text : String) : Traced Unit := ⟨[⟨level, text⟩], .ok ()⟩

/-- Writes a record that matters only to whoever looks for the course of a computation. -/
def debug (text : String) : Traced Unit := record .debug text

/-- Writes a record that should be seen. -/
def warn (text : String) : Traced Unit := record .warning text

/-- The outcome as an answer, with the same log. -/
def attempt {α : Type} (x : Traced α) : Traced (Except Fault α) := ⟨x.log, .ok x.outcome⟩

@[simp] theorem outcome_pure {α : Type} (a : α) : (pure a : Traced α).outcome = .ok a := rfl

@[simp] theorem outcome_bind {α β : Type} (x : Traced α) (f : α → Traced β) :
    (x >>= f).outcome = x.outcome >>= fun a => (f a).outcome := by
  obtain ⟨log, outcome⟩ := x
  cases outcome <;> rfl

@[simp] theorem outcome_throw {α : Type} (e : Fault) :
    (throw e : Traced α).outcome = .error e := rfl

@[simp] theorem outcome_of {α : Type} (x : Except Fault α) : (of x).outcome = x := rfl

@[simp] theorem outcome_lift {α : Type} (x : Except Fault α) :
    (liftM x : Traced α).outcome = x := rfl

@[simp] theorem outcome_record (level : Level) (text : String) :
    (record level text).outcome = .ok () := rfl

end Traced

end MethodLint
