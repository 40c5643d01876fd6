import MethodLint.Files
import MethodLint.Traced

/-!
Runs of a command. A run leaves events in order: records of its log, lines on both outputs, and files
that it writes. It ends by itself, with a status, or by a fault. What it leaves does not depend on
what was left before it, so the events of its parts are put one behind the other.
-/
namespace MethodLint.CommandLine

/-- Something that a run leaves. -/
inductive Event
  | log (record : Record)
  | printed (text : String)
  | complained (text : String)
  | wrote (path text : String)
  deriving DecidableEq, Repr

/-- How a run ends that does not end by itself. -/
inductive Exit
  | status (code : Nat)
  | fault (fault : Fault)

/-- A run with its answer: the events, and the answer or the end. -/
structure Session (α : Type) where
  events : List Event
  outcome : Except Exit α

namespace Session

instance : Monad Session where
  pure a := ⟨[], .ok a⟩
  bind x f := match x.outcome with
    | .error e => ⟨x.events, .error e⟩
    | .ok a => ⟨x.events ++ (f a).events, (f a).outcome⟩

/-- Leaves an event. -/
def leave (event : Event) : Session Unit := ⟨[event], .ok ()⟩

/-- Prints a text and a line break. -/
def print (text : String) : Session Unit := leave (.printed (text ++ "\n"))

/-- Writes a line for whoever runs the command. -/
def complain (text : String) : Session Unit := leave (.complained (text ++ "\n"))

/-- Writes a record of the course of a run. -/
def debug (text : String) : Session Unit := leave (.log ⟨.debug, text⟩)

/-- Ends a run with a status. -/
def exit {α : Type} (code : Nat) : Session α := ⟨[], .error (.status code)⟩

/-- Ends a run with a line and the status of a failure. -/
def fail {α : Type} (text : String) : Session α := do
  complain ("Error: " ++ text)
  exit 1

/-- The answer of a part that may be stopped by a fault. -/
def ofResult {α : Type} (x : Except Fault α) : Session α := ⟨[], x.mapError .fault⟩

/-- The answer of a part that leaves a log; `handle` answers in place of a fault. -/
def ofTraced {α : Type} (x : Traced α) (handle : Fault → Session α) : Session α :=
  let rest := match x.outcome with
    | .ok a => pure a
    | .error e => handle e
  ⟨x.log.map .log ++ rest.events, rest.outcome⟩

/-- Ends a run by a fault. -/
def stop {α : Type} (e : Fault) : Session α := ⟨[], .error (.fault e)⟩

end Session

/-- Whether a record is shown. -/
def isShown (verbose : Bool) (record : Record) : Bool := verbose || record.level = .warning

/-- What an event puts on standard output. -/
def Event.onOutput : Event → String
  | .printed text => text
  | _ => ""

/-- What an event puts on standard error. -/
def Event.onError (verbose : Bool) : Event → String
  | .log record => if isShown verbose record then record.line ++ "\n" else ""
  | .complained text => text
  | _ => ""

/-- The file that an event writes. -/
def Event.file? : Event → Option (String × String)
  | .wrote path text => some (path, text)
  | _ => none

/-- What a run comes to: how it ends, both outputs, and the files it writes. -/
structure Outcome where
  exit : Exit
  output : String
  errors : String
  written : List (String × String)

/-- What a run of events and an end comes to. -/
def Session.toOutcome (verbose : Bool) (s : Session Unit) : Outcome :=
  { exit := match s.outcome with
      | .ok () => .status 0
      | .error e => e
    output := String.join (s.events.map Event.onOutput)
    errors := String.join (s.events.map (Event.onError verbose))
    written := s.events.filterMap Event.file? }

end MethodLint.CommandLine
