import MethodLint.Value.Display
import MethodLint.Value.Number

/-!
When a method is too much. Four numbers are taken of a method, and it is reported only when each of
them is beyond its threshold; the comparison is strict throughout. Thresholds are values, because
whoever sets them may hand over anything: what is no number is found out at the first comparison.
-/
namespace MethodLint

/-- The thresholds of the four metrics. -/
structure Thresholds where
  cyclo : Value
  maxnesting : Value
  noav : Value
  loc : Value
  deriving Inhabited

namespace Thresholds

/-- Thresholds that are whole numbers. -/
def ofInts (cyclo maxnesting noav loc : Int) : Thresholds :=
  ⟨.int cyclo, .int maxnesting, .int noav, .int loc⟩

/-- The thresholds in use where none are set. -/
def standard : Thresholds := ofInts 4 3 5 65

end Thresholds

/-- The four metrics of one method. -/
structure Snapshot where
  loc : Value
  cyclo : Int
  nestingExceeds : Bool
  noav : Int
  deriving Inhabited

namespace Snapshot

/-- The metrics as entries of a report. -/
def fields (s : Snapshot) : List (String × Value) :=
  [("loc", s.loc), ("cyclo", .int s.cyclo), ("nesting_exceeds", .bool s.nestingExceeds),
    ("noav", .int s.noav)]

/-- The metrics as a report holds them. -/
def toValue (s : Snapshot) : Value := .record s.fields

/-- The metrics as the log shows them. -/
def text (s : Snapshot) : String :=
  s!"MetricSnapshot(loc={s.loc.full}, cyclomatic_complexity={s.cyclo}, "
    ++ s!"nesting_exceeds={Value.boolText s.nestingExceeds}, variable_count={s.noav})"

end Snapshot

/-- All four metrics are strictly beyond their thresholds. They are looked at in order, and the
first that is not decides, so a threshold behind it is not even compared. -/
def isBrainMethod (s : Snapshot) (t : Thresholds) : Except Fault Bool := do
  if !(← s.loc.exceeds t.loc) then return false
  if !(← (Value.int s.cyclo).exceeds t.cyclo) then return false
  if !s.nestingExceeds then return false
  (Value.int s.noav).exceeds t.noav

end MethodLint
