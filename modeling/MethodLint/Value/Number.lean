import MethodLint.Decimal.Float
import MethodLint.Fault
import MethodLint.Value.Basic

/-!
Numbers among the values: the strict order and the difference that line spans and thresholds need.
Whole and binary numbers are compared by their exact values, so no rounding decides a comparison;
a truth value counts as 0 or 1. Anything else is a type defect.
-/
namespace MethodLint

/-- A number of a document. -/
inductive Number
  | int (n : Int)
  | float (x : Float)

namespace Number

/-- `n` exceeds the binary number with these parts. -/
def intExceeds (n : Int) : Decimal.Parts → Bool
  | .nan => false
  | .infinity negative => negative
  | .zero _ => 0 < n
  | .finite negative m q _ =>
    let x : Int := if negative then -(m : Int) else m
    n * Nat.pow 2 (-q).toNat > x * Nat.pow 2 q.toNat

/-- The binary number with these parts exceeds `n`. -/
def exceedsInt (n : Int) : Decimal.Parts → Bool
  | .nan => false
  | .infinity negative => !negative
  | .zero _ => n < 0
  | .finite negative m q _ =>
    let x : Int := if negative then -(m : Int) else m
    x * Nat.pow 2 q.toNat > n * Nat.pow 2 (-q).toNat

/-- The strict order. -/
def exceeds : Number → Number → Bool
  | .int a, .int b => b < a
  | .float a, .float b => b < a
  | .int a, .float b => intExceeds a (Decimal.Parts.of b)
  | .float a, .int b => exceedsInt b (Decimal.Parts.of a)

/-- Not a number. -/
def isNaN : Number → Bool
  | .int _ => false
  | .float x => x.isNaN

/-- Equal numbers, of whichever kind. -/
def same (a b : Number) : Bool := !a.isNaN && !b.isNaN && !a.exceeds b && !b.exceeds a

/-- The nearest binary number. -/
def toFloat : Number → Float
  | .int n => Float.ofInt n
  | .float x => x

/-- The difference, exact on whole numbers. -/
def sub : Number → Number → Number
  | .int a, .int b => .int (a - b)
  | a, b => .float (a.toFloat - b.toFloat)

end Number

namespace Value

/-- The number that a value counts as. -/
def number? : Value → Option Number
  | .int n => some (.int n)
  | .float x => some (.float x)
  | .bool b => some (.int (if b then 1 else 0))
  | _ => none

/-- A number as a value. -/
def ofNumber : Number → Value
  | .int n => .int n
  | .float x => .float x

/-- Whether two keys of a mapping are one: equal numbers, or equal values of one kind. -/
def isSameKey (a b : Value) : Bool :=
  match a.number?, b.number? with
  | some m, some n => m.same n
  | _, _ => match a, b with
    | .null, .null => true
    | .str s, .str t => s = t
    | .bytes s, .bytes t => s = t
    | .date s, .date t => s = t
    | .moment s, .moment t => s = t
    | _, _ => false

/-- Entries with one more. A key that is there keeps its place and its form and gets the new
value. -/
def putKey (key value : Value) : List (Value × Value) → List (Value × Value)
  | [] => [(key, value)]
  | (k, v) :: rest =>
    if k.isSameKey key then (k, value) :: rest else (k, v) :: putKey key value rest

/-- The strict order of numbers. -/
def exceeds (a b : Value) : Except Fault Bool :=
  match a.number?, b.number? with
  | some m, some n => .ok (m.exceeds n)
  | _, _ => .error (.type (.order a.typeName b.typeName))

/-- The difference of two numbers. -/
def sub (a b : Value) : Except Fault Value :=
  match a.number?, b.number? with
  | some m, some n => .ok (ofNumber (m.sub n))
  | _, _ => .error (.type (.difference a.typeName b.typeName))

@[simp] theorem exceeds_int (a b : Int) : exceeds (.int a) (.int b) = .ok (decide (b < a)) := rfl

@[simp] theorem sub_int (a b : Int) : sub (.int a) (.int b) = .ok (.int (a - b)) := rfl

end Value

end MethodLint
