import MethodLint.Calendar

/-!
The values that documents hold. A tree document or a configuration may carry anything that its
format can write, and a node keeps what it was given until somebody looks at it, so one type holds
all of it. Entries of a mapping keep the order in which their keys were first written.
-/
namespace MethodLint

/-- A value of a document. -/
inductive Value
  | null
  | bool (b : Bool)
  | int (n : Int)
  | float (x : Float)
  | str (s : String)
  | bytes (data : List UInt8)
  | date (d : Date)
  | moment (t : Moment)
  | list (items : List Value)
  | tuple (items : List Value)
  | set (items : List Value)
  | map (entries : List (Value × Value))
  deriving Inhabited

namespace Value

/-- The value of a key of text in a list of entries. -/
def lookup (key : String) : List (Value × Value) → Option Value
  | [] => none
  | (.str k, v) :: rest => if k = key then some v else lookup key rest
  | _ :: rest => lookup key rest

/-- The value that a mapping holds for a key of text. -/
def get? (v : Value) (key : String) : Option Value :=
  match v with
  | .map entries => lookup key entries
  | _ => none

/-- The value of a key, where a missing key counts as nothing. -/
def getD (v : Value) (key : String) : Value := (v.get? key).getD .null

/-- A mapping of texts. -/
def record (fields : List (String × Value)) : Value :=
  .map (fields.map fun field => (.str field.1, field.2))

/-- Whether a value counts as nothing: null, false, zero, or empty. -/
def isFalsy : Value → Bool
  | .null => true
  | .bool b => !b
  | .int n => n == 0
  | .float x => x == 0.0
  | .str s => s.isEmpty
  | .bytes data => data.isEmpty
  | .list items | .tuple items | .set items => items.isEmpty
  | .map entries => entries.isEmpty
  | .date _ | .moment _ => false

/-- Whether a value counts as true. -/
def isTruthy (v : Value) : Bool := !v.isFalsy

/-- A value, or another one if it counts as nothing. -/
def orElse (v standard : Value) : Value := if v.isFalsy then standard else v

/-- Null. -/
def isNull : Value → Bool
  | .null => true
  | _ => false

/-- A text of these characters. -/
def isText (text : String) : Value → Bool
  | .str s => s = text
  | _ => false

/-- A mapping. -/
def isMap : Value → Bool
  | .map _ => true
  | _ => false

/-- The name of the kind of a value, as messages give it. -/
def typeName : Value → String
  | .null => "NoneType"
  | .bool _ => "bool"
  | .int _ => "int"
  | .float _ => "float"
  | .str _ => "str"
  | .bytes _ => "bytes"
  | .date _ => "datetime.date"
  | .moment _ => "datetime.datetime"
  | .list _ => "list"
  | .tuple _ => "tuple"
  | .set _ => "set"
  | .map _ => "dict"

/-- The last part of the name of the kind of a value. -/
def shortTypeName : Value → String
  | .date _ => "date"
  | .moment _ => "datetime"
  | v => v.typeName

/-- A text if there is one, and null otherwise. -/
def ofText? : Option String → Value
  | none => .null
  | some s => .str s

mutual

/-- How deeply a value is nested. -/
def depth : Value → Nat
  | .list items | .tuple items | .set items => 1 + depthItems items
  | .map entries => 1 + depthEntries entries
  | _ => 1

/-- The greatest depth of some values. -/
def depthItems : List Value → Nat
  | [] => 0
  | item :: rest => max (depth item) (depthItems rest)

/-- The greatest depth of the values of some entries. -/
def depthEntries : List (Value × Value) → Nat
  | [] => 0
  | (_, value) :: rest => max (depth value) (depthEntries rest)

end

/-- A line number if there is one, and null otherwise. -/
def ofLine? : Option Int → Value
  | none => .null
  | some n => .int n

end Value

end MethodLint
