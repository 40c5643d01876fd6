import MethodLint.Decimal.Float
import MethodLint.Text.Quoted
import MethodLint.Value.Basic

/-!
The two texts of a value. In its full form (`show`) texts are quoted and every part of a collection
is shown in full; its plain form (`text`) is the same but for texts and dates, which stand alone.
-/
namespace MethodLint.Value

/-- The text of a truth value. -/
def boolText (b : Bool) : String := if b then "True" else "False"

/-- Parts between two brackets. -/
def bracketed (first last : String) (parts : List String) : String :=
  first ++ ", ".intercalate parts ++ last

mutual

/-- The full form of a value. -/
def full : Value → String
  | .null => "None"
  | .bool b => boolText b
  | .int n => toString n
  | .float x => Decimal.floatText x
  | .str s => Text.quoted s
  | .bytes data => Text.quotedBytes data
  | .date d => d.form
  | .moment t => t.form
  | .list items => bracketed "[" "]" (fullItems items)
  | .tuple [] => "()"
  | .tuple [item] => "(" ++ full item ++ ",)"
  | .tuple items => bracketed "(" ")" (fullItems items)
  | .set [] => "set()"
  | .set items => bracketed "\x7b" "\x7d" (fullItems items)
  | .map entries => bracketed "\x7b" "\x7d" (fullEntries entries)

/-- The full forms of some values. -/
def fullItems : List Value → List String
  | [] => []
  | item :: rest => full item :: fullItems rest

/-- The full forms of some entries. -/
def fullEntries : List (Value × Value) → List String
  | [] => []
  | (key, value) :: rest => (full key ++ ": " ++ full value) :: fullEntries rest

end

/-- The plain form of a value. -/
def text : Value → String
  | .str s => s
  | .date d => d.text
  | .moment t => t.text
  | v => v.full

end MethodLint.Value
