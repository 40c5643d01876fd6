import MethodLint.Decimal.Float
import MethodLint.Fault
import MethodLint.Text.Hexadecimal
import MethodLint.Value.Display

/-!
Writing values as JSON. Every item of a collection stands on a line of its own, two blanks further in
than its collection, and a collection of nothing on none. Only printable ASCII is written as it is;
every other character of a text is written by its code units. A value that the format does not have
is refused, or written as its text where that is asked for.
-/
namespace MethodLint.Json

/-- The escape of a code unit. -/
def unitEscape (n : Nat) : String := "\\u" ++ Text.hexNumeral 4 n

/-- A character of a text. A code point beyond the first plane takes two units. -/
def escaped (c : Char) : String :=
  let n := c.toNat
  if c = '"' then "\\\""
  else if c = '\\' then "\\\\"
  else if c = '\n' then "\\n"
  else if c = '\r' then "\\r"
  else if c = '\t' then "\\t"
  else if n = 12 then "\\f"
  else if n = 8 then "\\b"
  else if 32 ≤ n ∧ n ≤ 126 then c.toString
  else if n < 0x10000 then unitEscape n
  else
    let rest := n - 0x10000
    unitEscape (0xD800 + rest / 0x400) ++ unitEscape (0xDC00 + rest % 0x400)

/-- A text between quotes. -/
def quoted (s : String) : String :=
  s.toList.foldl (fun out c => out ++ escaped c) "\"" ++ "\""

/-- A fraction; what is no number or infinite has a name. -/
def floatNumeral (x : Float) : String :=
  match Decimal.Parts.of x with
  | .nan => "NaN"
  | .infinity negative => if negative then "-Infinity" else "Infinity"
  | _ => Decimal.floatText x

/-- A whole number, if it has no more digits than are written. -/
def intNumeral (n : Int) : Except Fault String :=
  if n.natAbs < Nat.pow 10 numeralLimit then .ok (toString n) else .error .numberTooLong

/-- The name of a truth value. -/
def boolName (b : Bool) : String := if b then "true" else "false"

/-- The text of a key. Numbers, truth values and null are keys by their numerals and names. -/
def keyText : Value → Except Fault String
  | .str s => .ok s
  | .float x => .ok (floatNumeral x)
  | .bool b => .ok (boolName b)
  | .null => .ok "null"
  | .int n => intNumeral n
  | v => .error (.type (.serializedKey v.shortTypeName))

/-- A line break and the blanks of a level. -/
def lineStart (level : Nat) : String := "\n" ++ "".pushn ' ' (2 * level)

/-- Parts of a collection between its brackets. -/
def enclosed (level : Nat) (first last : String) (parts : List String) : String :=
  if parts.isEmpty then first ++ last
  else
    first ++ lineStart (level + 1) ++ ("," ++ lineStart (level + 1)).intercalate parts
      ++ lineStart level ++ last

/-- A value that the format does not have. -/
def foreign (asTexts : Bool) (v : Value) : Except Fault String :=
  if asTexts then .ok (quoted v.text) else .error (.type (.serialization v.shortTypeName))

mutual

/-- A value at a level. -/
def writeAt (asTexts : Bool) (level : Nat) : Value → Except Fault String
  | .null => .ok "null"
  | .bool b => .ok (boolName b)
  | .int n => intNumeral n
  | .float x => .ok (floatNumeral x)
  | .str s => .ok (quoted s)
  | .list items => do return enclosed level "[" "]" (← writeItems asTexts (level + 1) items)
  | .tuple items => do return enclosed level "[" "]" (← writeItems asTexts (level + 1) items)
  | .map entries => do
    return enclosed level "\x7b" "\x7d" (← writeEntries asTexts (level + 1) entries)
  | .bytes data => foreign asTexts (.bytes data)
  | .date d => foreign asTexts (.date d)
  | .moment t => foreign asTexts (.moment t)
  | .set items => foreign asTexts (.set items)

/-- Some values at a level. -/
def writeItems (asTexts : Bool) (level : Nat) : List Value → Except Fault (List String)
  | [] => .ok []
  | item :: rest => do
    let first ← writeAt asTexts level item
    return first :: (← writeItems asTexts level rest)

/-- Some entries at a level. -/
def writeEntries (asTexts : Bool) (level : Nat) :
    List (Value × Value) → Except Fault (List String)
  | [] => .ok []
  | (key, value) :: rest => do
    let name ← keyText key
    let first ← writeAt asTexts level value
    return (quoted name ++ ": " ++ first) :: (← writeEntries asTexts level rest)

end

/-- A value; where `asTexts` holds, what the format does not have is written as its text. -/
def write (asTexts : Bool) (v : Value) : Except Fault String := writeAt asTexts 0 v

end MethodLint.Json
