import MethodLint.Text.Hexadecimal
import MethodLint.Text.Printable

/-!
A text between quotes, as values are shown in messages. The single quote is used unless the text
holds a single quote and no double one. The quote in use and the backslash are escaped by a
backslash, tab and line breaks by their letters, and whatever is not printable by its code point.
-/
namespace MethodLint.Text

/-- The quote that needs the fewest escapes, the single one where both serve. -/
def quoteFor (cs : List Char) : Char :=
  if cs.contains '\'' && !cs.contains '"' then '"' else '\''

/-- The escape of a code point in the shortest form that holds it. -/
def escapeCodePoint (n : Nat) : String :=
  if n < 0x100 then "\\x" ++ hexNumeral 2 n
  else if n < 0x10000 then "\\u" ++ hexNumeral 4 n
  else "\\U" ++ hexNumeral 8 n

/-- One character of a quoted text. -/
def quoteChar (quote c : Char) : String :=
  if c = quote then "\\" ++ quote.toString
  else if c = '\\' then "\\\\"
  else if c = '\t' then "\\t"
  else if c = '\n' then "\\n"
  else if c = '\r' then "\\r"
  else if isPrintable c then c.toString
  else escapeCodePoint c.toNat

/-- A text between quotes. -/
def quoted (s : String) : String :=
  let quote := quoteFor s.toList
  s.toList.foldl (fun out c => out ++ quoteChar quote c) quote.toString ++ quote.toString

/-- One byte of quoted binary data: ASCII is shown as a character, the rest by its value. -/
def quoteByte (quote : Char) (b : UInt8) : String :=
  if b.toNat < 0x80 then quoteChar quote (Char.ofNat b.toNat) else escapeCodePoint b.toNat

/-- Binary data between quotes, marked by a small b. -/
def quotedBytes (bytes : List UInt8) : String :=
  let quote := quoteFor (bytes.map fun b => Char.ofNat b.toNat)
  bytes.foldl (fun out b => out ++ quoteByte quote b) ("b" ++ quote.toString) ++ quote.toString

end MethodLint.Text
