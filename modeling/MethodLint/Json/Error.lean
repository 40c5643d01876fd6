import MethodLint.Fault

/-!
Why a text is no JSON document. An error of the grammar names its place by line, column and index;
the other two causes stand for documents that are well-formed but more than the reader takes.
-/
namespace MethodLint.Json

/-- What the grammar misses. -/
inductive Expectation
  | value
  | propertyName
  | colon
  | comma
  | documentEnd
  | plainCharacter
  | escape
  | codeUnit
  | closingQuote
  | noByteOrderMark
  deriving DecidableEq, Repr

/-- The wording of an expectation that was not met. -/
def Expectation.message : Expectation → String
  | .value => "Expecting value"
  | .propertyName => "Expecting property name enclosed in double quotes"
  | .colon => "Expecting ':' delimiter"
  | .comma => "Expecting ',' delimiter"
  | .documentEnd => "Extra data"
  | .plainCharacter => "Invalid control character at"
  | .escape => "Invalid \\escape"
  | .codeUnit => "Invalid \\uXXXX escape"
  | .closingQuote => "Unterminated string starting at"
  | .noByteOrderMark => "Unexpected UTF-8 BOM (decode using utf-8-sig)"

/-- Why a text is not read. -/
inductive Error
  /-- The grammar is broken at an index. -/
  | grammar (expected : Expectation) (index : Nat)
  /-- The document is well-formed up to here but cannot be held. -/
  | fault (fault : Fault)

/-- Line and column of an index, both from one. -/
def place (cs : List Char) (index : Nat) : Nat × Nat :=
  let before := cs.take index
  let line := before.foldl (fun n c => if c = '\n' then n + 1 else n) 1
  let column := (before.reverse.takeWhile (· != '\n')).length + 1
  (line, column)

/-- The wording of a grammar error in a text. -/
def grammarMessage (text : String) (expected : Expectation) (index : Nat) : String :=
  let (line, column) := place text.toList index
  s!"{expected.message}: line {line} column {column} (char {index})"

end MethodLint.Json
