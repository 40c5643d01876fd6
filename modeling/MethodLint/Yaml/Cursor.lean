import MethodLint.Fault

/-!
Where a reader of YAML stands in a text, and the characters that the grammar tells apart. The end of
the text reads as a null character, which cannot stand in a text. A byte order mark takes no column.
-/
namespace MethodLint.Yaml

/-- Why a text is no document: it is malformed, or something else stops the reader. -/
inductive Refusal
  | malformed
  | fault (fault : Fault)
  deriving Repr

/-- A result that may be refused. -/
abbrev Result (α : Type) := Except Refusal α

/-- The text is malformed. -/
def malformed {α : Type} : Result α := .error .malformed

/-- What is left of a text, and where it starts. -/
structure Cursor where
  rest : List Char
  index : Nat
  line : Nat
  column : Nat
  deriving Inhabited

/-- What the end of the text reads as. -/
def ending : Char := '\x00'

/-- A line break. -/
def isBreak (c : Char) : Bool :=
  c = '\n' || c = '\r' || c = '\x85' || c = '\u2028' || c = '\u2029'

/-- A line break, or the end. -/
def isBreakOrEnd (c : Char) : Bool := c = ending || isBreak c

/-- A space, a line break, or the end. -/
def isGap (c : Char) : Bool := c = ' ' || isBreakOrEnd c

/-- A space, a tab, a line break, or the end. -/
def isWideGap (c : Char) : Bool := c = '\t' || isGap c

/-- A character of the names of anchors, handles and directives. -/
def isWordCharacter (c : Char) : Bool := c.isAlphanum || c = '-' || c = '_'

/-- A character that may stand in a text. -/
def isAllowed (c : Char) : Bool :=
  let n := c.toNat
  n = 9 || n = 10 || n = 13 || (0x20 ≤ n && n ≤ 0x7E) || n = 0x85 || (0xA0 ≤ n && n ≤ 0xD7FF)
    || (0xE000 ≤ n && n ≤ 0xFFFD) || 0x10000 ≤ n

namespace Cursor

/-- The start of a text. -/
def start (text : List Char) : Cursor := ⟨text, 0, 0, 0⟩

/-- A character further on. -/
def peek (cur : Cursor) (n : Nat) : Char := cur.rest.getD n ending

/-- The next character. -/
def head (cur : Cursor) : Char := cur.peek 0

/-- The cursor behind the next character. -/
def next (cur : Cursor) : Cursor :=
  match cur.rest with
  | [] => cur
  | c :: rest =>
    let index := cur.index + 1
    if c = '\r' ∧ rest.head? = some '\n' then ⟨rest, index, cur.line, cur.column + 1⟩
    else if isBreak c then ⟨rest, index, cur.line + 1, 0⟩
    else if c = '\uFEFF' then ⟨rest, index, cur.line, cur.column⟩
    else ⟨rest, index, cur.line, cur.column + 1⟩

/-- The cursor some characters on. -/
def drop (cur : Cursor) : Nat → Cursor
  | 0 => cur
  | n + 1 => cur.next.drop n

/-- The characters as long as a condition holds, and the cursor behind them. -/
def span (cur : Cursor) (holds : Char → Bool) : List Char × Cursor :=
  let taken := cur.rest.takeWhile holds
  (taken, cur.drop taken.length)

/-- The cursor behind the characters for which a condition holds. -/
def skip (cur : Cursor) (holds : Char → Bool) : Cursor := (cur.span holds).2

/-- The cursor behind spaces. -/
def skipSpaces (cur : Cursor) : Cursor := cur.skip (· = ' ')

/-- The cursor behind a comment, if one stands here. -/
def skipComment (cur : Cursor) : Cursor :=
  if cur.head = '#' then cur.skip fun c => !isBreak c else cur

/-- Takes a line break. All but two kinds of them are read as a line feed. -/
def lineBreak? (cur : Cursor) : Option (Char × Cursor) :=
  match cur.rest with
  | '\r' :: '\n' :: _ => some ('\n', cur.drop 2)
  | c :: _ =>
    if c = '\u2028' ∨ c = '\u2029' then some (c, cur.next)
    else if isBreak c then some ('\n', cur.next)
    else none
  | [] => none

/-- A line of three equal marks, which separates documents. -/
def isSeparator (cur : Cursor) (mark : Char) : Bool :=
  cur.peek 0 = mark && cur.peek 1 = mark && cur.peek 2 = mark && isWideGap (cur.peek 3)

/-- Any separator of documents. -/
def isAnySeparator (cur : Cursor) : Bool := cur.isSeparator '-' || cur.isSeparator '.'

/-- The rest of a line that may only hold a comment, and its break. -/
def ignoredLine (cur : Cursor) : Result Cursor :=
  let cur := cur.skipSpaces.skipComment
  if isBreakOrEnd cur.head then .ok ((cur.lineBreak?.map Prod.snd).getD cur) else malformed

end Cursor

end MethodLint.Yaml
