/-!
Blank characters and the breaks between lines. A text has three notions of a line: the lines that a
reader counts (`lineCount`), which end at any of eleven breaks, the lines of a file read as text,
where a carriage return and the pair with a line feed both stand for a line feed (`unifyNewlines`),
and the lines of a grammar, which its own reader counts.
-/
namespace MethodLint.Text

/-- White space of any script. -/
def isBlank (c : Char) : Bool :=
  let n := c.toNat
  (9 ≤ n && n ≤ 13) || (28 ≤ n && n ≤ 32) || n == 133 || n == 160 || n == 5760
    || (8192 ≤ n && n ≤ 8202) || n == 8232 || n == 8233 || n == 8239 || n == 8287 || n == 12288

/-- A character that ends a line for a reader who counts lines. -/
def isLineBreak (c : Char) : Bool :=
  let n := c.toNat
  (10 ≤ n && n ≤ 13) || (28 ≤ n && n ≤ 30) || n == 133 || n == 8232 || n == 8233

/-- The number of lines of a text: one for each break, and one more for what follows the last. A
carriage return with a line feed is one break. -/
def lineCountFrom (count : Nat) (pending : Bool) : List Char → Nat
  | [] => if pending then count + 1 else count
  | '\r' :: '\n' :: rest => lineCountFrom (count + 1) false rest
  | c :: rest =>
    if isLineBreak c then lineCountFrom (count + 1) false rest else lineCountFrom count true rest

/-- The number of lines of a text. -/
def lineCount (s : String) : Nat := lineCountFrom 0 false s.toList

/-- Every line break of a file becomes a line feed. -/
def unifyNewlinesFrom (done : List Char) : List Char → List Char
  | [] => done.reverse
  | '\r' :: '\n' :: rest => unifyNewlinesFrom ('\n' :: done) rest
  | '\r' :: rest => unifyNewlinesFrom ('\n' :: done) rest
  | c :: rest => unifyNewlinesFrom (c :: done) rest

/-- A text with every carriage return, alone or before a line feed, written as a line feed. -/
def unifyNewlines (s : String) : String := String.ofList (unifyNewlinesFrom [] s.toList)

/-- A text without the blanks at its two ends. -/
def strip (s : List Char) : List Char :=
  ((s.dropWhile isBlank).reverse.dropWhile isBlank).reverse

end MethodLint.Text
