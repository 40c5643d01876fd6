import MethodLint.Source.NumberToken
import MethodLint.Source.Token
import MethodLint.Text.Blank
import MethodLint.Text.Identifier

/-!
Reading the tokens of a source, whose lines end with a line feed. The reader keeps the brackets that
are open and the columns of the blocks that are open. Inside brackets line ends count as spaces and
blocks neither open nor close. The column of a line is measured twice, with tabs that reach to the
next multiple of eight and with tabs of width one; the two measures must agree on how lines compare.
-/
namespace MethodLint.Source

/-- Where the reader of tokens stands. -/
structure Position where
  rest : List Char
  line : Nat
  /-- The open brackets, innermost first. -/
  brackets : List OpenBracket
  /-- The columns of the open blocks, innermost first, in both measures. -/
  indents : List (Nat × Nat)
  atLineStart : Bool

/-- The most brackets that may be open. -/
def bracketLimit : Nat := 200

/-- The number of blocks that are too many. -/
def indentLimit : Nat := 100

namespace Position

/-- The line that the reader is on. At the end this is the last line. -/
def here (p : Position) : Nat := if p.rest.isEmpty then p.line - 1 else p.line

/-- A stop that hides every other complaint. -/
def stop (p : Position) (complaint : Complaint) (line : Nat) : Stop :=
  ⟨complaint, line, false, p.brackets.head?⟩

/-- A stop that matters to whoever reads so far. -/
def mildStop (p : Position) (complaint : Complaint) : Stop :=
  ⟨complaint, p.here, true, p.brackets.head?⟩

/-- The source ends where it cannot. -/
def endOfSource (p : Position) : Stop :=
  match p.brackets with
  | b :: _ => ⟨.neverClosed b.bracket, b.line, true, some b⟩
  | [] => p.mildStop .unexpectedEnd

/-- A token that is read where the reader stands. -/
def token (p : Position) (sort : TokenSort) (text : String) : Token :=
  ⟨sort, text, p.here, p.here, p.brackets.length⟩

end Position

/-- The outcome of a step of the reader. -/
inductive Step
  | tokens (found : List Token) (next : Position)
  | finish (found : List Token)
  | stop (reason : Stop)

/-! ## Layout -/

/-- The line after a backslash: it must follow at once, and there must be one. -/
def continuation (p : Position) : Except Stop Position :=
  match p.rest with
  | '\n' :: rest =>
    let p := { p with rest, line := p.line + 1 }
    if rest.isEmpty then .error p.endOfSource else .ok p
  | _ => .error (p.mildStop .afterContinuation)

/-- The columns of a line in both measures. -/
structure Column where
  wide : Nat
  narrow : Nat
  /-- The column of the first backslash that continued the line, if it was not zero. -/
  held : Nat

/-- The column of the line that starts here, and the reader after its spaces. -/
def columnFrom : (steps : Nat) → Column → Position → Except Stop (Column × Position)
  | 0, column, p => .ok (column, p)
  | steps + 1, column, p =>
    match p.rest with
    | ' ' :: rest =>
      columnFrom steps { column with wide := column.wide + 1, narrow := column.narrow + 1 }
        { p with rest }
    | '\t' :: rest =>
      columnFrom steps
        { column with wide := (column.wide / 8 + 1) * 8, narrow := column.narrow + 1 } { p with rest }
    | '\x0c' :: rest => columnFrom steps { column with wide := 0, narrow := 0 } { p with rest }
    | '\\' :: rest => do
      let held := if column.held = 0 then column.wide else column.held
      columnFrom steps { column with held } (← continuation { p with rest })
    | _ => .ok (column, p)

/-- Closes the blocks that a line is too far left for. -/
def closeBlocks (wide : Nat) : List (Nat × Nat) → Nat × List (Nat × Nat)
  | [] => (0, [])
  | (column, narrow) :: outer =>
    if wide < column then
      let (count, left) := closeBlocks wide outer
      (count + 1, left)
    else (0, (column, narrow) :: outer)

/-- Opens or closes blocks according to the column of a line. -/
def settle (column : Column) (p : Position) : Step :=
  let wide := if column.held = 0 then column.wide else column.held
  let narrow := if column.held = 0 then column.narrow else column.held
  let (current, currentNarrow) := p.indents.head?.getD (0, 0)
  if wide = current then
    if narrow = currentNarrow then .tokens [] p else .stop (p.mildStop .mixedIndentation)
  else if current < wide then
    if indentLimit ≤ p.indents.length + 1 then .stop (p.mildStop .tooManyIndents)
    else if narrow ≤ currentNarrow then .stop (p.mildStop .mixedIndentation)
    else .tokens [p.token .indent ""] { p with indents := (wide, narrow) :: p.indents }
  else
    let (count, indents) := closeBlocks wide p.indents
    let (left, leftNarrow) := indents.head?.getD (0, 0)
    if wide ≠ left then .stop (p.mildStop .strayUnindent)
    else if narrow ≠ leftNarrow then .stop (p.mildStop .mixedIndentation)
    else .tokens (List.replicate count (p.token .dedent "")) { p with indents }

/-- The start of a line: a line without code is skipped; any other may open or close blocks. -/
def lineStart (p : Position) : Step :=
  match columnFrom (p.rest.length + 1) ⟨0, 0, 0⟩ p with
  | .error reason => .stop reason
  | .ok (column, p) =>
    match p.rest with
    | '\n' :: rest => .tokens [] { p with rest, line := p.line + 1 }
    | '#' :: rest =>
      let rest := (rest.dropWhile (· ≠ '\n')).drop 1
      .tokens [] { p with rest, line := p.line + 1 }
    | _ =>
      let p := { p with atLineStart := false }
      if p.brackets.isEmpty then settle column p else .tokens [] p

/-! ## Texts -/

/-- The letters that may stand before the quotes of a text, in small letters. -/
def textLetters : List String := ["", "b", "r", "u", "f", "br", "rb", "fr", "rf"]

/-- The rest of a text after its opening quotes, and the line it ends on. `run` counts the quotes
that were just read, of which `needed` end the text. Nothing is answered if the text does not end. -/
def textFrom (quote : Char) (needed : Nat) :
    (run line : Nat) → (taken : List Char) → List Char → Except Nat (List Char × Nat × List Char)
  | _, line, _, [] => .error (line - 1)
  | _, line, taken, '\\' :: c :: rest =>
    textFrom quote needed 0 (if c = '\n' then line + 1 else line) (c :: '\\' :: taken) rest
  | run, line, taken, c :: rest =>
    if c = quote then
      if run + 1 = needed then .ok (c :: taken, line, rest)
      else textFrom quote needed (run + 1) line (c :: taken) rest
    else if c = '\n' then
      if needed = 1 then .error line else textFrom quote needed 0 (line + 1) (c :: taken) rest
    else textFrom quote needed 0 line (c :: taken) rest

/-- A text between quotes, after the letters before it. -/
def textToken (p : Position) (letters : List Char) (quote : Char) (rest : List Char) : Step :=
  let finish (taken : List Char) (line : Nat) (rest : List Char) : Step :=
    .tokens [⟨.text, String.ofList (letters ++ taken), p.line, line, p.brackets.length⟩]
      { p with rest, line }
  let body (needed : Nat) (opening rest : List Char) : Step :=
    match textFrom quote needed 0 p.line opening rest with
    | .ok (taken, line, rest) => finish taken.reverse line rest
    | .error line => .stop (p.stop (.unterminated (needed = 3) line) p.line)
  match rest with
  | a :: b :: more =>
    if a = quote ∧ b = quote then body 3 [quote, quote, quote] more
    else if a = quote then finish [quote, quote] p.line (b :: more)
    else body 1 [quote] rest
  | _ => body 1 [quote] rest

/-! ## Words, numbers and symbols -/

/-- The first character of a word that cannot stand in a name. -/
def strayCharacter? (word : List Char) : Option Char :=
  match word with
  | [] => none
  | c :: rest =>
    if Text.isIdentifierStart c || c = '_' then rest.find? fun c => !Text.isIdentifierContinue c
    else some c

/-- A name or a keyword, or the letters before a text. -/
def wordToken (p : Position) : Step :=
  let word := p.rest.takeWhile NumberToken.isNameLike
  let rest := p.rest.drop word.length
  let plain : Step :=
    match strayCharacter? word with
    | some c => .stop (p.stop (.badCharacter c) p.line)
    | none =>
      let text := String.ofList word
      let sort := if reservedWords.contains text then TokenSort.keyword else .name
      .tokens [p.token sort text] { p with rest }
  match rest with
  | c :: more =>
    if (c = '\'' ∨ c = '"') ∧ textLetters.contains (String.ofList word).toLower then
      textToken p word c more
    else plain
  | [] => plain

/-- A number, and how it is read. -/
def numberToken (p : Position) (read : List Char → NumberToken.Reading) : Step :=
  let span := NumberToken.span ' ' p.rest
  match read span with
  | .error complaint => .stop (p.stop complaint p.line)
  | .ok left =>
    let length := span.length - left.length
    .tokens [p.token .number (String.ofList (span.take length))]
      { p with rest := p.rest.drop length }

/-- A symbol of some characters. -/
def symbolToken (p : Position) (text : String) : Step :=
  .tokens [p.token .symbol text] { p with rest := p.rest.drop text.length }

/-- A bracket that closes another. -/
def closingToken (p : Position) (c : Char) : Step :=
  match p.brackets with
  | [] => .stop (p.stop (.unmatched c) p.line)
  | b :: outer =>
    if closing? b.bracket = some c then symbolToken { p with brackets := outer } (String.singleton c)
    else
      let line := if b.line = p.line then none else some b.line
      .stop (⟨.mismatched c b.bracket line, p.line, false, outer.head?⟩)

/-- A single character that is a symbol. -/
def characterToken (p : Position) (c : Char) : Step :=
  if (closing? c).isSome then
    if bracketLimit ≤ p.brackets.length then .stop (p.stop .tooManyBrackets p.line)
    else symbolToken { p with brackets := ⟨c, p.line⟩ :: p.brackets } (String.singleton c)
  else if isClosing c then closingToken p c
  else if Text.isPrintable c then symbolToken p (String.singleton c)
  else .stop (p.stop (.badCharacter c) p.line)

/-- The tokens inside a line. -/
def inLine (p : Position) : Step :=
  match p.rest with
  | [] => if p.brackets.isEmpty then .finish [p.token .finish ""] else .stop p.endOfSource
  | '\n' :: rest =>
    let next := { p with rest, line := p.line + 1, atLineStart := true }
    if p.brackets.isEmpty then .tokens [p.token .newline ""] next else .tokens [] next
  | '#' :: rest => .tokens [] { p with rest := rest.dropWhile (· ≠ '\n') }
  | '\\' :: rest =>
    match continuation { p with rest } with
    | .ok next => .tokens [] next
    | .error reason => .stop reason
  | '.' :: '.' :: '.' :: _ => symbolToken p "..."
  | '.' :: d :: _ =>
    if Decimal.isDigit d then numberToken p NumberToken.readPoint else symbolToken p "."
  | c :: rest =>
    if c = ' ' ∨ c = '\t' ∨ c = '\x0c' then
      .tokens [] { p with rest := rest.dropWhile fun c => c = ' ' ∨ c = '\t' ∨ c = '\x0c' }
    else if Decimal.isDigit c then numberToken p NumberToken.read
    else if NumberToken.isNameLike c then wordToken p
    else if c = '\'' ∨ c = '"' then textToken p [] c rest
    else
      match longSymbols.find? fun symbol => symbol.toList.isPrefixOf p.rest with
      | some symbol => symbolToken p symbol
      | none => characterToken p c

/-! ## The whole source -/

/-- The tokens from a position on, in at most some steps. -/
def tokensFrom (found : Array Token) : (steps : Nat) → Position → Tokens
  | 0, _ => ⟨found, none⟩
  | steps + 1, p =>
    match if p.atLineStart then lineStart p else inLine p with
    | .tokens more next => tokensFrom (found ++ more) steps next
    | .finish more => ⟨found ++ more, none⟩
    | .stop reason => ⟨found, some reason⟩

/-- The tokens of a text that starts on a line. -/
def Tokens.ofLines (line : Nat) (text : List Char) : Tokens :=
  tokensFrom #[] (2 * text.length + 4) ⟨text, line, [], [], true⟩

/-- A text whose last line ends. -/
def endLastLine (text : List Char) : List Char :=
  if text.getLast? = some '\n' then text else text ++ ['\n']

/-- The tokens of a source. -/
def Tokens.ofSource (source : String) : Tokens :=
  .ofLines 1 (endLastLine (Text.unifyNewlines source).toList)

end MethodLint.Source
