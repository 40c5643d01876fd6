import MethodLint.Source.Lexer
import MethodLint.Source.Reading

/-!
Texts in a source. Adjacent texts form one. If any of them is interpolated, the whole is a join of
plain pieces and replacement fields; a field holds an expression, and its layout may hold fields
again, but not deeper. An expression ends at the first of certain characters outside of brackets and
quotes, and is read on its own, as if in parentheses.
-/
namespace MethodLint.Source

/-- A text between quotes: its letters, what is between the quotes, and its first line. -/
structure TextPiece where
  isBytes : Bool
  isRaw : Bool
  isInterpolated : Bool
  body : List Char
  line : Nat

/-- A text token taken apart. -/
def TextPiece.ofToken (t : Token) : TextPiece :=
  let cs := t.text.toList
  let letters := (cs.takeWhile fun c => c ≠ '\'' ∧ c ≠ '"').map Char.toLower
  let quoted := cs.drop letters.length
  let quotes := match quoted with
    | a :: b :: c :: _ => if a = b ∧ b = c then 3 else 1
    | _ => 1
  let body := (quoted.drop quotes).take (quoted.length - 2 * quotes)
  ⟨letters.contains 'b', letters.contains 'r', letters.contains 'f', body, t.first⟩

/-- How an expression inside an interpolated text is read; it is given with its line. -/
abbrev ReadInside := (line : Nat) → List Char → Except Objection Syntax

/-- What surrounds the fields of a text: the lines of the whole, the line that mistakes are blamed
on, and how expressions are read. -/
structure Interpolation where
  lines : Lines
  blamed : Nat
  inside : ReadInside

/-- Where the reader of an interpolated text stands. -/
structure FieldCursor where
  rest : List Char
  line : Nat

/-- What was read of an interpolated text: its pieces backwards, and whether plain characters wait to
become one. -/
structure Pieces where
  done : List Syntax
  isWaiting : Bool

/-- A plain piece. -/
def Interpolation.plain (i : Interpolation) : Syntax := .plain .constant i.lines []

/-- The pieces with the waiting characters put among them. -/
def Pieces.flush (pieces : Pieces) (i : Interpolation) : Pieces :=
  if pieces.isWaiting then ⟨i.plain :: pieces.done, false⟩ else pieces

/-- The pieces as a join. -/
def Pieces.join (pieces : Pieces) (i : Interpolation) : Syntax :=
  .plain .joinedText i.lines (pieces.flush i).done.reverse

/-- A mistake in an interpolated text. -/
def Interpolation.mistake {α : Type} (i : Interpolation) (m : InterpolationMistake) :
    Except Objection α := .error ⟨.interpolation m, i.blamed, false⟩

/-- The line after a character. -/
def lineAfter (line : Nat) (c : Char) : Nat := if c = '\n' then line + 1 else line

/-! ## Expressions -/

/-- What a character inside an expression is part of: a text, or brackets. -/
structure Nesting where
  quote? : Option (Char × Bool)
  brackets : List Char

/-- The characters that may end an expression outside of brackets. -/
def endsExpression (c : Char) : Bool :=
  c = '!' || c = ':' || c = '}' || c = '=' || c = '<' || c = '>'

/-- The characters that form a comparison with an equals sign behind them. -/
def opensComparison (c : Char) : Bool := c = '!' || c = '=' || c = '<' || c = '>'

/-- Three quotes stand at the beginning. -/
def isTriple (quote : Char) (cs : List Char) : Bool := [quote, quote, quote].isPrefixOf cs

/-- What the next character of an expression does: how many characters it takes with it, and the
nesting behind them. Nothing is answered where the expression ends. -/
def expressionStep (nesting : Nesting) (c : Char) (rest : List Char) :
    Except InterpolationMistake (Option (Nat × Nesting)) :=
  if c = '\\' then .error .backslash
  else match nesting.quote? with
    | some (quote, triple) =>
      let count := if triple then 3 else 1
      let ends := if triple then isTriple quote (c :: rest) else c = quote
      .ok (some (if ends then (count, { nesting with quote? := none }) else (1, nesting)))
    | none =>
      if c = '\'' ∨ c = '"' then
        let triple := isTriple c (c :: rest)
        .ok (some (if triple then 3 else 1, { nesting with quote? := some (c, triple) }))
      else if (closing? c).isSome then
        if bracketLimit ≤ nesting.brackets.length then .error .tooManyBrackets
        else .ok (some (1, { nesting with brackets := c :: nesting.brackets }))
      else if c = '#' then .error .comment
      else if nesting.brackets.isEmpty ∧ endsExpression c then
        if opensComparison c ∧ rest.head? = some '=' then .ok (some (2, nesting))
        else if c = '<' ∨ c = '>' then .ok (some (1, nesting))
        else .ok none
      else if isClosing c then
        match nesting.brackets with
        | [] => .error (.unmatched c)
        | b :: outer =>
          if closing? b = some c then .ok (some (1, { nesting with brackets := outer }))
          else .error (.mismatched c b)
      else .ok (some (1, nesting))

/-- The characters of an expression, of at most some steps, and what follows them. -/
def expressionFrom : (steps : Nat) → Nesting → (taken : List Char) → List Char →
    Except InterpolationMistake (List Char × List Char)
  | 0, _, taken, rest => .ok (taken.reverse, rest)
  | steps + 1, nesting, taken, c :: rest =>
    match expressionStep nesting c rest with
    | .error m => .error m
    | .ok none => .ok (taken.reverse, c :: rest)
    | .ok (some (count, nesting)) =>
      expressionFrom steps nesting (((c :: rest).take count).reverse ++ taken) ((c :: rest).drop count)
  | _, nesting, _, [] =>
    match nesting.quote?, nesting.brackets with
    | some _, _ => .error .unterminated
    | none, b :: _ => .error (.unmatched b)
    | none, [] => .error .closeExpected

/-- An expression without any characters but spaces. -/
def isVoid (expression : List Char) : Bool :=
  expression.all fun c => c = ' ' || c = '\t' || c = '\n' || c = '\x0c' || c = '\r' || c = '\x0b'

/-- Takes a conversion, if one follows. -/
def conversion (i : Interpolation) (cs : List Char) : Except Objection (List Char) :=
  match cs with
  | ['!'] => i.mistake .closeExpected
  | '!' :: c :: rest =>
    if c ≠ 's' ∧ c ≠ 'r' ∧ c ≠ 'a' then i.mistake .badConversion
    else if rest.isEmpty then i.mistake .closeExpected
    else .ok rest
  | cs => .ok cs

/-! ## Plain characters -/

/-- Plain characters, given backwards, in which no escape may be wrong. -/
def checkEscapes (isRaw : Bool) (characters : List Char) : Except InterpolationMistake Unit :=
  match escapeMistake? characters.reverse with
  | some mistake => if isRaw then .ok () else .error (.escape mistake)
  | none => .ok ()

/-- Plain characters up to a field, to the end of the layout of a field (`inLayout`), or to the end;
whether there were any; and whether more of them follow a doubled brace. The characters since the
last doubled brace are kept backwards. -/
def plainFrom (isRaw inLayout : Bool) (since : List Char) (found : Bool) (line : Nat) :
    List Char → Except InterpolationMistake (Bool × FieldCursor)
  | [] => do
    checkEscapes isRaw since
    return (found, ⟨[], line⟩)
  | '\\' :: 'N' :: '{' :: rest =>
    if isRaw then plainFrom isRaw inLayout ('\\' :: since) true line ('N' :: '{' :: rest)
    else
      let count := (rest.takeWhile (· ≠ '}')).length + 1
      let since := (rest.take count).reverse ++ '{' :: 'N' :: '\\' :: since
      plainFrom isRaw inLayout since true line (rest.drop count)
  | '\\' :: c :: rest =>
    if isRaw ∨ c = '{' ∨ c = '}' then
      plainFrom isRaw inLayout ('\\' :: since) true line (c :: rest)
    else plainFrom isRaw inLayout (c :: '\\' :: since) (found || c ≠ '\n') (lineAfter line c) rest
  | c :: rest =>
    if c ≠ '{' ∧ c ≠ '}' then
      plainFrom isRaw inLayout (c :: since) true (lineAfter line c) rest
    else if !inLayout ∧ rest.head? = some c then do
      checkEscapes isRaw (c :: since)
      plainFrom isRaw inLayout [] true line rest.tail
    else if !inLayout ∧ c = '}' then .error .singleClose
    else do
      checkEscapes isRaw since
      return (found, ⟨c :: rest, line⟩)
termination_by cs => cs.length
decreasing_by all_goals simp_wf; try omega

/-! ## Fields -/

mutual

/-- The pieces of an interpolated text from a position on, up to its end or, in a layout, to the
brace that ends it. Fields may be nested `levels` deep. -/
def piecesFrom (i : Interpolation) (isRaw inLayout : Bool) :
    (levels steps : Nat) → Pieces → FieldCursor → Except Objection (Pieces × FieldCursor)
  | _, 0, pieces, cur => .ok (pieces, cur)
  | levels, steps + 1, pieces, cur =>
    match plainFrom isRaw inLayout [] false cur.line cur.rest with
    | .error m => i.mistake m
    | .ok (found, cur) =>
      let pieces := { pieces with isWaiting := pieces.isWaiting || found }
      match cur.rest with
      | '{' :: rest => do
        let (spelled, field, cur) ← fieldFrom i isRaw levels steps ⟨rest, cur.line⟩
        let pieces := { pieces with isWaiting := pieces.isWaiting || spelled }
        let pieces := pieces.flush i
        piecesFrom i isRaw inLayout levels steps { pieces with done := field :: pieces.done } cur
      | _ => .ok (pieces, cur)
termination_by levels steps => (levels, steps, 0)

/-- A replacement field behind its opening brace, and whether its own text stands before it. -/
def fieldFrom (i : Interpolation) (isRaw : Bool) :
    (levels steps : Nat) → FieldCursor → Except Objection (Bool × Syntax × FieldCursor)
  | 0, _, _ => i.mistake .tooDeep
  | levels + 1, _, cur => do
    match expressionFrom (cur.rest.length + 1) ⟨none, []⟩ [] cur.rest with
    | .error m => i.mistake m
    | .ok (expression, after) =>
      if isVoid expression then i.mistake .empty
      let value ← i.inside cur.line expression
      let line := expression.foldl lineAfter cur.line
      let (spelled, after) := match after with
        | '=' :: rest => (true, rest.dropWhile fun c => c = ' ' || (9 ≤ c.toNat && c.toNat ≤ 13))
        | after => (false, after)
      if after.isEmpty then i.mistake .closeExpected
      let after ← conversion i after
      match after with
      | ':' :: rest =>
        if rest.isEmpty then i.mistake .closeExpected
        let (layout, cur) ← piecesFrom i isRaw true levels (rest.length + 1) ⟨[], false⟩ ⟨rest, line⟩
        match cur.rest with
        | '}' :: rest =>
          return (spelled, .plain .formattedValue i.lines [value, layout.join i], ⟨rest, cur.line⟩)
        | _ => i.mistake .closeExpected
      | '}' :: rest => return (spelled, .plain .formattedValue i.lines [value], ⟨rest, line⟩)
      | _ => i.mistake .closeExpected
termination_by levels steps => (levels, steps, 1)

end

/-! ## Whole texts -/

/-- Whether a text without fields has any characters; a backslash joins it with the next line. -/
def hasCharacters (isRaw : Bool) : List Char → Bool
  | '\\' :: '\n' :: rest => isRaw || hasCharacters isRaw rest
  | [] => false
  | _ :: _ => true

/-- What is wrong with a text by itself, or with its standing beside bytes or beside none. -/
def TextPiece.mistake? (besideBytes : Bool) (t : TextPiece) : Option Complaint :=
  if t.isBytes ∧ !t.body.all isAscii then some .bytesBeyondAscii
  else
    let escape? :=
      if t.isRaw ∨ t.isInterpolated then none
      else if t.isBytes then byteMistake? t.body
      else escapeMistake? t.body
    match escape? with
    | some mistake => some (.escape mistake)
    | none => if t.isBytes = besideBytes then none else some .mixedTexts

/-- The pieces of a text after those before it. -/
def addText (i : Interpolation) (besideBytes : Bool) (pieces : Pieces) (t : TextPiece) :
    Except Objection Pieces := do
  if let some complaint := t.mistake? besideBytes then throw ⟨complaint, i.blamed, false⟩
  if t.isInterpolated then
    let (pieces, cur) ←
      piecesFrom i t.isRaw false 2 (t.body.length + 1) pieces ⟨t.body, t.line⟩
    if cur.rest.isEmpty then return pieces else i.mistake .closeExpected
  else return { pieces with isWaiting := pieces.isWaiting || hasCharacters t.isRaw t.body }

/-- Adjacent texts as one. -/
def joinTexts (i : Interpolation) (texts : List TextPiece) : Except Objection Syntax := do
  let besideBytes := (texts.head?.map TextPiece.isBytes).getD false
  let pieces ← texts.foldlM (addText i besideBytes) ⟨[], false⟩
  if texts.any TextPiece.isInterpolated then return pieces.join i else return i.plain

end MethodLint.Source
