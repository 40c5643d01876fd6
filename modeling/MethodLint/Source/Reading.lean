import Std.Data.HashMap
import MethodLint.Source.Syntax
import MethodLint.Source.Token

/-!
Reading a grammar off the tokens of a source. A reading is tried at a position and accepts some
tokens or refuses; where several readings are possible the first that accepts wins. Results of the
rules of the grammar are kept for each position, so that trying again costs nothing.

A source that is refused is read a second time by a doubtful reader, who looks for common mistakes on
the way and objects to the first one found. An objection ends the reading. Readings know how many
tokens were looked at, since the last of them is where an unexplained refusal is blamed on.
-/
namespace MethodLint.Source

/-- An objection: what is wrong and where. It may come from the reader of tokens. -/
structure Objection where
  complaint : Complaint
  line : Nat
  isLexical : Bool
  deriving Repr

/-- The rules that a reading may come back to, each for one part of a source. -/
inductive Rule
  | simpleStatement | conditionalRest
  | expression | plainExpression | namedExpression | mistakenAssignment
  | starExpressions | starExpression | starNamedExpression | bareExpressions
  | disjunction | conjunction | inversion | bitwiseOr | bitwiseXor | bitwiseAnd | shift | sum | term
  | factor | awaitPrimary | primary | atom | texts | generatorExpression
  | starTargets | starTarget | targetWithStarAtom | targetPrimary | singleTarget | deletionTarget
  | pattern | patterns | closedPattern | starPattern
  deriving DecidableEq, Hashable, Repr

/-- The rules for several parts. -/
inductive ListRule
  | block
  | statement
  | arguments
  deriving DecidableEq, Hashable, Repr

/-- Whether the results of a rule are kept. -/
def Rule.isKept : Rule → Bool
  | .conditionalRest | .plainExpression | .namedExpression | .starExpressions | .starNamedExpression
  | .bareExpressions | .atom | .generatorExpression | .starTargets | .singleTarget | .pattern
  | .patterns => false
  | _ => true

/-- Whether the results of a rule for several parts are kept. -/
def ListRule.isKept : ListRule → Bool
  | .statement => false
  | _ => true

/-- What a reading reads, and whether it looks for common mistakes. -/
structure Surroundings where
  tokens : Tokens
  isDoubtful : Bool

/-- How far a reading has come. -/
structure Progress where
  position : Nat
  /-- The number of tokens that were looked at. -/
  reached : Nat
  parts : Std.HashMap (Rule × Nat) (Option (Syntax × Nat))
  lists : Std.HashMap (ListRule × Nat) (Option (List Syntax × Nat))

/-- The outcome of a reading at a position. -/
inductive Reply (α : Type)
  | accepted (value : α) (progress : Progress)
  | refused (progress : Progress)
  | objected (objection : Objection) (reached : Nat)

/-- A way to read something at a position. -/
def Reading (α : Type) := Surroundings → Progress → Reply α

namespace Reading

instance : Monad Reading where
  pure a := fun _ p => .accepted a p
  bind x f := fun s p =>
    match x s p with
    | .accepted a p => f a s p
    | .refused p => .refused p
    | .objected o reached => .objected o reached

/-- Refuses. -/
def refuse {α : Type} : Reading α := fun _ p => .refused p

/-- The first reading, and if it refuses the second one at the same position. -/
def orElse {α : Type} (x : Reading α) (y : Unit → Reading α) : Reading α := fun s p =>
  let start := p.position
  match x s p with
  | .refused p => y () s { p with position := start }
  | reply => reply

instance {α : Type} : OrElse (Reading α) := ⟨orElse⟩

/-- The first of some readings that accepts. -/
def first {α : Type} : List (Reading α) → Reading α
  | [] => refuse
  | [x] => x
  | x :: rest => orElse x fun _ => first rest

/-- A reading whose opening decides: once it is accepted, no other reading is tried. -/
def committed {α β : Type} (opening : Reading α) (rest : α → Reading β) (otherwise : Reading β) :
    Reading β := fun s p =>
  let start := p.position
  match opening s p with
  | .accepted a p => rest a s p
  | .refused p => otherwise s { p with position := start }
  | .objected o reached => .objected o reached

/-- Goes on only if a reading accepts here; nothing is taken. -/
def ahead {α : Type} (x : Reading α) : Reading Unit := fun s p =>
  let start := p.position
  match x s p with
  | .accepted _ p => .accepted () { p with position := start }
  | .refused p => .refused p
  | .objected o reached => .objected o reached

/-- Goes on only if a reading refuses here. -/
def notAhead {α : Type} (x : Reading α) : Reading Unit := fun s p =>
  let start := p.position
  match x s p with
  | .accepted _ p => .refused p
  | .refused p => .accepted () { p with position := start }
  | .objected o reached => .objected o reached

/-- What a reading accepts, if it does. -/
def optional {α : Type} (x : Reading α) : Reading (Option α) :=
  orElse (some <$> x) fun _ => pure none

/-- Extends a value as long as a reading accepts, at most some times. -/
def extendFrom {α : Type} (step : α → Reading α) : (times : Nat) → α → Reading α
  | 0, a => pure a
  | times + 1, a => committed (step a) (extendFrom step times) (pure a)

/-- The number of tokens, and one more. -/
def bound : Reading Nat := fun s p => .accepted (s.tokens.tokens.size + 1) p

/-- Extends a value as long as a reading accepts. -/
def extend {α : Type} (step : α → Reading α) (a : α) : Reading α := do
  extendFrom step (← bound) a

/-- As many of a reading as there are. -/
def many {α : Type} (x : Reading α) : Reading (List α) := do
  return (← extend (fun found => (· :: found) <$> x) []).reverse

/-- At least one of a reading. -/
def several {α : Type} (x : Reading α) : Reading (List α) := do
  let a ← x
  return a :: (← many x)

/-- At least one of a reading, with separators between them. -/
def separated {α β : Type} (separator : Reading β) (x : Reading α) : Reading (List α) := do
  let a ← x
  return a :: (← many (do let _ ← separator; x))

/-! ## Tokens -/

/-- The token at the position. Behind the last one stands the reason why there are no more. -/
def current : Reading Token := fun s p =>
  match s.tokens.tokens[p.position]? with
  | some t => .accepted t { p with reached := max p.reached (p.position + 1) }
  | none =>
    match s.tokens.stop with
    | some stop => .objected ⟨stop.complaint, stop.line, true⟩ p.reached
    | none => .refused p

/-- Takes the token at the position if it satisfies a condition. -/
def token (accepts : Token → Bool) : Reading Token := fun s p =>
  match current s p with
  | .accepted t p =>
    if accepts t then .accepted t { p with position := p.position + 1 } else .refused p
  | reply => reply

/-- A symbol. -/
def symbol (text : String) : Reading Token :=
  token fun t => t.sort == .symbol && t.text == text

/-- A keyword. -/
def keyword (word : String) : Reading Token :=
  token fun t => t.sort == .keyword && t.text == word

/-- A certain word that is a keyword only here. -/
def softKeyword (word : String) : Reading Token :=
  token fun t => t.sort == .name && t.text == word

/-- A token of some sort. -/
def tokenOf (sort : TokenSort) : Reading Token := token fun t => t.sort == sort

/-- A name. -/
def name : Reading Token := tokenOf .name

/-- The end of a logical line. -/
def newline : Reading Token := tokenOf .newline

/-- One of some symbols, and what it stands for. -/
def oneOf {α : Type} (table : List (String × α)) : Reading α := do
  let t ← tokenOf .symbol
  match table.lookup t.text with
  | some a => return a
  | none => refuse

/-- One of some keywords. -/
def keywordOf (words : List String) : Reading Token :=
  token fun t => t.sort == .keyword && words.contains t.text

/-- How many brackets are open after the last token that was taken. -/
def depthBefore : Reading Nat := fun s p =>
  .accepted ((s.tokens.tokens[p.position - 1]?.map Token.depth).getD 0) p

/-! ## Lines -/

/-- The line of the token at the position. -/
def startLine : Reading Nat := Token.first <$> current

/-- The line on which the last token that was taken ends, layout aside. -/
def endLine : Reading Nat := fun s p => .accepted (s.tokens.endLineFrom p.position) p

/-- The lines from one line to where the reading is. -/
def linesFrom (start : Nat) : Reading Lines := do
  return ⟨some start, some ((← endLine) : Nat)⟩

/-- A part of a source with the lines that a reading takes. -/
def spanned {α : Type} (x : Reading (Lines → α)) : Reading α := do
  let start ← startLine
  let build ← x
  return build (← linesFrom start)

/-! ## Objections -/

/-- Objects to a line. -/
def objectAt {α : Type} (line : Nat) (complaint : Complaint) : Reading α := fun _ p =>
  .objected ⟨complaint, line, false⟩ p.reached

/-- The line of the last token that was looked at. -/
def lastLine : Reading Nat := fun s p => .accepted (s.tokens.lineAt (p.reached - 1)) p

/-- A symbol that must follow. -/
def demanded (text : String) : Reading Token := do
  let t ← current
  if t.sort == .symbol && t.text == text then symbol text
  else objectAt t.first (.expected text)

/-- The line on which a part of a source begins. -/
def lineOf (part : Syntax) : Nat := (part.lines.first.getD 1).toNat

/-- Something is wrong with a part of a source. -/
def blame (part : Syntax) (complaint : Complaint) : Reading (Option Objection) :=
  return some ⟨complaint, lineOf part, false⟩

/-- Something is wrong with a token. -/
def blameToken (t : Token) (complaint : Complaint) : Reading (Option Objection) :=
  return some ⟨complaint, t.first, false⟩

/-- Something is wrong where the reading got to. -/
def blameHere (complaint : Complaint) : Reading (Option Objection) := do
  return some ⟨complaint, ← lastLine, false⟩

/-- Nothing is wrong after all. -/
def noBlame : Reading (Option Objection) := return none

/-- Looks for mistakes: the first way to go wrong that is accepted decides whether there is one. If
there is none the reading is refused. -/
def mistakes {α : Type} (ways : List (Reading (Option Objection))) : Reading α := do
  match ← first ways with
  | some o => objectAt o.line o.complaint
  | none => refuse

/-- Looks for mistakes if the reader is doubtful. -/
def doubt {α : Type} (ways : List (Reading (Option Objection))) : Reading α := fun s p =>
  if s.isDoubtful then mistakes ways s p else .refused p

/-- Reads without doubts. -/
def trusting {α : Type} (x : Reading α) : Reading α := fun s p => x { s with isDoubtful := false } p

/-! ## Kept results -/

/-- A rule whose results are kept. -/
def keep (rule : Rule) (x : Reading Syntax) : Reading Syntax := fun s p =>
  let start := p.position
  match p.parts[(rule, start)]? with
  | some (some (a, position)) => .accepted a { p with position }
  | some none => .refused p
  | none =>
    match x s p with
    | .accepted a p =>
      .accepted a { p with parts := p.parts.insert (rule, start) (some (a, p.position)) }
    | .refused p => .refused { p with parts := p.parts.insert (rule, start) none }
    | .objected o reached => .objected o reached

/-- A rule for several parts whose results are kept. -/
def keepList (rule : ListRule) (x : Reading (List Syntax)) : Reading (List Syntax) := fun s p =>
  let start := p.position
  match p.lists[(rule, start)]? with
  | some (some (a, position)) => .accepted a { p with position }
  | some none => .refused p
  | none =>
    match x s p with
    | .accepted a p =>
      .accepted a { p with lists := p.lists.insert (rule, start) (some (a, p.position)) }
    | .refused p => .refused { p with lists := p.lists.insert (rule, start) none }
    | .objected o reached => .objected o reached

end Reading

/-- The rules as readings. Each part of the grammar is given them to come back to. -/
structure Rules where
  part : Rule → Reading Syntax
  parts : ListRule → Reading (List Syntax)

/-! ## Reading twice -/

/-- What a reader of tokens found wrong further on goes before an objection of the grammar. A bracket
that is left open at a stop goes before an objection to a line behind it. -/
def overrule (tokens : Tokens) (reached : Nat) (o : Objection) : Objection :=
  match tokens.stop with
  | some stop =>
    if o.isLexical then o
    else if !stop.isMild then ⟨stop.complaint, stop.line, true⟩
    else match stop.innermost with
      | some b =>
        if b.line < tokens.lineAt (reached - 1) then ⟨.neverClosed b.bracket, b.line, false⟩ else o
      | none => o
  | none => o

/-- The objection to a source that no reading accepts and in which no mistake is recognised. It
blames the last token that the first reading looked at. -/
def unexplained (tokens : Tokens) (firstReached reached : Nat) : Objection :=
  let line := tokens.lineAt (reached - 1)
  match tokens.tokens[firstReached - 1]?.map Token.sort with
  | some .indent => ⟨.unexpectedIndent, line, false⟩
  | some .dedent => ⟨.unexpectedUnindent, line, false⟩
  | _ => overrule tokens reached ⟨.invalidSyntax, tokens.lineAt (firstReached - 1), false⟩

/-- Reads tokens, a second time and in doubt if the first reading is refused. -/
def readTwice {α : Type} (tokens : Tokens) (x : Reading α) : Except Objection α :=
  match x ⟨tokens, false⟩ ⟨0, 0, {}, {}⟩ with
  | .accepted a _ => .ok a
  | .objected o reached => .error (overrule tokens reached o)
  | .refused p =>
    let firstReached := p.reached
    match x ⟨tokens, true⟩ ⟨0, firstReached, {}, {}⟩ with
    | .objected o reached => .error (overrule tokens reached o)
    | .accepted _ p | .refused p => .error (unexplained tokens firstReached p.reached)

end MethodLint.Source
