import MethodLint.Source.Complaint

/-!
The tokens of a source. Besides names, numbers, texts and symbols there are tokens for the layout: the
end of a logical line, the opening and the closing of an indented block, and the end of the source.
The tokens of a source may stop early; then they carry the reason, which concerns whoever asks for
the token after the last.
-/
namespace MethodLint.Source

/-- What a token is to the grammar. -/
inductive TokenSort
  | name
  | keyword
  | number
  | text
  | symbol
  | newline
  | indent
  | dedent
  | finish
  deriving DecidableEq, Repr, Inhabited

/-- Whether a token only lays out the source. -/
def TokenSort.isLayout : TokenSort → Bool
  | .newline | .indent | .dedent | .finish => true
  | _ => false

/-- A token: its text, the lines it begins and ends on, and how many brackets are open after it. -/
structure Token where
  sort : TokenSort
  text : String
  first : Nat
  last : Nat
  depth : Nat
  deriving Repr, Inhabited

/-- A bracket that is open, and its line. -/
structure OpenBracket where
  bracket : Char
  line : Nat
  deriving DecidableEq, Repr, Inhabited

/-- Why the tokens of a source stop early. Most causes also hide every other complaint about the
source; those that do not (`isMild`) matter only to a reader that gets so far. -/
structure Stop where
  complaint : Complaint
  line : Nat
  isMild : Bool
  innermost : Option OpenBracket
  deriving Repr

/-- The tokens of a source. -/
structure Tokens where
  tokens : Array Token
  stop : Option Stop
  deriving Inhabited

/-- The words that cannot be names. -/
def reservedWords : List String :=
  ["False", "None", "True", "and", "as", "assert", "async", "await", "break", "class", "continue",
    "def", "del", "elif", "else", "except", "finally", "for", "from", "global", "if", "import", "in",
    "is", "lambda", "nonlocal", "not", "or", "pass", "raise", "return", "try", "while", "with", "yield"]

/-- The words that are keywords only where a match statement can stand. -/
def softWords : List String := ["_", "case", "match"]

/-- The symbols of three and of two characters. -/
def longSymbols : List String :=
  ["**=", "//=", "<<=", ">>=", "!=", "%=", "&=", "**", "*=", "+=", "-=", "->", "//", "/=", ":=", "<<",
    "<=", "<>", "==", ">=", ">>", "@=", "^=", "|="]

/-- The bracket that closes what a bracket opens. -/
def closing? : Char → Option Char
  | '(' => some ')'
  | '[' => some ']'
  | '{' => some '}'
  | _ => none

/-- A bracket that closes something. -/
def isClosing (c : Char) : Bool := c = ')' || c = ']' || c = '}'

namespace Tokens

/-- The line on which the last token before an index ends, layout aside. -/
def endLineFrom (ts : Tokens) : Nat → Nat
  | 0 => 1
  | i + 1 =>
    match ts.tokens[i]? with
    | some t => if t.sort.isLayout then ts.endLineFrom i else t.last
    | none => ts.endLineFrom i

/-- The line of a token, or of the stop after the last. -/
def lineAt (ts : Tokens) (i : Nat) : Nat :=
  match ts.tokens[i]? with
  | some t => t.first
  | none => (ts.stop.map Stop.line).getD 1

end Tokens

end MethodLint.Source
