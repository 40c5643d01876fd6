import MethodLint.Source.Grammar.Call
import MethodLint.Source.Grammar.Parameter
import MethodLint.Source.Interpolation

/-!
Expressions, from the loosest form to the tightest: a choice between two values or a lambda, `or`,
`and`, `not`, comparisons, the binary operators in their order of binding, and operands with their
trailers.
-/
namespace MethodLint.Source.Grammar

open Reading

variable (r : Rules)

/-! ## Operands -/

/-- A constant that is a word or a symbol. -/
def constantWord (word : Reading Token) (form : Form) : Reading Syntax := spanned do
  let _ ← word
  return fun lines => .plain form lines []

/-- A decimal numeral that is too long to be a number. -/
def longNumeral? (text : String) : Option Nat :=
  let digits := text.toList.filter (· ≠ '_')
  if digits.all Decimal.isDigit ∧ numeralLimit < digits.length then some digits.length else none

/-- A number. -/
def number : Reading Syntax := spanned do
  let t ← tokenOf .number
  match longNumeral? t.text with
  | some digits => objectAt t.first (.longNumeral digits)
  | none => return fun lines => .plain .constant lines []

/-- Reads the expression in a replacement field on its own, as if in parentheses. -/
def readInside : ReadInside := fun line expression =>
  let tokens := Tokens.ofLines line (endLastLine ('(' :: expression ++ [')']))
  match readTwice tokens (r.part .starExpressions) with
  | .ok value => .ok value
  | .error o =>
    let isRaw := o.isLexical && (tokens.stop.map fun stop => !stop.isMild).getD false
    .error { o with
      complaint := if isRaw then o.complaint else .interpolated o.complaint.message
      isLexical := false }

/-- Adjacent texts, which form one. -/
def texts : Reading Syntax := do
  let start ← startLine
  let found ← several (tokenOf .text)
  let pieces := found.map TextPiece.ofToken
  let line ← lastLine
  match joinTexts ⟨← linesFrom start, line, readInside r⟩ pieces with
  | .ok part => return part
  | .error o => objectAt o.line o.complaint

/-- An operand. -/
def atom : Reading Syntax := do
  let t ← current
  match t.sort with
  | .name => loadedName
  | .number => number
  | .text => r.part .texts
  | .keyword => first [
      constantWord (keyword "True") .trueConstant,
      constantWord (keyword "False") .falseConstant,
      constantWord (keyword "None") .noneConstant]
  | .symbol =>
    if t.text = "(" then first [tupleDisplay r, group r, r.part .generatorExpression]
    else if t.text = "[" then
      first [listDisplay r, comprehension r .list "[" "]" (r.part .namedExpression)]
    else if t.text = "\x7b" then
      first [dictionaryDisplay r, setDisplay r, dictionaryComprehension r,
        comprehension r .set "\x7b" "\x7d" (r.part .namedExpression)]
    else constantWord (symbol "...") .ellipsisConstant
  | _ => refuse

/-- An operand with its trailers, which may be waited for. -/
def awaitPrimary : Reading Syntax := first [
  spanned do
    let _ ← keyword "await"
    let value ← r.part .primary
    return fun lines => .plain .awaiting lines [value],
  r.part .primary]

/-- A power, whose exponent may have a sign. -/
def power : Reading Syntax := do
  let start ← startLine
  let base ← r.part .awaitPrimary
  match ← optional (do let _ ← symbol "**"; r.part .factor) with
  | none => return base
  | some exponent =>
    return .plain .binaryOperation (← linesFrom start) [base, .leaf .power, exponent]

/-- An operand with a sign. -/
def factor : Reading Syntax := first [
  spanned do
    let sign ← oneOf [("+", Form.plus), ("-", .minus), ("~", .invert)]
    let operand ← r.part .factor
    return fun lines => .plain .unaryOperation lines [.leaf sign, operand],
  power r]

/-! ## Operators -/

/-- Operands joined by operators that bind to the left. -/
def leftward (operand : Rule) (operators : List (String × Form)) : Reading Syntax := do
  let start ← startLine
  extend (fun left => do
    let operator ← oneOf operators
    let right ← r.part operand
    return .plain .binaryOperation (← linesFrom start) [left, .leaf operator, right])
    (← r.part operand)

/-- An operator of a comparison. -/
def comparisonOperator : Reading Form := first [
  oneOf [("==", .equal), ("!=", .notEqual), ("<=", .lessEqual), ("<", .less), (">=", .greaterEqual),
    (">", .greater)],
  do
    let _ ← keyword "not"
    let _ ← keyword "in"
    return .notMember,
  do
    let _ ← keyword "in"
    return .member]

/-- An operator of a comparison and what is on its right. -/
def comparisonRest : Reading (Form × Syntax) := first [
  do
    let operator ← comparisonOperator
    return (operator, ← r.part .bitwiseOr),
  do
    let _ ← keyword "is"
    let _ ← keyword "not"
    return (.notSame, ← r.part .bitwiseOr),
  do
    let _ ← keyword "is"
    return (.same, ← r.part .bitwiseOr)]

/-- A chain of comparisons. -/
def comparison : Reading Syntax := do
  let start ← startLine
  let left ← r.part .bitwiseOr
  match ← many (comparisonRest r) with
  | [] => return left
  | rest =>
    return .plain .comparison (← linesFrom start)
      (left :: rest.map (fun c => .leaf c.1) ++ rest.map Prod.snd)

/-- A negation. -/
def inversion : Reading Syntax := first [
  spanned do
    let _ ← keyword "not"
    let operand ← r.part .inversion
    return fun lines => .plain .unaryOperation lines [.leaf .not, operand],
  comparison r]

/-- Operands joined by `and` or `or`. -/
def junction (operand : Rule) (word : String) (form : Form) : Reading Syntax := do
  let start ← startLine
  let head ← r.part operand
  match ← many (do let _ ← keyword word; r.part operand) with
  | [] => return head
  | rest =>
    return .plain .booleanOperation (← linesFrom start) (.leaf form :: head :: rest)

/-! ## Whole expressions -/

/-- A choice between two values. -/
def choice : Reading Syntax := spanned do
  let chosen ← r.part .disjunction
  let _ ← keyword "if"
  let test ← r.part .disjunction
  let _ ← keyword "else"
  let otherwise ← r.part .expression
  return fun lines => .plain .choice lines [test, chosen, otherwise]

/-- A function without a name. -/
def lambda : Reading Syntax := spanned do
  let _ ← keyword "lambda"
  let found ← parameters r .lambda
  let _ ← symbol ":"
  let body ← r.part .expression
  return fun lines => .plain .lambda lines [found.node, body]

/-- An expression of the three forms. -/
def plainExpression : Reading Syntax := first [choice r, r.part .disjunction, lambda r]

/-- A name of a statement that became a function. -/
def isFormerStatement : Syntax → Bool
  | .name id _ _ => id = "print" || id = "exec"
  | _ => false

/-- A word that is a keyword only here and there. -/
def softWord : Reading Token := token fun t => t.sort == .name && softWords.contains t.text

/-- Mistakes in an expression: two of them without a comma, or half a choice. -/
def expressionMistakes : Reading Syntax := doubt [
  do
    notAhead (first [do let _ ← name; tokenOf .text, softWord])
    let part ← r.part .disjunction
    let _ ← trusting (r.part .plainExpression)
    if isFormerStatement part ∨ (← depthBefore) = 0 then noBlame else blame part .commaMissing,
  do
    let part ← r.part .disjunction
    let _ ← keyword "if"
    let _ ← r.part .disjunction
    notAhead (first [keyword "else", symbol ":"])
    blame part .elseMissing]

/-- A statement that became a function, without parentheses. -/
def formerStatement : Reading Syntax := doubt [do
  let t ← name
  notAhead (symbol "(")
  let _ ← r.part .starExpressions
  if t.text = "print" ∨ t.text = "exec" then blameToken t (.parenthesesMissing t.text) else noBlame]

/-- An expression. -/
def expression : Reading Syntax :=
  first [expressionMistakes r, formerStatement r, plainExpression r]

/-- What is assigned to inside an expression cannot be, or a comparison was meant. -/
def mistakenAssignment : Reading Syntax := mistakes [
  do
    let part ← r.part .expression
    let _ ← symbol ":="
    let _ ← r.part .expression
    blame part (.cannotAssignWalrus part.description),
  do
    let part ← loadedName
    let _ ← symbol "="
    let _ ← r.part .bitwiseOr
    notAhead (first [symbol "=", symbol ":="])
    blame part .comparisonMeant,
  do
    notAhead (first [discard (listDisplay r), discard (tupleDisplay r),
      discard (r.part .generatorExpression), discard (keywordOf ["True", "None", "False"])])
    let part ← r.part .bitwiseOr
    let _ ← symbol "="
    let _ ← r.part .bitwiseOr
    notAhead (first [symbol "=", symbol ":="])
    blame part (.cannotAssignHere part.description)]

/-- An expression that may assign to a name. -/
def namedExpression : Reading Syntax := first [
  assignmentExpression r,
  fun s p => if s.isDoubtful then r.part .mistakenAssignment s p else .refused p,
  unassigned r]

/-! ## Several expressions -/

/-- Expressions with commas between them form a tuple. -/
def tupleOf (element : Rule) : Reading Syntax := do
  let start ← startLine
  let head ← r.part element
  let rest ← many (do let _ ← comma; r.part element)
  match rest, ← optional comma with
  | [], none => return head
  | rest, _ => return .plain .tuple (← linesFrom start) (head :: rest ++ [loaded])

/-- An expression, which may be unpacked. -/
def starExpression : Reading Syntax := first [starredOperand r, r.part .expression]

/-- An expression, which may be unpacked or assigned to a name. -/
def starNamedExpression : Reading Syntax := first [starredOperand r, r.part .namedExpression]

end MethodLint.Source.Grammar
