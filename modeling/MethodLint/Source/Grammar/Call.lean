import MethodLint.Source.Grammar.Display

/-!
What stands behind an expression: the arguments of a call and the index of a subscript. Positional
arguments come before keywords; unpacked ones may stand among the keywords, but not behind an
unpacked mapping.
-/
namespace MethodLint.Source.Grammar

open Reading

variable (r : Rules)

/-- An argument of a call. -/
inductive Argument
  | positional (value : Syntax)
  | keyword (node : Syntax)
  | unpacking (node : Syntax)

namespace Argument

/-- The node of a positional argument. -/
def positional? : Argument → Option Syntax
  | .positional value => some value
  | _ => none

/-- The node of an argument that is passed by keyword. -/
def keyword? : Argument → Option Syntax
  | .positional _ => none
  | .keyword node | .unpacking node => some node

/-- An unpacked mapping. -/
def isUnpacking : Argument → Bool
  | .unpacking _ => true
  | _ => false

/-- The nodes of arguments: the positional ones, then the others. -/
def nodes (arguments : List Argument) : List Syntax :=
  arguments.filterMap positional? ++ arguments.filterMap keyword?

end Argument

/-- A mistake in the arguments of a call. -/
def argumentBlame (part : Syntax) (mistake : ArgumentMistake) : Reading (Option Objection) :=
  blame part (.argument mistake)

/-- A name that is only read. -/
def loadedName : Reading Syntax := spanned do
  let t ← name
  return fun lines => .name t.text .load lines

/-! ## Keywords -/

/-- Mistakes before an equals sign. -/
def keywordMistakes : Reading Argument := doubt [
  do
    let t ← keywordOf ["True", "False", "None"]
    let _ ← symbol "="
    blameToken t (.cannotAssign t.text),
  do
    let part ← loadedName
    let _ ← symbol "="
    let _ ← r.part .expression
    let _ ← generators r
    argumentBlame part .comparisonMeant,
  do
    notAhead (do
      let _ ← name
      symbol "=")
    let part ← r.part .expression
    let _ ← symbol "="
    argumentBlame part .assignmentToExpression]

/-- A keyword and its value. -/
def keywordArgument : Reading Argument := Argument.keyword <$> spanned do
  let _ ← name
  let _ ← symbol "="
  let value ← r.part .expression
  return fun lines => .plain .keyword lines [value]

/-- A keyword, or an unpacked sequence. -/
def keywordOrStarred : Reading Argument :=
  first [keywordMistakes r, keywordArgument r, Argument.positional <$> starred r]

/-- A keyword, or an unpacked mapping. -/
def keywordOrUnpacking : Reading Argument :=
  first [keywordMistakes r, keywordArgument r, Argument.unpacking <$> spanned do
    let _ ← symbol "**"
    let value ← r.part .expression
    return fun lines => .plain .keyword lines [value]]

/-- Arguments from the first keyword or mapping on. -/
def keywordArguments : Reading (List Argument) := first [
  do
    let head ← separated comma (keywordOrStarred r)
    let _ ← comma
    return head ++ (← separated comma (keywordOrUnpacking r)),
  separated comma (keywordOrStarred r),
  separated comma (keywordOrUnpacking r)]

/-! ## Arguments -/

/-- A positional argument. -/
def positionalArgument : Reading Argument := Argument.positional <$> first [
  starred r,
  do
    let value ← first [assignmentExpression r, unassigned r]
    notAhead (symbol "=")
    return value]

/-- The arguments of a call, of which there is at least one. -/
def argumentList : Reading (List Argument) := first [
  do
    let head ← separated comma (positionalArgument r)
    let rest ← optional do
      let _ ← comma
      keywordArguments r
    return head ++ rest.getD [],
  keywordArguments r]

/-- Mistakes in the arguments of a call. -/
def argumentMistakes : Reading (List Syntax) := doubt [
  do
    let t ← current
    let _ ← argumentList r
    let _ ← comma
    let _ ← symbol "*"
    blameToken t (.argument .starAfterDoubleStar),
  do
    let part ← r.part .expression
    let _ ← generators r
    let _ ← comma
    let _ ← optional (first [discard (argumentList r),
      do
        let _ ← r.part .expression
        discard (generators r)])
    argumentBlame part .bareGenerator,
  do
    let part ← loadedName
    let _ ← symbol "="
    let _ ← r.part .expression
    let _ ← generators r
    argumentBlame part .comparisonMeant,
  do
    let positional := (← argumentList r).filterMap Argument.positional?
    let _ ← generators r
    match positional.reverse with
    | part :: _ :: _ => argumentBlame part .bareGenerator
    | _ => noBlame,
  do
    let _ ← argumentList r
    let _ ← comma
    let part ← r.part .expression
    let _ ← generators r
    argumentBlame part .bareGenerator,
  do
    let found ← argumentList r
    let _ ← comma
    let _ ← argumentList r
    blameHere (.argument
      (if found.any Argument.isUnpacking then .positionalAfterUnpacking else .positionalAfterKeyword))]

/-- The nodes of the arguments of a call, up to the closing parenthesis. -/
def arguments : Reading (List Syntax) := first [
  do
    let found ← argumentList r
    let _ ← optional comma
    ahead (symbol ")")
    return Argument.nodes found,
  argumentMistakes r]

/-- Arguments in parentheses. There may be none. -/
def argumentsInParentheses : Reading (List Syntax) :=
  enclosed "(" ")" (do return (← optional (r.parts .arguments)).getD [])

/-! ## Subscripts -/

/-- A slice, or a single index. -/
def slice : Reading Syntax := first [
  spanned do
    let lower ← optional (r.part .expression)
    let _ ← symbol ":"
    let upper ← optional (r.part .expression)
    let step ← optional do
      let _ ← symbol ":"
      optional (r.part .expression)
    return fun lines => .plain .slice lines
      (lower.toList ++ upper.toList ++ (step.getD none).toList),
  r.part .namedExpression]

/-- The index of a subscript; several of them form a tuple. -/
def slices : Reading Syntax := first [
  do
    let index ← slice r
    notAhead comma
    return index,
  spanned do
    let found ← separated comma (first [slice r, starred r])
    let _ ← optional comma
    return fun lines => .plain .tuple lines (found ++ [loaded])]

/-- An index in brackets. -/
def indexInBrackets : Reading Syntax := enclosed "[" "]" (slices r)

/-! ## Trailers -/

/-- An expression that began on a line and is extended by an attribute, a call or an index. -/
def trailer (start : Nat) (subject : Syntax) : Reading Syntax := first [
  do
    let _ ← symbol "."
    let _ ← name
    return .plain .attribute (← linesFrom start) [subject, loaded],
  do
    let argument ← r.part .generatorExpression
    return .plain .call (← linesFrom start) [subject, argument],
  do
    let found ← argumentsInParentheses r
    return .plain .call (← linesFrom start) (subject :: found),
  do
    let index ← indexInBrackets r
    return .plain .subscript (← linesFrom start) [subject, index, loaded]]

/-- An operand with its trailers. -/
def primary : Reading Syntax := do
  let start ← startLine
  extend (trailer r start) (← r.part .atom)

end MethodLint.Source.Grammar
