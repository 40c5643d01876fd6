import MethodLint.Source.Grammar.Expression

/-!
Patterns of match statements: literals, captures, dotted values, sequences, mappings and classes, and
alternatives of such that may be captured as a whole. A name that is captured is not a node.
-/
namespace MethodLint.Source.Grammar

open Reading

variable (r : Rules)

/-! ## Literals -/

/-- A number, which may have a minus sign. -/
def signedNumber : Reading Syntax := first [
  number,
  spanned do
    let _ ← symbol "-"
    let operand ← number
    return fun lines => .plain .unaryOperation lines [.leaf .minus, operand]]

/-- A number that must be imaginary or must not. -/
def numberOf (imaginary : Bool) : Reading Syntax := do
  let t ← current
  let value ← number
  if (t.text.endsWith "j" || t.text.endsWith "J") = imaginary then return value
  else objectAt t.first (if imaginary then .imaginaryRequired else .realRequired)

/-- A sum or difference of a real and an imaginary number. -/
def complexNumber : Reading Syntax := spanned do
  let real ← first [
    numberOf false,
    spanned do
      let _ ← symbol "-"
      let operand ← numberOf false
      return fun lines => .plain .unaryOperation lines [.leaf .minus, operand]]
  let operator ← oneOf [("+", Form.add), ("-", .subtract)]
  let imaginary ← numberOf true
  return fun lines => .plain .binaryOperation lines [real, .leaf operator, imaginary]

/-- A number that no sum follows, a complex number, or a text. -/
def literal : Reading Syntax := first [
  do
    let value ← signedNumber
    notAhead (first [symbol "+", symbol "-"])
    return value,
  complexNumber,
  r.part .texts]

/-- One of the constants that are words. -/
def wordLiteral : Reading Syntax := first [
  constantWord (keyword "None") .noneConstant,
  constantWord (keyword "True") .trueConstant,
  constantWord (keyword "False") .falseConstant]

/-- A literal as a pattern. -/
def literalPattern : Reading Syntax := first [
  spanned do
    let value ← literal r
    return fun lines => .plain .valuePattern lines [value],
  spanned do
    let _ ← keywordOf ["None", "True", "False"]
    return fun lines => .plain .singletonPattern lines []]

/-! ## Names -/

/-- What makes a name more than a name. -/
def continuesName : Reading Token := first [symbol ".", symbol "(", symbol "="]

/-- A name that is captured. -/
def captureTarget : Reading Token := do
  notAhead (softKeyword "_")
  let t ← name
  notAhead continuesName
  return t

/-- A name and the attributes behind it. -/
def dottedValue : Reading Syntax := do
  let start ← startLine
  extend (fun subject => do
    let _ ← symbol "."
    let _ ← name
    return .plain .attribute (← linesFrom start) [subject, loaded]) (← loadedName)

/-- A name with at least one attribute behind it. -/
def attributeValue : Reading Syntax := do
  match ← dottedValue with
  | .plain .attribute lines parts => return .plain .attribute lines parts
  | _ => refuse

/-- A pattern that captures what it matches, or matches anything. -/
def capturePattern : Reading Syntax := spanned do
  let _ ← first [captureTarget, softKeyword "_"]
  return fun lines => .plain .capturePattern lines []

/-- A dotted value as a pattern. -/
def valuePattern : Reading Syntax := spanned do
  let value ← attributeValue
  notAhead continuesName
  return fun lines => .plain .valuePattern lines [value]

/-! ## Sequences -/

/-- A pattern with a star, which captures the rest of a sequence. -/
def starPattern : Reading Syntax := spanned do
  let _ ← symbol "*"
  let _ ← first [captureTarget, softKeyword "_"]
  return fun lines => .plain .starPattern lines []

/-- An element of a sequence. -/
def elementPattern : Reading Syntax := first [r.part .starPattern, r.part .pattern]

/-- The elements of a sequence. -/
def elementPatterns : Reading (List Syntax) := do
  let found ← separated comma (elementPattern r)
  let _ ← optional comma
  return found

/-- The elements of a sequence without brackets; one element needs a comma. -/
def openElements : Reading (List Syntax) := do
  let head ← elementPattern r
  let _ ← comma
  return head :: (← optional (elementPatterns r)).getD []

/-- A sequence in brackets. -/
def sequencePattern : Reading Syntax := spanned do
  let found ← first [
    enclosed "[" "]" (optional (elementPatterns r)),
    enclosed "(" ")" (optional (openElements r))]
  return fun lines => .plain .sequencePattern lines (found.getD [])

/-! ## Mappings and classes -/

/-- An entry of a mapping: a key and a pattern. -/
def entryPattern : Reading (Syntax × Syntax) := do
  let key ← first [literal r, wordLiteral, attributeValue]
  let _ ← symbol ":"
  return (key, ← r.part .pattern)

/-- What captures the rest of a mapping. -/
def restPattern : Reading Unit := do
  let _ ← symbol "**"
  let _ ← captureTarget

/-- The entries of a mapping: all keys, then all patterns. -/
def mappingPattern : Reading Syntax := spanned do
  let entries (found : List (Syntax × Syntax)) (lines : Lines) : Syntax :=
    .plain .mappingPattern lines (found.map Prod.fst ++ found.map Prod.snd)
  let ending : Reading Unit := do
    let _ ← optional comma
    let _ ← symbol "\x7d"
  let opening : Reading Unit := do let _ ← symbol "\x7b"
  first [
    do
      opening
      let _ ← symbol "\x7d"
      return entries [],
    do
      opening
      restPattern
      ending
      return entries [],
    do
      opening
      let found ← separated comma (entryPattern r)
      let _ ← comma
      restPattern
      ending
      return entries found,
    do
      opening
      let found ← separated comma (entryPattern r)
      ending
      return entries found]

/-- Patterns for attributes by position. -/
def positionalPatterns : Reading (List Syntax) := separated comma (r.part .pattern)

/-- Patterns for named attributes. -/
def keywordPatterns : Reading (List Syntax) := separated comma do
  let _ ← name
  let _ ← symbol "="
  r.part .pattern

/-- A class and patterns for its attributes. -/
def classPattern : Reading Syntax := first [
  spanned do
    let subject ← dottedValue
    let arguments (x : Reading (List Syntax)) : Reading (List Syntax) := do
      let _ ← symbol "("
      let found ← x
      let _ ← symbol ")"
      return found
    let closed (x : Reading (List Syntax)) : Reading (List Syntax) := do
      let found ← x
      let _ ← optional comma
      return found
    let found ← first [
      arguments (return []),
      arguments (closed (positionalPatterns r)),
      arguments (closed (keywordPatterns r)),
      arguments (closed do
        let head ← positionalPatterns r
        let _ ← comma
        return head ++ (← keywordPatterns r))]
    return fun lines => .plain .classPattern lines (subject :: found),
  doubt [do
    let _ ← dottedValue
    let _ ← symbol "("
    let _ ← optional do
      let _ ← positionalPatterns r
      comma
    let _ ← keywordPatterns r
    let _ ← comma
    match ← positionalPatterns r with
    | part :: _ => blame part .positionalPatternAfterKeyword
    | [] => noBlame]]

/-! ## Whole patterns -/

/-- A pattern that needs no brackets to stand alone. -/
def closedPattern : Reading Syntax := first [
  literalPattern r,
  capturePattern,
  valuePattern,
  enclosed "(" ")" (r.part .pattern),
  sequencePattern r,
  mappingPattern r,
  classPattern r]

/-- Alternatives. -/
def alternativePattern : Reading Syntax := do
  let start ← startLine
  match ← separated (symbol "|") (r.part .closedPattern) with
  | [only] => return only
  | found => return .plain .alternativePattern (← linesFrom start) found

/-- A pattern, which may be captured as a whole. -/
def pattern : Reading Syntax := first [
  spanned do
    let inner ← alternativePattern r
    let _ ← keyword "as"
    let _ ← captureTarget
    return fun lines => .plain .capturePattern lines [inner],
  doubt [
    do
      let _ ← alternativePattern r
      let _ ← keyword "as"
      blameToken (← softKeyword "_") .wildcardTarget,
    do
      let _ ← alternativePattern r
      let _ ← keyword "as"
      notAhead name
      blame (← r.part .expression) .badPatternTarget],
  alternativePattern r]

/-- The pattern of a case, which may be a sequence without brackets. -/
def casePattern : Reading Syntax := first [
  spanned do
    let found ← openElements r
    return fun lines => .plain .sequencePattern lines found,
  r.part .pattern]

end MethodLint.Source.Grammar
