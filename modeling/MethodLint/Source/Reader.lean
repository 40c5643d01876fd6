import MethodLint.Source.Grammar.Statement

/-!
Reading a source. Here the rules of the grammar come together: a rule is given the rules to come back
to, which may be used one level less deep, so the depth bounds the recursion. Between two openings of
a bracket, a block or a text there are only so many rules, and a source has no more openings than
characters, so the depth that is computed from its length is never used up.
-/
namespace MethodLint.Source.Grammar

/-- The reading of a rule. -/
def readingOf (r : Rules) : Rule → Reading Syntax
  | .simpleStatement => simpleStatement r
  | .conditionalRest => conditional r "elif"
  | .expression => expression r
  | .plainExpression => plainExpression r
  | .namedExpression => namedExpression r
  | .mistakenAssignment => mistakenAssignment r
  | .starExpressions => tupleOf r .starExpression
  | .starExpression => starExpression r
  | .starNamedExpression => starNamedExpression r
  | .bareExpressions => tupleOf r .expression
  | .disjunction => junction r .conjunction "or" .or
  | .conjunction => junction r .inversion "and" .and
  | .inversion => inversion r
  | .bitwiseOr => leftward r .bitwiseXor [("|", .bitOr)]
  | .bitwiseXor => leftward r .bitwiseAnd [("^", .bitXor)]
  | .bitwiseAnd => leftward r .shift [("&", .bitAnd)]
  | .shift => leftward r .sum [("<<", .leftShift), (">>", .rightShift)]
  | .sum => leftward r .term [("+", .add), ("-", .subtract)]
  | .term => leftward r .factor [("*", .multiply), ("/", .divide), ("//", .floorDivide),
      ("%", .modulo), ("@", .matrixMultiply)]
  | .factor => factor r
  | .awaitPrimary => awaitPrimary r
  | .primary => primary r
  | .atom => atom r
  | .texts => texts r
  | .generatorExpression => generatorExpression r
  | .starTargets => starTargets r
  | .starTarget => starTarget r
  | .targetWithStarAtom => targetWithStarAtom r
  | .targetPrimary => targetPrimary r
  | .singleTarget => singleTarget r
  | .deletionTarget => deletionTarget r
  | .pattern => pattern r
  | .patterns => casePattern r
  | .closedPattern => closedPattern r
  | .starPattern => starPattern

/-- The reading of a rule for several parts. -/
def listReadingOf (r : Rules) : ListRule → Reading (List Syntax)
  | .block => block r
  | .statement => statement r
  | .arguments => arguments r

mutual

/-- A rule, at most `depth` levels deep. -/
def part : (depth : Nat) → Rule → Reading Syntax
  | 0, _ => Reading.refuse
  | depth + 1, rule =>
    let reading := readingOf ⟨part depth, parts depth⟩ rule
    if rule.isKept then Reading.keep rule reading else reading

/-- A rule for several parts, at most `depth` levels deep. -/
def parts : (depth : Nat) → ListRule → Reading (List Syntax)
  | 0, _ => Reading.refuse
  | depth + 1, rule =>
    let reading := listReadingOf ⟨part depth, parts depth⟩ rule
    if rule.isKept then Reading.keepList rule reading else reading

end

end MethodLint.Source.Grammar

namespace MethodLint.Source

/-- Why a source is no program. -/
inductive SourceDefect
  | nullCharacter
  | objection (complaint : Complaint) (line : Nat)
  deriving DecidableEq, Repr

/-- The source of a text. -/
def Module.ofText (text : String) : Except SourceDefect Module :=
  if text.contains '\x00' then .error .nullCharacter
  else
    let depth := 32 * (text.length + 16)
    match readTwice (Tokens.ofSource text) (Grammar.file ⟨Grammar.part depth, Grammar.parts depth⟩) with
    | .ok m => .ok m
    | .error o => .error (.objection o.complaint o.line)

end MethodLint.Source
