import MethodLint.Fault
import MethodLint.Source.Escape
import MethodLint.Text.Hexadecimal
import MethodLint.Text.Printable

/-!
What can be wrong with a source. A complaint is a cause; `Complaint.message` words it. Most sources
that are no program only get the complaint that the syntax is invalid; the other complaints are made
where the grammar recognises a common mistake.
-/
namespace MethodLint.Source

/-- How a parameter list went wrong. -/
inductive ParameterMistake
  | defaultBeforePlain
  | parenthesized (kind : String)
  | slashFirst
  | slashTwice
  | slashAfterStar
  | slashThenStar
  | emptyDefault
  | bareStar
  | commentAfterStar
  | starDefault
  | starTwice
  | doubleStarDefault
  | afterDoubleStar
  deriving DecidableEq, Repr

/-- How the arguments of a call went wrong. -/
inductive ArgumentMistake
  | starAfterDoubleStar
  | bareGenerator
  | comparisonMeant
  | positionalAfterKeyword
  | positionalAfterUnpacking
  | assignmentToExpression
  deriving DecidableEq, Repr

/-- How a display of a collection went wrong. -/
inductive DisplayMistake
  | unpackingInComprehension
  | bareTarget
  | dictionaryUnpacking
  | starInGroup
  | doubleStarInGroup
  | colonMissing
  | starredValue
  | valueMissing
  deriving DecidableEq, Repr

/-- How the replacement fields of an interpolated text went wrong. -/
inductive InterpolationMistake
  | closeExpected
  | singleClose
  | empty
  | backslash
  | comment
  | tooDeep
  | tooManyBrackets
  | unterminated
  | unmatched (bracket : Char)
  | mismatched (closing opening : Char)
  | badConversion
  | escape (mistake : EscapeMistake)
  deriving DecidableEq, Repr

/-- What can be wrong with a source. -/
inductive Complaint
  | invalidSyntax
  | expected (what : String)
  /-- A block is missing after a construct that starts at a line. -/
  | expectedBlock (construct : String) (line : Nat)
  | expectedSomeBlock
  | unexpectedIndent
  | unexpectedUnindent
  | strayUnindent
  | mixedIndentation
  | tooManyIndents
  | tooManyBrackets
  | neverClosed (bracket : Char)
  | unmatched (bracket : Char)
  | mismatched (closing opening : Char) (line : Option Nat)
  | unterminated (triple : Bool) (line : Nat)
  | leadingZeros
  | badLiteral (kind : String)
  | badDigit (digit : Char) (kind : String)
  | longNumeral (digits : Nat)
  | badCharacter (c : Char)
  | afterContinuation
  | unexpectedEnd
  | mixedTexts
  | bytesBeyondAscii
  | escape (mistake : EscapeMistake)
  | interpolation (mistake : InterpolationMistake)
  /-- A complaint about an expression inside an interpolated text. -/
  | interpolated (message : String)
  | cannotAssign (what : String)
  | cannotAssignHere (what : String)
  | cannotAssignWalrus (what : String)
  | cannotAugment (what : String)
  | cannotAnnotate (what : String)
  | badAnnotationTarget
  | cannotAssignYield
  | cannotDelete (what : String)
  | comparisonMeant
  | commaMissing
  | elseMissing
  | parenthesesMissing (name : String)
  | trailingImportComma
  | handlerMissing
  | mixedHandlers
  | bareExceptionTypes
  | exceptionTypeMissing
  | wildcardTarget
  | badPatternTarget
  | realRequired
  | imaginaryRequired
  | positionalPatternAfterKeyword
  | parameter (mistake : ParameterMistake)
  | argument (mistake : ArgumentMistake)
  | display (mistake : DisplayMistake)
  deriving DecidableEq, Repr

/-- The wording of a mistake in a parameter list. -/
def ParameterMistake.message : ParameterMistake → String
  | .defaultBeforePlain => "non-default argument follows default argument"
  | .parenthesized kind => kind ++ " parameters cannot be parenthesized"
  | .slashFirst => "at least one argument must precede /"
  | .slashTwice => "/ may appear only once"
  | .slashAfterStar => "/ must be ahead of *"
  | .slashThenStar => "expected comma between / and *"
  | .emptyDefault => "expected default value expression"
  | .bareStar => "named arguments must follow bare *"
  | .commentAfterStar => "bare * has associated type comment"
  | .starDefault => "var-positional argument cannot have default value"
  | .starTwice => "* argument may appear only once"
  | .doubleStarDefault => "var-keyword argument cannot have default value"
  | .afterDoubleStar => "arguments cannot follow var-keyword argument"

/-- A mistake of several constructs: an equals sign where a comparison was meant. -/
def comparisonMessage : String := "invalid syntax. Maybe you meant '==' or ':=' instead of '='?"

/-- The wording of a mistake in the arguments of a call. -/
def ArgumentMistake.message : ArgumentMistake → String
  | .starAfterDoubleStar => "iterable argument unpacking follows keyword argument unpacking"
  | .bareGenerator => "Generator expression must be parenthesized"
  | .comparisonMeant => comparisonMessage
  | .positionalAfterKeyword => "positional argument follows keyword argument"
  | .positionalAfterUnpacking => "positional argument follows keyword argument unpacking"
  | .assignmentToExpression =>
    "expression cannot contain assignment, perhaps you meant \"==\"?"

/-- The wording of a mistake in a display. -/
def DisplayMistake.message : DisplayMistake → String
  | .unpackingInComprehension => "iterable unpacking cannot be used in comprehension"
  | .bareTarget => "did you forget parentheses around the comprehension target?"
  | .dictionaryUnpacking => "dict unpacking cannot be used in dict comprehension"
  | .starInGroup => "cannot use starred expression here"
  | .doubleStarInGroup => "cannot use double starred expression here"
  | .colonMissing => "':' expected after dictionary key"
  | .starredValue => "cannot use a starred expression in a dictionary value"
  | .valueMissing => "expression expected after dictionary key and ':'"

/-- The wording of a mistake in a replacement field. -/
def InterpolationMistake.message : InterpolationMistake → String
  | .closeExpected => "f-string: expecting '\x7d'"
  | .singleClose => "f-string: single '\x7d' is not allowed"
  | .empty => "f-string: empty expression not allowed"
  | .backslash => "f-string expression part cannot include a backslash"
  | .comment => "f-string expression part cannot include '#'"
  | .tooDeep => "f-string: expressions nested too deeply"
  | .tooManyBrackets => "f-string: too many nested parenthesis"
  | .unterminated => "f-string: unterminated string"
  | .unmatched bracket => s!"f-string: unmatched '{bracket}'"
  | .mismatched closing opening =>
    s!"f-string: closing parenthesis '{closing}' does not match opening parenthesis '{opening}'"
  | .badConversion => "f-string: invalid conversion character: expected 's', 'r', or 'a'"
  | .escape mistake => mistake.message

/-- The wording of a complaint. -/
def Complaint.message : Complaint → String
  | .invalidSyntax => "invalid syntax"
  | .expected what => s!"expected '{what}'"
  | .expectedBlock construct line => s!"expected an indented block after {construct} on line {line}"
  | .expectedSomeBlock => "expected an indented block"
  | .unexpectedIndent => "unexpected indent"
  | .unexpectedUnindent => "unexpected unindent"
  | .strayUnindent => "unindent does not match any outer indentation level"
  | .mixedIndentation => "inconsistent use of tabs and spaces in indentation"
  | .tooManyIndents => "too many levels of indentation"
  | .tooManyBrackets => "too many nested parentheses"
  | .neverClosed bracket => s!"'{bracket}' was never closed"
  | .unmatched bracket => s!"unmatched '{bracket}'"
  | .mismatched closing opening none =>
    s!"closing parenthesis '{closing}' does not match opening parenthesis '{opening}'"
  | .mismatched closing opening (some line) =>
    s!"closing parenthesis '{closing}' does not match opening parenthesis '{opening}' on line {line}"
  | .unterminated true line => s!"unterminated triple-quoted string literal (detected at line {line})"
  | .unterminated false line => s!"unterminated string literal (detected at line {line})"
  | .leadingZeros => "leading zeros in decimal integer literals are not permitted; "
      ++ "use an 0o prefix for octal integers"
  | .badLiteral kind => s!"invalid {kind} literal"
  | .badDigit digit kind => s!"invalid digit '{digit}' in {kind} literal"
  | .longNumeral digits => (Fault.numeralTooLong digits).message
      ++ " - Consider hexadecimal for huge integer literals to avoid decimal conversion limits."
  | .badCharacter c =>
    let point := Text.hexCapitals 4 c.toNat
    if Text.isPrintable c then s!"invalid character '{c}' (U+{point})"
    else s!"invalid non-printable character U+{point}"
  | .afterContinuation => "unexpected character after line continuation character"
  | .unexpectedEnd => "unexpected EOF while parsing"
  | .mixedTexts => "cannot mix bytes and nonbytes literals"
  | .bytesBeyondAscii => "bytes can only contain ASCII literal characters"
  | .escape mistake => mistake.message
  | .interpolation mistake => mistake.message
  | .interpolated message => "f-string: " ++ message
  | .cannotAssign what => s!"cannot assign to {what}"
  | .cannotAssignHere what =>
    s!"cannot assign to {what} here. Maybe you meant '==' instead of '='?"
  | .cannotAssignWalrus what => s!"cannot use assignment expressions with {what}"
  | .cannotAugment what => s!"'{what}' is an illegal expression for augmented assignment"
  | .cannotAnnotate what => s!"only single target (not {what}) can be annotated"
  | .badAnnotationTarget => "illegal target for annotation"
  | .cannotAssignYield => "assignment to yield expression not possible"
  | .cannotDelete what => s!"cannot delete {what}"
  | .comparisonMeant => comparisonMessage
  | .commaMissing => "invalid syntax. Perhaps you forgot a comma?"
  | .elseMissing => "expected 'else' after 'if' expression"
  | .parenthesesMissing name =>
    s!"Missing parentheses in call to '{name}'. Did you mean {name}(...)?"
  | .trailingImportComma => "trailing comma not allowed without surrounding parentheses"
  | .handlerMissing => "expected 'except' or 'finally' block"
  | .mixedHandlers => "cannot have both 'except' and 'except*' on the same 'try'"
  | .bareExceptionTypes => "multiple exception types must be parenthesized"
  | .exceptionTypeMissing => "expected one or more exception types"
  | .wildcardTarget => "cannot use '_' as a target"
  | .badPatternTarget => "invalid pattern target"
  | .realRequired => "real number required in complex literal"
  | .imaginaryRequired => "imaginary number required in complex literal"
  | .positionalPatternAfterKeyword => "positional patterns follow keyword patterns"
  | .parameter mistake => mistake.message
  | .argument mistake => mistake.message
  | .display mistake => mistake.message

end MethodLint.Source
