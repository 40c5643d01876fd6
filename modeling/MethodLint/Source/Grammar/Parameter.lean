import MethodLint.Source.Reading

/-!
Parameter lists. A function's list is closed by a parenthesis and its parameters may be annotated; a
lambda's list is closed by a colon. Otherwise they are alike: positional parameters, of which those
before a slash can be passed by position only, then after a star those that are passed by keyword only,
and last what collects all other keywords. Once a positional parameter has a default, all later ones
must have one.
-/
namespace MethodLint.Source.Grammar

open Reading

/-- A parameter: its node, its name, and its default. -/
structure Parameter where
  node : Syntax
  name : String
  default? : Option Syntax

/-- A parameter list. -/
structure ParameterList where
  positionalOnly : List Parameter
  positional : List Parameter
  rest : Option Parameter
  keywordOnly : List Parameter
  keywords : Option Parameter

namespace ParameterList

/-- No parameters. -/
def empty : ParameterList := ⟨[], [], none, [], none⟩

/-- The parameters in the order of their nodes. -/
def all (l : ParameterList) : List Parameter :=
  l.positionalOnly ++ l.positional ++ l.rest.toList ++ l.keywordOnly ++ l.keywords.toList

/-- The names of the parameters. -/
def names (l : ParameterList) : List String := l.all.map Parameter.name

/-- The node of a parameter list. -/
def node (l : ParameterList) : Syntax :=
  .plain .arguments .none
    (l.positionalOnly.map Parameter.node ++ l.positional.map Parameter.node
      ++ l.rest.toList.map Parameter.node ++ l.keywordOnly.map Parameter.node
      ++ l.keywordOnly.filterMap Parameter.default? ++ l.keywords.toList.map Parameter.node
      ++ (l.positionalOnly ++ l.positional).filterMap Parameter.default?)

end ParameterList

/-- The two kinds of parameter lists. -/
inductive Signature
  | function
  | lambda
  deriving DecidableEq

namespace Signature

/-- What closes a parameter list. -/
def closing : Signature → String
  | .function => ")"
  | .lambda => ":"

/-- What complaints call a parameter list. -/
def label : Signature → String
  | .function => "Function"
  | .lambda => "Lambda expression"

end Signature

variable (r : Rules) (s : Signature)

/-- A mistake in a parameter list, at a token. -/
def parameterBlame (t : Token) (mistake : ParameterMistake) : Reading (Option Objection) :=
  blameToken t (.parameter mistake)

/-- A parameter without what may follow it. The annotation of one behind a star may unpack. -/
def bareParameter (starred : Bool) : Reading Parameter := do
  let start ← startLine
  let t ← name
  let annotation ← if s = .lambda then pure none
    else if starred then some <$> (do let _ ← symbol ":"; r.part .starExpression)
    else optional (do let _ ← symbol ":"; r.part .expression)
  return ⟨.plain .argument (← linesFrom start) annotation.toList, t.text, none⟩

/-- What ends a parameter: a comma, or the end of the list, which is not taken. -/
def parameterEnd : Reading Unit := first [do let _ ← symbol ",", ahead (symbol s.closing)]

/-- A default. -/
def parameterDefault : Reading Syntax := first [
  do
    let _ ← symbol "="
    r.part .expression,
  doubt [do
    let t ← symbol "="
    ahead (first [symbol ")", symbol ","])
    parameterBlame t .emptyDefault]]

/-- A parameter without a default. -/
def plainParameter : Reading Parameter := do
  let p ← bareParameter r s false
  parameterEnd s
  return p

/-- A parameter behind a star whose annotation unpacks. -/
def unpackedParameter : Reading Parameter :=
  if s = .lambda then refuse
  else do
    let p ← bareParameter r s true
    parameterEnd s
    return p

/-- A parameter with a default. -/
def defaultedParameter : Reading Parameter := do
  let p ← bareParameter r s false
  let value ← parameterDefault r
  parameterEnd s
  return { p with default? := some value }

/-- A parameter with or without a default. -/
def anyParameter : Reading Parameter := do
  let p ← bareParameter r s false
  let value ← optional (parameterDefault r)
  parameterEnd s
  return { p with default? := value }

/-- The slash behind the parameters that are passed by position only. -/
def slash : Reading Unit := do
  let _ ← symbol "/"
  parameterEnd s

/-- Parameters before a slash, none of which has a default. -/
def slashPlain : Reading (List Parameter) := do
  let found ← several (plainParameter r s)
  slash s
  return found

/-- Parameters before a slash, the last of which have defaults. -/
def slashDefaulted : Reading (List Parameter) := do
  let plain ← many (plainParameter r s)
  let found ← several (defaultedParameter r s)
  slash s
  return plain ++ found

/-- What collects all other keywords. -/
def keywordsParameter : Reading Parameter := first [
  doubt [
    do
      let _ ← symbol "**"
      let _ ← bareParameter r s false
      parameterBlame (← symbol "=") .doubleStarDefault,
    do
      let _ ← symbol "**"
      let _ ← bareParameter r s false
      let _ ← symbol ","
      let t ← current
      let _ ← bareParameter r s false
      parameterBlame t .afterDoubleStar,
    do
      let _ ← symbol "**"
      let _ ← bareParameter r s false
      let _ ← symbol ","
      parameterBlame (← first [symbol "*", symbol "**", symbol "/"]) .afterDoubleStar],
  do
    let _ ← symbol "**"
    plainParameter r s]

/-- Mistakes behind a star. -/
def starMistakes : Reading ParameterList := doubt [
  do
    let t ← symbol "*"
    let _ ← first [symbol s.closing,
      do
        let _ ← symbol ","
        first [symbol s.closing, symbol "**"]]
    if s = .lambda then blameHere (.parameter .bareStar) else parameterBlame t .bareStar,
  do
    let _ ← symbol "*"
    let _ ← bareParameter r s false
    parameterBlame (← symbol "=") .starDefault,
  do
    let _ ← symbol "*"
    let _ ← first [discard (plainParameter r s), discard (symbol ",")]
    let _ ← many (anyParameter r s)
    let t ← symbol "*"
    let _ ← first [discard (plainParameter r s), discard (symbol ",")]
    parameterBlame t .starTwice]

/-- The parameters from a star on. -/
def starParameters : Reading ParameterList := first [
  starMistakes r s,
  do
    let _ ← symbol "*"
    let rest ← plainParameter r s
    let keywordOnly ← many (anyParameter r s)
    let keywords ← optional (keywordsParameter r s)
    return ⟨[], [], some rest, keywordOnly, keywords⟩,
  do
    let _ ← symbol "*"
    let rest ← unpackedParameter r s
    let keywordOnly ← many (anyParameter r s)
    let keywords ← optional (keywordsParameter r s)
    return ⟨[], [], some rest, keywordOnly, keywords⟩,
  do
    let _ ← symbol "*"
    let _ ← symbol ","
    let keywordOnly ← several (anyParameter r s)
    let keywords ← optional (keywordsParameter r s)
    return ⟨[], [], none, keywordOnly, keywords⟩,
  do
    let keywords ← keywordsParameter r s
    return ⟨[], [], none, [], some keywords⟩]

/-- The end of a parameter list behind its positional parameters. -/
def withStar (positionalOnly positional : List Parameter) : Reading ParameterList := do
  let more := (← optional (starParameters r s)).getD .empty
  return { more with positionalOnly, positional }

/-- A parameter list. -/
def parameterList : Reading ParameterList := first [
  do
    let only ← slashPlain r s
    let plain ← many (plainParameter r s)
    let defaulted ← many (defaultedParameter r s)
    withStar r s only (plain ++ defaulted),
  do
    let only ← slashDefaulted r s
    withStar r s only (← many (defaultedParameter r s)),
  do
    let plain ← several (plainParameter r s)
    let defaulted ← many (defaultedParameter r s)
    withStar r s [] (plain ++ defaulted),
  do
    withStar r s [] (← several (defaultedParameter r s)),
  starParameters r s]

/-- Parameters before a slash. -/
def slashAny : Reading (List Parameter) := first [slashPlain r s, slashDefaulted r s]

/-- Parameters in parentheses of their own. -/
def innerParameters : Reading Unit :=
  if s = .lambda then discard (separated (symbol ",") (bareParameter r s false))
  else discard (several (plainParameter r s))

/-- Mistakes in a parameter list. -/
def parameterMistakes : Reading ParameterList := doubt [
  do
    let _ ← many (plainParameter r s)
    let _ ← first [slashDefaulted r s, several (defaultedParameter r s)]
    let t ← current
    let _ ← plainParameter r s
    parameterBlame t .defaultBeforePlain,
  do
    let _ ← many (plainParameter r s)
    let t ← symbol "("
    innerParameters r s
    let _ ← optional (symbol ",")
    let _ ← symbol ")"
    parameterBlame t (.parenthesized s.label),
  do
    let t ← symbol "/"
    let _ ← symbol ","
    parameterBlame t .slashFirst,
  do
    let _ ← slashAny r s
    let _ ← many (anyParameter r s)
    parameterBlame (← symbol "/") .slashTwice,
  do
    let _ ← optional (slashAny r s)
    let _ ← many (anyParameter r s)
    let _ ← symbol "*"
    let _ ← first [discard (symbol ","), discard (plainParameter r s)]
    let _ ← many (anyParameter r s)
    parameterBlame (← symbol "/") .slashAfterStar,
  do
    let _ ← several (anyParameter r s)
    let _ ← symbol "/"
    parameterBlame (← symbol "*") .slashThenStar]

/-- The parameters of a function or a lambda; there may be none. -/
def parameters : Reading ParameterList := do
  return (← optional (first [parameterMistakes r s, parameterList r s])).getD .empty

end MethodLint.Source.Grammar
