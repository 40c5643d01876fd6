import MethodLint.Source.Grammar.Pattern
import MethodLint.Source.Grammar.Target

/-!
Statements: the simple ones, of which several may stand on a line, and those with blocks. A block is an
indented run of statements or the rest of a line.
-/
namespace MethodLint.Source.Grammar

open Reading

variable (r : Rules)

/-! ## Assignments -/

/-- The operators that change a target. -/
def augmentations : List (String × Form) :=
  [("+=", .add), ("-=", .subtract), ("*=", .multiply), ("@=", .matrixMultiply), ("/=", .divide),
    ("%=", .modulo), ("&=", .bitAnd), ("|=", .bitOr), ("^=", .bitXor), ("<<=", .leftShift),
    (">>=", .rightShift), ("**=", .power), ("//=", .floorDivide)]

/-- What is assigned. -/
def assignedValue : Reading Syntax := first [yielded r, r.part .starExpressions]

/-- An annotation, and what is assigned at once. -/
def annotated (target : Reading Syntax) : Reading Syntax := spanned do
  let target ← target
  let _ ← symbol ":"
  let annotation ← r.part .expression
  let value ← optional do
    let _ ← symbol "="
    assignedValue r
  return fun lines => .plain .annotatedAssignment lines (target :: annotation :: value.toList)

/-- Targets with an equals sign behind each. -/
def assignedTarget : Reading Syntax := do
  let target ← r.part .starTargets
  let _ ← symbol "="
  return target

/-- A list or a tuple that is annotated, in any number of parentheses. -/
def annotatedSequence : (depth : Nat) → Reading Syntax
  | 0 => refuse
  | depth + 1 => first [listDisplay r, tupleDisplay r, enclosed "(" ")" (annotatedSequence depth)]

/-- The complaint about an expression that is used for a purpose that it does not fit. -/
def misfitBlame (purpose : Purpose) (part : Syntax) : Reading (Option Objection) :=
  match part.misfit? purpose with
  | some misfit => blame misfit (purpose.complaint misfit.description)
  | none => noBlame

/-- Mistakes in an assignment. -/
def assignmentMistakes : Reading Syntax := doubt [
  do
    let part ← annotatedSequence r bracketLimit
    let _ ← symbol ":"
    let _ ← r.part .expression
    blame part (.cannotAnnotate part.description),
  do
    let part ← r.part .starNamedExpression
    let _ ← comma
    let _ ← many (elements r)
    let _ ← symbol ":"
    let _ ← r.part .expression
    blame part (.cannotAnnotate "tuple"),
  do
    let part ← r.part .expression
    let _ ← symbol ":"
    let _ ← r.part .expression
    blame part .badAnnotationTarget,
  do
    let _ ← many (assignedTarget r)
    let part ← r.part .starExpressions
    let _ ← symbol "="
    misfitBlame .assignment part,
  do
    let _ ← many (assignedTarget r)
    let part ← yielded r
    let _ ← symbol "="
    blame part .cannotAssignYield,
  do
    let part ← r.part .starExpressions
    let _ ← oneOf augmentations
    let _ ← assignedValue r
    blame part (.cannotAugment part.description)]

/-- An assignment: to annotated targets, to all of several targets, or by an operator. -/
def assignment : Reading Syntax := first [
  annotated r (nameIn .store),
  annotated r (first [enclosed "(" ")" (r.part .singleTarget), member r .store]),
  spanned do
    let targets ← several (assignedTarget r)
    let value ← assignedValue r
    notAhead (symbol "=")
    return fun lines => .plain .assignment lines (targets ++ [value]),
  do
    let start ← startLine
    committed
      (do return (← r.part .singleTarget, ← oneOf augmentations))
      (fun (target, operator) => do
        let value ← assignedValue r
        return .plain .augmentedAssignment (← linesFrom start) [target, .leaf operator, value])
      (assignmentMistakes r)]

/-! ## Imports -/

/-- A name with dots in it. -/
def dottedName : Reading Unit := discard (separated (symbol ".") name)

/-- A new name for what is imported, if one follows. -/
def newName : Reading Unit := discard (optional do
  let _ ← keyword "as"
  name)

/-- Something that is imported. -/
def namedImport (imported : Reading Unit) : Reading Syntax := spanned do
  imported
  return fun lines => .plain .alias lines []

/-- Names that are imported from a module. -/
def importedNames : Reading (List Syntax) := separated comma (namedImport do
  let _ ← name
  newName)

/-- What is imported from a module. -/
def importTargets : Reading (List Syntax) := first [
  enclosed "(" ")" (do
    let found ← importedNames
    let _ ← optional comma
    return found),
  do
    let found ← importedNames
    notAhead comma
    return found,
  List.singleton <$> namedImport (discard (symbol "*")),
  doubt [do
    let _ ← importedNames
    let _ ← comma
    let _ ← newline
    blameHere .trailingImportComma]]

/-- An import. -/
def importStatement : Reading Syntax := first [
  spanned do
    let _ ← keyword "import"
    let found ← separated comma (namedImport do
      dottedName
      newName)
    return fun lines => .plain .importing lines found,
  spanned do
    let dot : Reading Token := first [symbol ".", symbol "..."]
    let _ ← keyword "from"
    first [
      do
        let _ ← many dot
        dottedName
        discard (keyword "import"),
      do
        let _ ← several dot
        discard (keyword "import")]
    let found ← importTargets
    return fun lines => .plain .importingFrom lines found]

/-! ## Other simple statements -/

/-- A statement that is a word and some expressions. -/
def wordStatement (word : String) (form : Form) (parts : Reading (List Syntax)) : Reading Syntax :=
  spanned do
    let _ ← keyword word
    let found ← parts
    return fun lines => .plain form lines found

/-- Names that belong to an outer scope. -/
def outerNames (word : String) (scope : OuterScope) : Reading Syntax := spanned do
  let _ ← keyword word
  let found ← separated comma name
  return fun lines => .outer scope (found.map Token.text) lines

/-- An expression, and another one behind a separator. -/
def oneOrTwo (separator : Reading Token) : Reading (List Syntax) := do
  let head ← r.part .expression
  let other ← optional do
    let _ ← separator
    r.part .expression
  return head :: other.toList

/-- A deletion. -/
def deletion : Reading Syntax := first [
  wordStatement "del" .deletion do
    let found ← deletionTargets r
    ahead (first [symbol ";", newline])
    return found,
  doubt [do
    let _ ← keyword "del"
    misfitBlame .deletion (← r.part .starExpressions)]]

/-- An expression as a statement. -/
def expressionStatement (value : Reading Syntax) : Reading Syntax := spanned do
  let value ← value
  return fun lines => .plain .expressionStatement lines [value]

/-- A simple statement. -/
def simpleStatement : Reading Syntax := first [
  assignment r,
  expressionStatement (r.part .starExpressions),
  wordStatement "return" .returning (do return (← optional (r.part .starExpressions)).toList),
  importStatement,
  wordStatement "raise" .raising (do return (← optional (oneOrTwo r (keyword "from"))).getD []),
  wordStatement "pass" .pass (return []),
  deletion r,
  expressionStatement (yielded r),
  wordStatement "assert" .assertion (oneOrTwo r comma),
  wordStatement "break" .breaking (return []),
  wordStatement "continue" .continuing (return []),
  outerNames "global" .global,
  outerNames "nonlocal" .nonlocal]

/-- The simple statements of a line. -/
def simpleStatements : Reading (List Syntax) := do
  let found ← separated (symbol ";") (r.part .simpleStatement)
  let _ ← optional (symbol ";")
  let _ ← newline
  return found

/-! ## Blocks -/

/-- A block. -/
def block : Reading (List Syntax) := first [
  do
    let _ ← newline
    let _ ← tokenOf .indent
    let found ← several (r.parts .statement)
    let _ ← tokenOf .dedent
    return found.flatten,
  simpleStatements r,
  doubt [do
    let _ ← newline
    notAhead (tokenOf .indent)
    blameHere .expectedSomeBlock]]

/-- A colon and a block. -/
def body : Reading (List Syntax) := do
  let _ ← symbol ":"
  r.parts .block

/-- A colon, which must follow, and a block. -/
def demandedBody : Reading (List Syntax) := do
  let _ ← demanded ":"
  r.parts .block

/-- The line ends where a colon must stand. -/
def colonMissing : Reading (Option Objection) := do
  let _ ← newline
  blameHere (.expected ":")

/-- The block of a construct is missing. The token is the one that the construct begins with. -/
def blockMissing (construct : String) (t : Token) : Reading (Option Objection) := do
  let _ ← symbol ":"
  let _ ← newline
  notAhead (tokenOf .indent)
  blameHere (.expectedBlock construct t.first)

/-- A construct that is only a word lacks its block. -/
def wordBlockMissing (word construct : String) : Reading (Option Objection) := do
  blockMissing construct (← keyword word)

/-- What is done otherwise, if anything. -/
def otherwise : Reading (List Syntax) := do
  let found ← optional (first [
    doubt [wordBlockMissing "else" "'else' statement"],
    do
      let _ ← keyword "else"
      demandedBody r])
  return found.getD []

/-! ## Branches and loops -/

/-- Mistakes in a construct with a condition. -/
def conditionMistakes {α : Type} (word : String) : Reading α := doubt [
  do
    let _ ← keyword word
    let _ ← r.part .namedExpression
    colonMissing,
  do
    let t ← keyword word
    let _ ← r.part .namedExpression
    blockMissing s!"'{word}' statement" t]

/-- A branch, which begins with `if`, or with `elif` inside another. -/
def conditional (word : String) : Reading Syntax := first [
  conditionMistakes r word,
  spanned do
    let _ ← keyword word
    let test ← r.part .namedExpression
    let then' ← body r
    let else' ← first [List.singleton <$> r.part .conditionalRest, otherwise r]
    return fun lines => .plain .conditional lines (test :: then' ++ else')]

/-- A loop with a condition. -/
def whileLoop : Reading Syntax := first [
  conditionMistakes r "while",
  spanned do
    let _ ← keyword "while"
    let test ← r.part .namedExpression
    let inner ← body r
    let rest ← otherwise r
    return fun lines => .plain .whileLoop lines (test :: inner ++ rest)]

/-- A construct that may be asynchronous. -/
def asynchronous : Reading Unit := discard (optional (keyword "async"))

/-- Mistakes in a loop over values. -/
def forMistakes : Reading Syntax := doubt [
  do
    asynchronous
    let _ ← generatorOpening r
    let _ ← r.part .starExpressions
    colonMissing,
  do
    asynchronous
    let t ← current
    let _ ← generatorOpening r
    let _ ← r.part .starExpressions
    blockMissing "'for' statement" t]

/-- What follows the `in` of a loop over values. -/
def forRest (form : Form) (start : Nat) (target : Syntax) : Reading Syntax := do
  let iterable ← r.part .starExpressions
  let inner ← body r
  let rest ← otherwise r
  return .plain form (← linesFrom start) (target :: iterable :: inner ++ rest)

/-- A loop over values. -/
def forLoop : Reading Syntax := do
  let start ← startLine
  first [
    forMistakes r,
    committed (generatorOpening r) (forRest r .forLoop start)
      (committed
        (do
          let _ ← keyword "async"
          generatorOpening r)
        (forRest r .asyncForLoop start)
        (loopTargetMistake r))]

/-! ## Resources -/

/-- A resource, and the target that it is assigned to. -/
def resource : Reading Syntax := first [
  do
    let value ← r.part .expression
    let _ ← keyword "as"
    let target ← r.part .starTarget
    ahead (first [comma, symbol ")", symbol ":"])
    return .plain .resource .none [value, target],
  doubt [do
    let _ ← r.part .expression
    let _ ← keyword "as"
    let part ← r.part .expression
    ahead (first [comma, symbol ")", symbol ":"])
    misfitBlame .assignment part],
  do
    return .plain .resource .none [← r.part .expression]]

/-- The head of a statement with resources, for the search of mistakes. -/
def resourceHead (inParentheses : Bool) : Reading Token := do
  asynchronous
  let t ← keyword "with"
  let item (value : Rule) : Reading Unit := do
    let _ ← r.part value
    discard (optional do
      let _ ← keyword "as"
      r.part .starTarget)
  if inParentheses then
    enclosed "(" ")" (do
      let _ ← separated comma (item .bareExpressions)
      discard (optional comma))
  else discard (separated comma (item .expression))
  return t

/-- A statement with resources. -/
def resourceBlock : Reading Syntax := do
  let plain : Reading (List Syntax) := do
    let items ← separated comma (resource r)
    return items ++ (← body r)
  let inParentheses : Reading (List Syntax) := do
    let items ← enclosed "(" ")" (do
      let found ← separated comma (resource r)
      let _ ← optional comma
      return found)
    return items ++ (← body r)
  let statement (form : Form) (opening : Reading Unit) : Reading Syntax := spanned do
    opening
    let parts ← first [inParentheses, plain]
    return fun lines => .plain form lines parts
  let missing (inParentheses : Bool) : Reading (Option Objection) := do
    blockMissing "'with' statement" (← resourceHead r inParentheses)
  let endless (inParentheses : Bool) : Reading (Option Objection) := do
    let _ ← resourceHead r inParentheses
    colonMissing
  first [
    doubt [missing false, missing true],
    statement .resourceBlock (discard (keyword "with")),
    statement .asyncResourceBlock (do
      let _ ← keyword "async"
      discard (keyword "with")),
    doubt [endless false, endless true]]

/-! ## Handlers -/

/-- The type of what is handled, and a name for it. -/
def handledType : Reading Syntax := do
  let value ← r.part .expression
  newName
  return value

/-- Mistakes in a handler. -/
def handlerMistakes : Reading Syntax := doubt [
  do
    let _ ← keyword "except"
    let _ ← optional (symbol "*")
    let part ← r.part .expression
    let _ ← comma
    let _ ← r.part .bareExpressions
    newName
    let _ ← symbol ":"
    blame part .bareExceptionTypes,
  do
    let _ ← keyword "except"
    let _ ← optional (symbol "*")
    let _ ← handledType r
    colonMissing,
  do
    let _ ← keyword "except"
    colonMissing,
  do
    let _ ← keyword "except"
    let _ ← symbol "*"
    let _ ← first [newline, symbol ":"]
    blameHere .exceptionTypeMissing]

/-- A handler. -/
def handler : Reading Syntax := first [
  doubt [
    do
      let t ← keyword "except"
      let _ ← handledType r
      blockMissing "'except' statement" t,
    wordBlockMissing "except" "'except' statement"],
  spanned do
    let _ ← keyword "except"
    let value ← handledType r
    let inner ← body r
    return fun lines => .plain .handler lines (value :: inner),
  spanned do
    let _ ← keyword "except"
    let inner ← body r
    return fun lines => .plain .handler lines inner,
  handlerMistakes r]

/-- A handler for a group. -/
def groupHandler : Reading Syntax := first [
  doubt [do
    let t ← keyword "except"
    let _ ← symbol "*"
    let _ ← handledType r
    blockMissing "'except*' statement" t],
  spanned do
    let _ ← keyword "except"
    let _ ← symbol "*"
    let value ← handledType r
    let inner ← body r
    return fun lines => .plain .handler lines (value :: inner),
  handlerMistakes r]

/-- What is done at last. -/
def finally' : Reading (List Syntax) := first [
  doubt [wordBlockMissing "finally" "'finally' statement"],
  do
    let _ ← keyword "finally"
    demandedBody r]

/-- Mistakes in a statement with handlers. -/
def tryMistakes : Reading Syntax := doubt [
  wordBlockMissing "try" "'try' statement",
  do
    let _ ← keyword "try"
    let _ ← body r
    notAhead (keywordOf ["except", "finally"])
    blameHere .handlerMissing,
  do
    let _ ← keyword "try"
    let _ ← symbol ":"
    let _ ← many (r.parts .block)
    let _ ← first [
      do
        let _ ← several (handler r)
        groupHandler r,
      do
        let _ ← several (groupHandler r)
        handler r]
    let _ ← many (r.parts .block)
    blameHere .mixedHandlers]

/-- A statement with handlers, or with what is done at last, or with both. -/
def tryBlock : Reading Syntax := do
  let handled (form : Form) (found : Reading Syntax) : Reading (Lines → Syntax) := do
    let _ ← keyword "try"
    let inner ← demandedBody r
    let handlers ← several found
    let rest ← otherwise r
    let last := (← optional (finally' r)).getD []
    return fun lines => .plain form lines (inner ++ handlers ++ rest ++ last)
  first [
    tryMistakes r,
    spanned do
      let _ ← keyword "try"
      let inner ← demandedBody r
      let last ← finally' r
      return fun lines => .plain .tryBlock lines (inner ++ last),
    spanned (handled .tryBlock (handler r)),
    spanned (handled .tryGroupBlock (groupHandler r))]

/-! ## Matches -/

/-- What is matched. -/
def matched : Reading Syntax := first [
  spanned do
    let head ← r.part .starNamedExpression
    let _ ← comma
    let rest := (← optional (elements r)).getD []
    return fun lines => .plain .tuple lines (head :: rest ++ [loaded]),
  r.part .namedExpression]

/-- The pattern and the guard of a case. -/
def caseHead : Reading (Syntax × Option Syntax) := do
  let _ ← softKeyword "case"
  let found ← r.part .patterns
  let guard ← optional do
    let _ ← keyword "if"
    r.part .namedExpression
  return (found, guard)

/-- A case. -/
def case' : Reading Case := first [
  doubt [
    do
      let _ ← caseHead r
      colonMissing,
    do
      let t ← current
      let _ ← caseHead r
      blockMissing "'case' statement" t],
  do
    let (found, guard) ← caseHead r
    match ← body r with
    | head :: rest => return .mk found guard head rest
    | [] => refuse]

/-- A match statement. -/
def matchStatement : Reading Syntax := do
  let start ← startLine
  let head : Reading Syntax := do
    let _ ← softKeyword "match"
    matched r
  first [
    do
      let subject ← head
      let _ ← symbol ":"
      let _ ← newline
      let _ ← tokenOf .indent
      let cases ← several (case' r)
      let _ ← tokenOf .dedent
      return .matching (← linesFrom start) subject cases,
    doubt [
      do
        let _ ← head
        colonMissing,
      do
        let t ← current
        let _ ← head
        blockMissing "'match' statement" t]]

/-! ## Functions and classes -/

/-- The decorators of a function or a class. -/
def decorators : Reading (List Syntax) := many do
  let _ ← symbol "@"
  let value ← r.part .namedExpression
  let _ ← newline
  return value

/-- What a function answers, as an annotation. -/
def answerAnnotation : Reading (Option Syntax) := optional do
  let _ ← symbol "->"
  r.part .expression

/-- A function; its lines begin below its decorators. -/
def functionDefinition : Reading Syntax := do
  let around ← decorators r
  first [
    doubt [do
      asynchronous
      let t ← keyword "def"
      let _ ← name
      let _ ← enclosed "(" ")" (parameters r .function)
      let _ ← answerAnnotation r
      blockMissing "function definition" t],
    spanned do
      asynchronous
      let _ ← keyword "def"
      let t ← name
      let _ ← demanded "("
      let found ← parameters r .function
      let _ ← symbol ")"
      let answer ← answerAnnotation r
      let inner ← demandedBody r
      return fun lines =>
        .function (some t.text) lines found.names inner (around ++ [found.node] ++ answer.toList)]

/-- The name of a class and what stands in the parentheses behind it. -/
def classHead : Reading (List Syntax) := do
  let _ ← name
  return (← optional (argumentsInParentheses r)).getD []

/-- A class; its lines begin below its decorators. -/
def classDefinition : Reading Syntax := do
  let around ← decorators r
  first [
    doubt [
      do
        let _ ← keyword "class"
        let _ ← classHead r
        colonMissing,
      do
        let t ← keyword "class"
        let _ ← classHead r
        blockMissing "class definition" t],
    spanned do
      let _ ← keyword "class"
      let bases ← classHead r
      let inner ← body r
      return fun lines => .classDef lines (bases ++ inner ++ around)]

/-! ## Whole sources -/

/-- A statement with blocks. What it begins with decides which ones come into question. -/
def compoundStatement : Reading Syntax := do
  let t ← current
  let word := if t.sort = .keyword then t.text else ""
  let decorated := t.sort = .symbol ∧ t.text = "@"
  let candidates : List (Bool × Reading Syntax) := [
    (word = "def" || decorated || word = "async", functionDefinition r),
    (word = "if", conditional r "if"),
    (word = "class" || decorated, classDefinition r),
    (word = "with" || word = "async", resourceBlock r),
    (word = "for" || word = "async", forLoop r),
    (word = "try", tryBlock r),
    (word = "while", whileLoop r),
    (t.sort = .name, matchStatement r)]
  first ((candidates.filter Prod.fst).map Prod.snd)

/-- A statement, or the simple statements of a line. -/
def statement : Reading (List Syntax) :=
  first [List.singleton <$> compoundStatement r, simpleStatements r]

/-- A whole source. -/
def file : Reading Module := do
  let found ← many (r.parts .statement)
  let _ ← tokenOf .finish
  return ⟨found.flatten⟩

end MethodLint.Source.Grammar
