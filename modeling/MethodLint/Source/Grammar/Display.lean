import MethodLint.Source.Assignable
import MethodLint.Source.Reading

/-!
What stands between brackets: groups, tuples, lists, sets, dictionaries, and the comprehensions, whose
elements are followed by loops over generators.
-/
namespace MethodLint.Source.Grammar

open Reading

variable (r : Rules)

/-- The context of what is only read. -/
def loaded : Syntax := .leaf .load

/-- What stands between two brackets. -/
def enclosed {α : Type} (opening closing : String) (x : Reading α) : Reading α := do
  let _ ← symbol opening
  let a ← x
  let _ ← symbol closing
  return a

/-- A comma. -/
def comma : Reading Token := symbol ","

/-- A mistake in a display, blamed on a part. -/
def displayBlame (part : Syntax) (mistake : DisplayMistake) : Reading (Option Objection) :=
  blame part (.display mistake)

/-! ## Elements -/

/-- An expression behind a star. -/
def starred : Reading Syntax := spanned do
  let _ ← symbol "*"
  let value ← r.part .expression
  return fun lines => .plain .starred lines [value, loaded]

/-- An operand behind a star. -/
def starredOperand : Reading Syntax := spanned do
  let _ ← symbol "*"
  let value ← r.part .bitwiseOr
  return fun lines => .plain .starred lines [value, loaded]

/-- The elements of a list, a set or a tuple; a comma may follow the last. -/
def elements : Reading (List Syntax) := do
  let found ← separated comma (r.part .starNamedExpression)
  let _ ← optional comma
  return found

/-- A name that a value is assigned to inside an expression. -/
def assignmentExpression : Reading Syntax := spanned do
  let target ← spanned do
    let t ← name
    return fun lines => .name t.text .store lines
  let _ ← symbol ":="
  let value ← r.part .expression
  return fun lines => .plain .namedExpression lines [target, value]

/-- An expression that is no assignment's name. -/
def unassigned : Reading Syntax := do
  let value ← r.part .expression
  notAhead (symbol ":=")
  return value

/-! ## Generators -/

/-- The target of a loop cannot be assigned to. -/
def loopTargetMistake {α : Type} : Reading α := doubt [do
  let _ ← optional (keyword "async")
  let _ ← keyword "for"
  match (← r.part .starExpressions).misfit? .loop with
  | some part => blame part (.cannotAssign part.description)
  | none => noBlame]

/-- What follows the `in` of a generator. -/
def generatorRest (target : Syntax) : Reading Generator := do
  let iterable ← r.part .disjunction
  let conditions ← many do
    let _ ← keyword "if"
    r.part .disjunction
  return .mk target iterable conditions

/-- The opening of a generator, up to its `in`. -/
def generatorOpening : Reading Syntax := do
  let _ ← keyword "for"
  let target ← r.part .starTargets
  let _ ← keyword "in"
  return target

/-- A generator with its conditions. -/
def generator : Reading Generator :=
  committed (do let _ ← keyword "async"; generatorOpening r) (generatorRest r)
    (committed (generatorOpening r) (generatorRest r) (loopTargetMistake r))

/-- The generators of a comprehension. -/
def generators : Reading (List Generator) := several (generator r)

/-- Elements that cannot be those of a comprehension. -/
def comprehensionMistakes : Reading Syntax := doubt [
  do
    let _ ← first [symbol "[", symbol "(", symbol "\x7b"]
    let part ← starred r
    let _ ← generators r
    displayBlame part .unpackingInComprehension,
  do
    let _ ← first [symbol "[", symbol "\x7b"]
    let part ← r.part .starNamedExpression
    let _ ← comma
    let _ ← elements r
    let _ ← generators r
    displayBlame part .bareTarget,
  do
    let _ ← first [symbol "[", symbol "\x7b"]
    let part ← r.part .starNamedExpression
    let _ ← comma
    let _ ← generators r
    displayBlame part .bareTarget]

/-- A comprehension of one element between brackets. -/
def comprehension (sort : Comprehension) (opening closing : String) (element : Reading Syntax) :
    Reading Syntax := first [
  spanned (enclosed opening closing do
    let element ← element
    let found ← generators r
    return fun lines => .comprehension sort lines [element] found),
  comprehensionMistakes r]

/-- A generator expression. -/
def generatorExpression : Reading Syntax :=
  comprehension r .generator "(" ")" (first [assignmentExpression r, unassigned r])

/-! ## Lists, tuples and groups -/

/-- A list or a list comprehension. -/
def listDisplay : Reading Syntax := spanned (enclosed "[" "]" do
  let found := (← optional (elements r)).getD []
  return fun lines => .plain .list lines (found ++ [loaded]))

/-- A tuple in parentheses. Without elements it is empty; one element needs a comma. -/
def tupleDisplay : Reading Syntax := spanned (enclosed "(" ")" do
  let found ← optional do
    let head ← r.part .starNamedExpression
    let _ ← comma
    return head :: (← optional (elements r)).getD []
  return fun lines => .plain .tuple lines (found.getD [] ++ [loaded]))

/-- What a generator passes on, or waits for. -/
def yielded : Reading Syntax := first [
  spanned do
    let _ ← keyword "yield"
    let _ ← keyword "from"
    let value ← r.part .expression
    return fun lines => .plain .yieldingFrom lines [value],
  spanned do
    let _ ← keyword "yield"
    let value ← optional (r.part .starExpressions)
    return fun lines => .plain .yielding lines value.toList]

/-- An expression in parentheses, which are not part of it. -/
def group : Reading Syntax := first [
  enclosed "(" ")" (first [yielded r, r.part .namedExpression]),
  doubt [
    do
      let part ← enclosed "(" ")" (starred r)
      displayBlame part .starInGroup,
    do
      let _ ← symbol "("
      let t ← symbol "**"
      let _ ← r.part .expression
      let _ ← symbol ")"
      blameToken t (.display .doubleStarInGroup)]]

/-! ## Sets and dictionaries -/

/-- An entry of a dictionary: its key, if it is not unpacked, and its value. -/
structure DictionaryEntry where
  key? : Option Syntax
  value : Syntax

/-- A key and a value. -/
def keyAndValue : Reading DictionaryEntry := do
  let key ← r.part .expression
  let _ ← symbol ":"
  return ⟨some key, ← r.part .expression⟩

/-- An entry of a dictionary. -/
def dictionaryEntry : Reading DictionaryEntry := first [
  do
    let _ ← symbol "**"
    return ⟨none, ← r.part .bitwiseOr⟩,
  keyAndValue r]

/-- A key without a value. -/
def valueMissing : Reading (Option Objection) := do
  let _ ← r.part .expression
  let t ← symbol ":"
  ahead (first [symbol "\x7d", comma])
  blameToken t (.display .valueMissing)

/-- A value behind a star. -/
def starredValue : Reading (Option Objection) := do
  let _ ← r.part .expression
  let _ ← symbol ":"
  let t ← symbol "*"
  let _ ← r.part .bitwiseOr
  blameToken t (.display .starredValue)

/-- The last entry of a dictionary is wrong. -/
def entryMistakes : Reading (Option Objection) := mistakes [
  do
    let key ← r.part .expression
    notAhead (symbol ":")
    displayBlame key .colonMissing,
  starredValue r,
  valueMissing r]

/-- The entries of a dictionary are wrong. These mistakes are looked for at once. -/
def dictionaryMistakes : Reading Syntax := do
  let _ ← symbol "\x7b"
  mistakes [
    do
      let _ ← separated comma (dictionaryEntry r)
      let _ ← comma
      entryMistakes r,
    starredValue r,
    valueMissing r]

/-- A dictionary: all keys, then all values. -/
def dictionaryDisplay : Reading Syntax := first [
  spanned (enclosed "\x7b" "\x7d" do
    let found ← optional do
      let found ← separated comma (dictionaryEntry r)
      let _ ← optional comma
      return found
    let entries := found.getD []
    return fun lines => .plain .dictionary lines
      (entries.filterMap DictionaryEntry.key? ++ entries.map DictionaryEntry.value)),
  dictionaryMistakes r]

/-- A set, which has elements. -/
def setDisplay : Reading Syntax := spanned (enclosed "\x7b" "\x7d" do
  let found ← elements r
  return fun lines => .plain .setDisplay lines found)

/-- A dictionary comprehension. -/
def dictionaryComprehension : Reading Syntax := first [
  spanned (enclosed "\x7b" "\x7d" do
    let entry ← keyAndValue r
    let found ← generators r
    return fun lines => .comprehension .dictionary lines (entry.key?.toList ++ [entry.value]) found),
  doubt [do
    let _ ← symbol "\x7b"
    let t ← symbol "**"
    let _ ← r.part .bitwiseOr
    let _ ← generators r
    let _ ← symbol "\x7d"
    blameToken t (.display .dictionaryUnpacking)]]

end MethodLint.Source.Grammar
