import MethodLint.Source.Grammar.Call

/-!
What can be assigned to or deleted: names, attributes, subscripts, and lists and tuples of such. One
target of an assignment may have a star.
-/
namespace MethodLint.Source.Grammar

open Reading

variable (r : Rules)

/-- What follows if an expression goes on. -/
def goesOn : Reading Unit := ahead (first [symbol "(", symbol "[", symbol "."])

/-- An expression that is only the beginning of a longer one. -/
def targetPrimary : Reading Syntax := do
  let start ← startLine
  let head ← r.part .atom
  goesOn
  extend (fun subject => do
    let extended ← trailer r start subject
    goesOn
    return extended) head

/-- An attribute or a subscript that ends here. -/
def member (context : Context) : Reading Syntax := do
  let ends : Reading Unit := notAhead goesOn
  first [
    spanned do
      let subject ← r.part .targetPrimary
      let _ ← symbol "."
      let _ ← name
      ends
      return fun lines => .plain .attribute lines [subject, .leaf context.form],
    spanned do
      let subject ← r.part .targetPrimary
      let index ← indexInBrackets r
      ends
      return fun lines => .plain .subscript lines [subject, index, .leaf context.form]]

/-- A name in a context. -/
def nameIn (context : Context) : Reading Syntax := spanned do
  let t ← name
  return fun lines => .name t.text context lines

/-- A list or tuple of parts between brackets. -/
def sequenceIn (context : Context) (form : Form) (opening closing : String)
    (parts : Reading (List Syntax)) : Reading Syntax := spanned (enclosed opening closing do
  let found := (← optional parts).getD []
  return fun lines => .plain form lines (found ++ [.leaf context.form]))

/-! ## Targets of assignments -/

/-- Some targets; a comma may follow the last. -/
def targetList : Reading (List Syntax) := do
  let found ← separated comma (r.part .starTarget)
  let _ ← optional comma
  return found

/-- The targets of a tuple: one of them needs a comma. -/
def targetTuple : Reading (List Syntax) := do
  let head ← r.part .starTarget
  let _ ← comma
  return head :: (← optional (targetList r)).getD []

/-- A target in brackets, or a name. -/
def bracketedTarget : Reading Syntax := first [
  nameIn .store,
  Syntax.withContext .store <$> enclosed "(" ")" (r.part .targetWithStarAtom),
  sequenceIn .store .tuple "(" ")" (targetTuple r),
  sequenceIn .store .list "[" "]" (targetList r)]

/-- A target without a star. -/
def targetWithStarAtom : Reading Syntax := first [member r .store, bracketedTarget r]

/-- A target, which may have a star. -/
def starTarget : Reading Syntax := first [
  spanned do
    let _ ← symbol "*"
    notAhead (symbol "*")
    let target ← r.part .starTarget
    return fun lines => .plain .starred lines [target.withContext .store, .leaf .store],
  r.part .targetWithStarAtom]

/-- The targets of an assignment or a loop. -/
def starTargets : Reading Syntax := do
  let start ← startLine
  let head ← r.part .starTarget
  match ← optional comma with
  | none => return head
  | some _ =>
    let rest := (← optional (targetList r)).getD []
    return .plain .tuple (← linesFrom start) (head :: rest ++ [.leaf .store])

/-- A single target without a star. -/
def singleTarget : Reading Syntax :=
  first [member r .store, nameIn .store, enclosed "(" ")" (r.part .singleTarget)]

/-! ## Targets of deletions -/

/-- Some targets of a deletion. -/
def deletionTargets : Reading (List Syntax) := do
  let found ← separated comma (r.part .deletionTarget)
  let _ ← optional comma
  return found

/-- A target of a deletion. -/
def deletionTarget : Reading Syntax := first [
  member r .del,
  nameIn .del,
  Syntax.withContext .del <$> enclosed "(" ")" (r.part .deletionTarget),
  sequenceIn .del .tuple "(" ")" (deletionTargets r),
  sequenceIn .del .list "[" "]" (deletionTargets r)]

end MethodLint.Source.Grammar
