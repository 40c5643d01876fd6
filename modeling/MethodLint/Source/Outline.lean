import MethodLint.Source.Syntax
import MethodLint.Tree.Node

/-!
The outline of a source: the tree that is measured. Every function becomes a method declaration;
its decorators, parameters and annotations are evaluated around it and are left out. A match
statement becomes a switch whose children are the subject and then a label and a body for each case,
so that the last child is never a label. A comprehension is laid out like the statements that it
stands for: each generator is a loop inside the one before it, each condition a branch inside its
loop, and what is produced sits innermost. The first binding of a name in a scope is a variable
declarator; functions and classes open scopes, and a function's starts with its parameters.

The scopes form a stack. What is converted reads and extends the top of it only, and every scope
that is opened is closed again.
-/
namespace MethodLint.Source

/-- The names bound in the innermost scope and in those around it. -/
structure Scopes where
  top : List String
  below : List (List String)
  deriving DecidableEq, Repr, Inhabited

namespace Scopes

/-- Opens a scope in which some names are bound. -/
def push (s : Scopes) (bound : List String) : Scopes := ⟨bound, s.top :: s.below⟩

/-- Closes the innermost scope; the last one stays. -/
def pop (s : Scopes) : Scopes :=
  match s.below with
  | [] => s
  | top :: below => ⟨top, below⟩

/-- Binds a name in the innermost scope. -/
def bind (s : Scopes) (name : String) : Scopes :=
  if s.top.contains name then s else { s with top := name :: s.top }

end Scopes

/-- A plain node over some lines. -/
def plainHeader (kind : String) (lines : Lines) : Header :=
  .plain kind (.ofLine? lines.first) (.ofLine? lines.last)

/-- A node of a variant over some lines. -/
def variantHeader (kind : String) (lines : Lines) (variant : Variant) : Header :=
  ⟨kind, .ofLine? lines.first, .ofLine? lines.last, variant⟩

namespace Form

/-- The kind of the node of a form: control constructs have kinds of their own. -/
def kind : Form → String
  | .conditional => Kind.ifStatement
  | .forLoop | .asyncForLoop => Kind.forLoop
  | .whileLoop => Kind.whileLoop
  | .tryBlock | .tryGroupBlock => Kind.tryBlock
  | .handler => Kind.catchClause
  | form => form.label

/-- The node of a form. A choice between two values is a ternary conditional expression; a chain of
`and` or `or` is one that is not ternary. -/
def header (form : Form) (lines : Lines) : Header :=
  match form with
  | .choice => variantHeader Kind.conditionalExpr lines (.conditionalExpr (.bool true))
  | .booleanOperation => variantHeader Kind.conditionalExpr lines (.conditionalExpr (.bool false))
  | form => plainHeader form.kind lines

end Form

/-- The node of a name: a declarator if this binds the name for the first time in its scope. The
context is a child of it. -/
def nameNode (id : String) (context : Context) (lines : Lines) (scopes : Scopes) : Node × Scopes :=
  let children := [Node.mk (context.form.header .none) []]
  if context = .store ∧ ¬ scopes.top.contains id then
    (.mk (variantHeader Kind.variableDeclarator lines (.variableDeclarator (.str id))) children,
      scopes.bind id)
  else (.mk (plainHeader "Name" lines) children, scopes)

/-- What is laid out inside something else: some nodes, made where the scopes stand by then. -/
abbrev Inside := Scopes → List Node × Scopes

mutual

/-- The node of a part of a source, and the scopes after it. -/
def Syntax.outline : Syntax → Scopes → Node × Scopes
  | .plain form lines parts, scopes =>
    let inner := outlineAll parts scopes
    (.mk (form.header lines) inner.1, inner.2)
  | .name id context lines, scopes => nameNode id context lines scopes
  | .outer scope _ lines, scopes => (.mk (plainHeader scope.label lines) [], scopes)
  | .function name lines parameters body _, scopes =>
    let inner := outlineAll body (scopes.push parameters)
    (.mk (variantHeader Kind.methodDeclaration lines (.methodDeclaration (.ofText? name))) inner.1,
      inner.2.pop)
  | .classDef lines parts, scopes =>
    let inner := outlineAll parts (scopes.push [])
    (.mk (plainHeader "ClassDef" lines) inner.1, inner.2.pop)
  | .matching lines subject cases, scopes =>
    let first := subject.outline scopes
    let inner := outlineCases cases first.2
    (.mk (plainHeader Kind.switch lines) (first.1 :: inner.1), inner.2)
  | .comprehension sort lines elements generators, scopes =>
    let inner := outlineGenerators generators (outlineAll elements) scopes
    (.mk (plainHeader sort.label lines) inner.1, inner.2)

/-- The nodes of some parts, one after the other. -/
def outlineAll : List Syntax → Scopes → List Node × Scopes
  | [], scopes => ([], scopes)
  | part :: rest, scopes =>
    let first := part.outline scopes
    let later := outlineAll rest first.2
    (first.1 :: later.1, later.2)

/-- The labels and bodies of some cases. -/
def outlineCases : List Case → Scopes → List Node × Scopes
  | [], scopes => ([], scopes)
  | c :: rest, scopes =>
    let here := c.outline scopes
    let later := outlineCases rest here.2
    (here.1 ++ later.1, later.2)

/-- The label and the body of a case. -/
def Case.outline : Case → Scopes → List Node × Scopes
  | .mk pattern guard first rest, scopes =>
    let matched := pattern.outline scopes
    let guarded : List Node × Scopes := match guard with
      | none => ([], matched.2)
      | some condition =>
        let node := condition.outline matched.2
        ([node.1], node.2)
    let opening := first.outline guarded.2
    let body := outlineAll rest opening.2
    let flag := Value.bool (Case.mk pattern guard first rest).isDefault
    ([.mk (variantHeader Kind.switchLabel pattern.lines (.switchLabel flag))
        (matched.1 :: guarded.1),
      .mk (plainHeader "CaseBody" (Case.mk pattern guard first rest).bodyLines)
        (opening.1 :: body.1)], body.2)

/-- The loops of some generators, one inside the other, around `inside`. -/
def outlineGenerators : List Generator → Inside → Inside
  | [], inside, scopes => inside scopes
  | g :: rest, inside, scopes => g.outline (outlineGenerators rest inside) scopes

/-- The loop of a generator around `inside`. -/
def Generator.outline : Generator → Inside → Inside
  | .mk target iterable conditions, inside, scopes =>
    let goal := target.outline scopes
    let source := iterable.outline goal.2
    let inner := outlineConditions conditions inside source.2
    ([.mk (plainHeader Kind.forLoop target.lines) (goal.1 :: source.1 :: inner.1)], inner.2)

/-- The branches of some conditions, one inside the other, around `inside`. -/
def outlineConditions : List Syntax → Inside → Inside
  | [], inside, scopes => inside scopes
  | condition :: rest, inside, scopes =>
    let tested := condition.outline scopes
    let inner := outlineConditions rest inside tested.2
    ([.mk (plainHeader Kind.ifStatement condition.lines) (tested.1 :: inner.1)], inner.2)

end

/-- The outline of a source: a compilation unit that begins at line 1 and ends at the last line. -/
def Module.outline (m : Module) (path : String) (lineCount : Int) : Node :=
  .mk ⟨Kind.compilationUnit, .int 1, .int lineCount, .compilationUnit (.str path)⟩
    (outlineAll m.body ⟨[], []⟩).1

end MethodLint.Source
