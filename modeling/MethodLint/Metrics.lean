import MethodLint.Policy
import MethodLint.Traced
import MethodLint.Tree.Walk

/-!
The four metrics of a method: its line span, its declared variables, its decision points, and how
deeply control constructs are nested in it. Each is a function of the method's own subtree, so
methods can be measured in any order and nothing around a method matters.
-/
namespace MethodLint

/-- A named method with the subtree that it heads. -/
structure Method where
  name : Value
  beginLine : Value
  endLine : Value
  children : List Node

namespace Kind

/-- A kind that adds one decision point; switches and conditional expressions are counted apart. -/
def isDecision (kind : String) : Bool :=
  kind = forLoop || kind = ifStatement || kind = whileLoop || kind = catchClause || kind = doLoop

/-- A kind that opens a level of nesting. -/
def opensLevel (kind : String) : Bool :=
  kind = forLoop || kind = ifStatement || kind = whileLoop || kind = tryBlock || kind = switch

end Kind

namespace Header

/-- The header opens a level of nesting. -/
def opensLevel (h : Header) : Bool := Kind.opensLevel h.kind

/-- Whether a conditional expression is a ternary one. Any other shape, or no flag, is a defect. -/
def ternary? (h : Header) : Except Fault Bool :=
  match h.variant with
  | .conditionalExpr flag =>
    if flag.isNull then .error (.tree (.noTernaryFlag h.beginLine.text)) else .ok flag.isTruthy
  | _ => .error (.tree (.noTernaryFlag h.beginLine.text))

/-- Whether a switch label is the default. Any other shape, or no flag, is a defect. -/
def default? (h : Header) : Except Fault Bool :=
  match h.variant with
  | .switchLabel flag =>
    if flag.isNull then .error (.tree (.noDefaultFlag h.beginLine.text)) else .ok flag.isTruthy
  | _ => .error (.tree (.noDefaultFlag h.beginLine.text))

/-- The name of a method declaration. Any other shape, or no name, is a defect. -/
def methodName? (h : Header) : Except Fault Value :=
  match h.variant with
  | .methodDeclaration name =>
    if name.isNull then .error (.tree (.notANamedMethod h.kind h.beginLine.text)) else .ok name
  | _ => .error (.tree (.notANamedMethod h.kind h.beginLine.text))

end Header

namespace Method

/-- The method that a node declares. -/
def ofNode (n : Node) : Except Fault Method := do
  let name ← n.header.methodName?
  return ⟨name, n.header.beginLine, n.header.endLine, n.children⟩

/-- Every node below the method. -/
def descendants (m : Method) : List Node := (Node.walk #[] m.children).toList

/-- The line span: last line less first line, and 0 where one of them is not known. -/
def loc (m : Method) : Except Fault Value :=
  if m.beginLine.isNull || m.endLine.isNull then .ok (.int 0) else m.endLine.sub m.beginLine

/-- What the log gets when the line span is taken. -/
def locRecords (m : Method) : List Record :=
  if m.beginLine.isNull || m.endLine.isNull then
    [⟨.warning, s!"Method {m.name.text} has no line range; LOC treated as 0"⟩]
  else []

/-- The number of variable declarators below the method. -/
def noav (m : Method) : Nat :=
  m.descendants.countP fun n => n.kind = Kind.variableDeclarator

/-- The number of labels of a switch that are not the default. The last child is a body, never a
label, and is not looked at. -/
def caseLabels (switch : Node) : Except Fault Nat :=
  switch.children.dropLast.foldlM (fun count child =>
    if child.kind = Kind.switchLabel then
      (child.header.default?).map fun isDefault => if isDefault then count else count + 1
    else .ok count) 0

/-- The decision points that one node adds. -/
def decisions (n : Node) : Except Fault Nat :=
  if Kind.isDecision n.kind then .ok 1
  else if n.kind = Kind.conditionalExpr then
    (n.header.ternary?).map fun isTernary => if isTernary then 1 else 0
  else if n.kind = Kind.switch then (caseLabels n).map (1 + ·)
  else .ok 0

/-- Cyclomatic complexity: one for a body that is not empty, and the decision points of every node
below the method. -/
def cyclo (m : Method) : Except Fault Nat :=
  m.descendants.foldlM (fun total n => (decisions n).map (total + ·))
    (if m.children.isEmpty then 0 else 1)

/-- For every control construct below the method in order, how many such constructs enclose it
inside the method. -/
def nestingLevels (m : Method) : List Nat :=
  ((Node.walkLevels Header.opensLevel #[] (Node.atLevel 0 m.children)).toList.filter
    fun entry => entry.1.opensLevel).map Prod.snd

/-- The first level beyond a threshold settles it. -/
def anyExceeds (threshold : Value) : List Nat → Except Fault Bool
  | [] => .ok false
  | level :: rest => do
    if ← (Value.int level).exceeds threshold then return true
    anyExceeds threshold rest

/-- Some construct is nested more deeply than the threshold. -/
def nestingExceeds (m : Method) (threshold : Value) : Except Fault Bool :=
  anyExceeds threshold m.nestingLevels

/-- The greatest of some levels, 0 if there is none. -/
def deepest (levels : List Nat) : Nat := levels.foldl max 0

/-- The greatest level of nesting. -/
def nestingDepth (m : Method) : Nat := deepest m.nestingLevels

/-- The four metrics of a method whose control constructs lie at the given levels. -/
def measureAt (m : Method) (levels : List Nat) (t : Thresholds) : Except Fault Snapshot := do
  let loc ← m.loc
  let cyclo ← m.cyclo
  let exceeds ← anyExceeds t.maxnesting levels
  return ⟨loc, cyclo, exceeds, m.noav⟩

/-- The four metrics of a method. -/
def measure (m : Method) (t : Thresholds) : Except Fault Snapshot := m.measureAt m.nestingLevels t

end Method

end MethodLint
