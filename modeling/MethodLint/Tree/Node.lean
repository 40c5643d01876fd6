import MethodLint.Value.Display

/-!
The tree that is measured. A node has a kind, a span of lines and ordered children. Any text may be
a kind; a few kinds have a shape of their own with one more field, and every other node is plain.
What a field holds is not checked here: a document may put any value there, and whoever needs the
field looks.
-/
namespace MethodLint

/-! ## Kinds that are looked at; any other is inert -/

namespace Kind

def compilationUnit : String := "CompilationUnit"
def methodDeclaration : String := "MethodDeclaration"
def ifStatement : String := "If"
def forLoop : String := "For"
def whileLoop : String := "While"
def doLoop : String := "Do"
def switch : String := "Switch"
def switchLabel : String := "SwitchLabel"
def tryBlock : String := "Try"
def catchClause : String := "Catch"
def conditionalExpr : String := "ConditionalExpr"
def variableDeclarator : String := "VariableDeclarator"

end Kind

/-- The shapes of a node. -/
inductive Shape
  | plain
  | compilationUnit
  | methodDeclaration
  | conditionalExpr
  | switchLabel
  | variableDeclarator
  deriving DecidableEq, Repr

namespace Shape

/-- The shape that nodes of a kind have when they are built for that kind. -/
def ofKind (kind : String) : Shape :=
  if kind = Kind.compilationUnit then .compilationUnit
  else if kind = Kind.methodDeclaration then .methodDeclaration
  else if kind = Kind.conditionalExpr then .conditionalExpr
  else if kind = Kind.switchLabel then .switchLabel
  else if kind = Kind.variableDeclarator then .variableDeclarator
  else .plain

/-- The name of the shape's own field. -/
def field? : Shape → Option String
  | .plain => none
  | .compilationUnit => some "path"
  | .methodDeclaration => some "name"
  | .conditionalExpr => some "is_ternary"
  | .switchLabel => some "is_default"
  | .variableDeclarator => some "name"

/-- The name of a shape. -/
def label : Shape → String
  | .plain => "AstNode"
  | .compilationUnit => Kind.compilationUnit
  | .methodDeclaration => Kind.methodDeclaration
  | .conditionalExpr => Kind.conditionalExpr
  | .switchLabel => Kind.switchLabel
  | .variableDeclarator => Kind.variableDeclarator

/-- The shape of a name. -/
def ofLabel? (name : String) : Option Shape :=
  [plain, compilationUnit, methodDeclaration, conditionalExpr, switchLabel, variableDeclarator].find?
    fun shape => shape.label = name

/-- The kind of a node that is built by its shape. A plain node has none of its own. -/
def kind? : Shape → Option String
  | .plain => none
  | shape => some shape.label

end Shape

/-- A shape with what its own field holds; null where nothing was given. -/
inductive Variant
  | plain
  | compilationUnit (path : Value)
  | methodDeclaration (name : Value)
  | conditionalExpr (isTernary : Value)
  | switchLabel (isDefault : Value)
  | variableDeclarator (name : Value)
  deriving Inhabited

namespace Variant

/-- The shape of a variant. -/
def shape : Variant → Shape
  | .plain => .plain
  | .compilationUnit _ => .compilationUnit
  | .methodDeclaration _ => .methodDeclaration
  | .conditionalExpr _ => .conditionalExpr
  | .switchLabel _ => .switchLabel
  | .variableDeclarator _ => .variableDeclarator

/-- What the field of a variant holds. -/
def detail : Variant → Value
  | .plain => .null
  | .compilationUnit v | .methodDeclaration v | .conditionalExpr v | .switchLabel v
  | .variableDeclarator v => v

/-- A shape with a value in its field. -/
def of (shape : Shape) (v : Value) : Variant :=
  match shape with
  | .plain => .plain
  | .compilationUnit => .compilationUnit v
  | .methodDeclaration => .methodDeclaration v
  | .conditionalExpr => .conditionalExpr v
  | .switchLabel => .switchLabel v
  | .variableDeclarator => .variableDeclarator v

end Variant

/-- A node without its children. -/
structure Header where
  kind : String
  beginLine : Value
  endLine : Value
  variant : Variant
  deriving Inhabited

namespace Header

/-- A plain node of a kind, with the lines it spans. -/
def plain (kind : String) (beginLine endLine : Value) : Header := ⟨kind, beginLine, endLine, .plain⟩

/-- The name of a header's shape. -/
def shape (h : Header) : Shape := h.variant.shape

end Header

/-- A node with its children. -/
inductive Node
  | mk (header : Header) (children : List Node)
  deriving Inhabited

namespace Node

/-- The node without its children. -/
def header : Node → Header
  | .mk h _ => h

/-- The children in order. -/
def children : Node → List Node
  | .mk _ cs => cs

/-- The kind of a node. -/
def kind (n : Node) : String := n.header.kind

@[simp] theorem header_mk (h : Header) (cs : List Node) : (Node.mk h cs).header = h := rfl

@[simp] theorem children_mk (h : Header) (cs : List Node) : (Node.mk h cs).children = cs := rfl

/-- The number of nodes of a tree. -/
def size : Node → Nat
  | .mk _ cs => 1 + sizeAll cs
where
  sizeAll : List Node → Nat
  | [] => 0
  | c :: cs => c.size + sizeAll cs

/-- A tree has at least its root. -/
theorem size_pos (n : Node) : 0 < n.size := by
  cases n
  simp only [size]
  omega

end Node

end MethodLint
