import MethodLint.FilePath
import MethodLint.Json.Reader
import MethodLint.Traced
import MethodLint.Tree.Document
import MethodLint.Yaml.Reader

/-!
From the text of a tree document to the tree that is measured. The document is in one of two formats,
told apart by the extension of its file. Its tree becomes a compilation unit: a root of that kind is
one already and only gets the path of the file if it has none; any other root becomes the single
child of a new one that spans the same lines.
-/
namespace MethodLint.Tree

/-- How deeply a document may be nested to be read. -/
def depthLimit : Nat := 985

/-- The extension of the format that the other one is told apart from. -/
def jsonExtension : String := ".json"

/-- The value of a document. -/
def valueOf (path : FilePath) (text : String) : Except Fault Value :=
  if path.comparedExtension = jsonExtension then
    match Json.read depthLimit text with
    | .ok v => .ok v
    | .error (.fault e) => .error e
    | .error (.grammar expected index) =>
      .error (.source path.text ("invalid JSON: " ++ Json.grammarMessage text expected index))
  else match Yaml.read text with
    | .ok v => .ok v
    | .error (.fault e) => .error e
    | .error .malformed => .error (.source path.text "invalid YAML: <yaml>")

/-- Whether a fault says that a value describes no tree. -/
def isDefect (e : Fault) : Bool :=
  e.category = .malformedTree || e.category = .typeMismatch

/-- The tree that a value describes. -/
def treeOf (path : FilePath) (v : Value) : Except Fault Node :=
  match Node.ofValue v with
  | .ok tree => .ok tree
  | .error e =>
    if isDefect e then .error (.source path.text ("not a node tree: " ++ e.message)) else .error e

/-- A header with a path, unless it has one. -/
def withPath (path : FilePath) (h : Header) : Header :=
  if h.variant.detail.isNull then { h with variant := .of h.shape (.str path.text) } else h

/-- A new compilation unit around a tree. -/
def wrapped (path : FilePath) (root : Node) : Node :=
  .mk ⟨Kind.compilationUnit, root.header.beginLine, root.header.endLine,
    .compilationUnit (.str path.text)⟩ [root]

/-- The text of a tree document as a compilation unit. -/
def unitOf (path : FilePath) (text : String) : Traced Node := do
  let data ← Traced.of (valueOf path text)
  let root ← Traced.of (treeOf path data)
  if root.kind = Kind.compilationUnit then
    return .mk (withPath path root.header) root.children
  else
    Traced.debug s!"Wrapping {root.kind} root of {path.text} in a CompilationUnit"
    return wrapped path root

end MethodLint.Tree
