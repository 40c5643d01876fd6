import MethodLint.Files
import MethodLint.Source.Unit
import MethodLint.Tree.Unit

/-!
Front ends turn files into the trees that are measured. There is one for sources and one for tree
documents; which of them a file belongs to is told by its extension.
-/
namespace MethodLint

/-- A way to turn files into trees. -/
inductive FrontEnd
  | source
  | document
  deriving DecidableEq, Repr

namespace FrontEnd

/-- The name of the language that a front end reads. -/
def language : FrontEnd → String
  | .source => "python"
  | .document => "tree"

/-- The name of a front end. -/
def label : FrontEnd → String
  | .source => "PythonParser"
  | .document => "TreeParser"

/-- The extensions of the files that a front end reads. -/
def extensions : FrontEnd → List String
  | .source => [".py", ".pyw"]
  | .document => [".json", ".yaml", ".yml"]

/-- The front ends in the order in which they are listed. -/
def all : List FrontEnd := [.source, .document]

/-- The front end for the files with an extension. -/
def ofExtension? (extension : String) : Option FrontEnd :=
  all.find? fun frontEnd => frontEnd.extensions.contains extension

/-- The front end for a file. -/
def ofPath? (path : FilePath) : Option FrontEnd := ofExtension? path.comparedExtension

/-- The text of a file, or the fault of a source that cannot be read. -/
def textOf (files : Files) (path : FilePath) : Except Fault String :=
  (files.text path).mapError fun e => .source path.text ("could not read file: " ++ e.message)

/-- The tree of a file. -/
def parse (files : Files) (path : FilePath) (frontEnd : FrontEnd) : Traced Node := do
  let text ← Traced.of (textOf files path)
  match frontEnd with
  | .source => Source.unitOf path.text text
  | .document => Tree.unitOf path text

end FrontEnd

end MethodLint
