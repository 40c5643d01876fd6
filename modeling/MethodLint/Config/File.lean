import MethodLint.Config
import MethodLint.Files
import MethodLint.Yaml.Reader

/-!
Configurations in files. A file that is missing or is no text, and a number in it that cannot be
held, are reported as they are; all that is wrong with the document itself is a configuration defect.
-/
namespace MethodLint.Config

/-- The value that a configuration file holds. -/
def documentOf (path : FilePath) (text : String) : Except Fault Value :=
  match Yaml.read text with
  | .ok v => .ok v
  | .error (.fault e) => .error e
  | .error .malformed => .error (.config (.invalidDocument path.text))

/-- The configuration in a file. -/
def load (files : Files) (path : FilePath) : Except Fault Value := do
  let text ← files.textInParts path
  ofDocument path.text (← documentOf path text)

end MethodLint.Config
