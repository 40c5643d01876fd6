import MethodLint.FilePath
import MethodLint.Value.Display
import MethodLint.Fault

/-!
Which files a scan leaves out. A pattern that starts with a star matches every path that ends with
the rest of the pattern; any other pattern matches a path of which it is a part. Extensions are
compared in lower case and with a dot in front, whichever way they were written.
-/
namespace MethodLint

/-- A pattern matches the text of a path. -/
def matchesPattern (path pattern : String) : Bool :=
  match pattern.toList with
  | '*' :: rest => rest.isSuffixOf path.toList
  | _ => (FilePath.pieces path).contains pattern

/-- Why a value is neither a pattern nor an extension: one cannot ask how it starts. -/
def notText : Value → Fault
  | .bytes _ => .type .bytesStart
  | v => .noOperation v.typeName "startswith"

/-- A pattern that is no text stops a scan at the first path that reaches it. -/
def isExcludedBy (p : FilePath) : List Value → Except Fault Bool
  | [] => .ok false
  | .str pattern :: rest => if matchesPattern p.text pattern then .ok true else isExcludedBy p rest
  | v :: _ => .error (notText v)

/-- An extension as it is compared: with a dot in front, in lower case. -/
def normalExtension (extension : String) : String :=
  Text.lower (if extension.startsWith "." then extension else "." ++ extension)

/-- The extensions of some values as they are compared, each once. -/
def normalExtensions : List Value → Except Fault (List String)
  | [] => .ok []
  | .str extension :: rest => do
    let later ← normalExtensions rest
    let first := normalExtension extension
    return if later.contains first then later else first :: later
  | v :: _ => .error (notText v)

end MethodLint
