import MethodLint.Value.Display
import MethodLint.Value.Parts

/-!
The report for readers. It is laid out from the value of a scan's result: a line for each finding,
then a table of methods if the result has one, then a line of totals, with blank lines between.
Figures stand at the right of columns of five characters, and wider ones push the rest aside.
-/
namespace MethodLint.Report

/-- The width of the columns of figures. -/
def figureWidth : Nat := 5

/-- A text at the right of a column. -/
def alignRight (s : String) : String := "".pushn ' ' (figureWidth - s.length) ++ s

/-- A figure in its column. A truth value stands as a number. -/
def figure : Value → Except Fault String
  | .bool b => .ok (alignRight (if b then "1" else "0"))
  | .int n => .ok (alignRight (toString n))
  | .float x => .ok (alignRight (Decimal.floatText x))
  | .str s => .ok (alignRight s)
  | v => .error (.type (.layout v.shortTypeName))

/-- The text of a value that must be there. -/
def requiredText (v : Value) (key : String) : Except Fault String := do
  return (← v.required key).text

/-- The figure of a value that must be there. -/
def requiredFigure (v : Value) (key : String) : Except Fault String := do
  figure (← v.required key)

/-- What stands for the path of a finding that has none. -/
def unknownPath : String := "<unknown>"

/-- The line of a finding. -/
def findingLine (v : Value) : Except Fault String := do
  let path ← match v with
    | .map entries => pure (((Value.lookup "path" entries).getD (.str unknownPath)).text)
    | v => throw (.noOperation v.typeName "get")
  let first ← requiredText v "begin_line"
  let last ← requiredText v "end_line"
  let rule ← requiredText v "rule"
  let message ← requiredText v "message"
  return s!"{path}:{first}-{last}: {rule} {message}"

/-- The head of the table of methods. -/
def tableHead : String := "  LOC CYCLO  NEST  NOAV  METHOD"

/-- The line of a method. -/
def methodLine (v : Value) : Except Fault String := do
  let loc ← requiredFigure v "loc"
  let cyclo ← requiredFigure v "cyclo"
  let depth ← requiredFigure v "nesting_depth"
  let noav ← requiredFigure v "noav"
  let path ← requiredText v "path"
  let first ← requiredText v "begin_line"
  let name ← requiredText v "method"
  return s!"{loc} {cyclo} {depth} {noav}  {path}:{first} {name}"

/-- The line of totals. -/
def totalsLine (v : Value) : Except Fault String := do
  let findings ← requiredText v "violations"
  let files ← requiredText v "files_scanned"
  let methods ← requiredText v "methods_analyzed"
  let failed ← requiredText v "files_failed"
  return s!"{findings} brain method(s) in {files} file(s) ({methods} methods analyzed, {failed} failed)"

/-- A blank line, if there are lines before. -/
def gapAfter (lines : List String) : List String := if lines.isEmpty then [] else [""]

/-- The lines of the table of methods, if the result has one. -/
def tableLines (result : Value) (before : List String) : Except Fault (List String) :=
  match result.get? "methods" with
  | none => .ok []
  | some methods => do
    return gapAfter before ++ [tableHead] ++ (← (← methods.parts).mapM methodLine)

/-- The report of a result. -/
def text (result : Value) : Except Fault String := do
  let findings ← (← (← result.required "violations").parts).mapM findingLine
  let lines := findings ++ (← tableLines result findings)
  let totals ← totalsLine (← result.required "summary")
  return "\n".intercalate (lines ++ gapAfter lines ++ [totals])

end MethodLint.Report
