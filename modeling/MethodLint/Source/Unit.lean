import MethodLint.Source.Outline
import MethodLint.Source.Reader
import MethodLint.Text.Blank
import MethodLint.Traced

/-!
From the text of a source to the tree that is measured. A source that is no program, or that is
nested too deeply to be held or to be laid out, is refused with the reason; its log tells what was
wrong where.
-/
namespace MethodLint.Source

mutual

/-- How deeply a part of a source is nested. -/
def Syntax.depth : Syntax → Nat
  | .plain _ _ parts | .classDef _ parts => 1 + depthAll parts
  | .name _ _ _ | .outer _ _ _ => 1
  | .function _ _ _ body around => 1 + max (depthAll body) (depthAll around)
  | .matching _ subject cases => 1 + max subject.depth (depthCases cases)
  | .comprehension _ _ elements generators => 1 + max (depthAll elements) (depthGenerators generators)

/-- The greatest depth of some parts. -/
def depthAll : List Syntax → Nat
  | [] => 0
  | part :: rest => max part.depth (depthAll rest)

/-- The greatest depth of some cases. -/
def depthCases : List Case → Nat
  | [] => 0
  | .mk pattern guard first rest :: others =>
    let guarded := match guard with
      | some condition => condition.depth
      | none => 0
    max (1 + max (max pattern.depth guarded) (max first.depth (depthAll rest))) (depthCases others)

/-- The greatest depth of some generators. -/
def depthGenerators : List Generator → Nat
  | [] => 0
  | .mk target iterable conditions :: others =>
    max (1 + max (max target.depth iterable.depth) (depthAll conditions)) (depthGenerators others)

end

/-- How deeply a source may be nested to be held. -/
def depthLimit : Nat := 2990

/-- How deeply a source may be nested to be laid out. -/
def layoutLimit : Nat := 985

/-- The last part of a path. -/
def lastPart (path : String) : String :=
  String.ofList (path.toList.reverse.takeWhile (· ≠ '/')).reverse

/-- The outline of a text as a compilation unit with a path. -/
def unitOf (path text : String) : Traced Node :=
  match Module.ofText text with
  | .error .nullCharacter =>
    throw (.source path "could not parse: source code string cannot contain null bytes")
  | .error (.objection complaint line) => do
    Traced.debug s!"Syntax error in {path}: {complaint.message} ({lastPart path}, line {line})"
    throw (.source path s!"syntax error at line {line}: {complaint.message}")
  | .ok source =>
    let depth := depthAll source.body
    if depthLimit < depth then
      throw (.source path
        "could not parse: maximum recursion depth exceeded during ast construction")
    else if layoutLimit < depth then
      throw (.source path "source nested too deeply to convert")
    else return source.outline path (Text.lineCount text)

end MethodLint.Source
