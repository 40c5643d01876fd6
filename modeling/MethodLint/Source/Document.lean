import MethodLint.Fault
import MethodLint.Source.Syntax
import MethodLint.Value.Display

/-!
Syntax trees as documents. A node is a mapping that names its form under the key `_`; its other
entries are its fields. A field that is missing or null holds nothing. Reading goes down the
document, whose depth bounds it.
-/
namespace MethodLint.Source

/-- The values in a field: the items of a list, or the one value there is. Null stands for none. -/
def fieldItems (v : Value) (name : String) : List Value :=
  match v.getD name with
  | .list items => items.filter fun item => !item.isNull
  | .null => []
  | item => [item]

/-- The text in a field. -/
def fieldText (v : Value) (name : String) : String :=
  match v.getD name with
  | .str s => s
  | _ => ""

/-- The name of a node, if it has one. -/
def fieldName? (v : Value) : Option String :=
  match v.getD "name" with
  | .str s => some s
  | _ => none

/-- The texts in a field. -/
def fieldTexts (v : Value) (name : String) : List String :=
  (fieldItems v name).filterMap fun item => match item with
    | .str s => some s
    | _ => none

/-- A line in a field. -/
def fieldLine (v : Value) (name : String) : Option Int :=
  match v.getD name with
  | .int n => some n
  | _ => none

/-- The lines of a node. -/
def linesOf (v : Value) : Lines := ⟨fieldLine v "lineno", fieldLine v "end_lineno"⟩

/-- The name of a node's form. -/
def labelOf (v : Value) : String := fieldText v "_"

/-- The names of the parameters of a function. -/
def parameterNames (arguments : Value) : List String :=
  ["posonlyargs", "args", "kwonlyargs", "vararg", "kwarg"].flatMap fun field =>
    (fieldItems arguments field).map fun argument => fieldText argument "arg"

/-- The context that a name has. -/
def contextOf (v : Value) : Context :=
  match labelOf (v.getD "ctx") with
  | "Store" => .store
  | "Del" => .del
  | _ => .load

/-- The sort of a comprehension by its name. -/
def comprehension? (name : String) : Option Comprehension :=
  [Comprehension.list, .set, .generator, .dictionary].find? fun sort => sort.label = name

/-- A case, whose parts `read` reads. -/
def caseOf (read : Value → Except Fault Syntax) (v : Value) : Except Fault Case := do
  let pattern ← read (v.getD "pattern")
  let guard ← match v.getD "guard" with
    | .null => pure none
    | g => some <$> read g
  match ← (fieldItems v "body").mapM read with
  | [] => throw .indexOutOfRange
  | first :: rest => return .mk pattern guard first rest

/-- A generator, whose parts `read` reads. -/
def generatorOf (read : Value → Except Fault Syntax) (v : Value) : Except Fault Generator := do
  let target ← read (v.getD "target")
  let iterable ← read (v.getD "iter")
  let conditions ← (fieldItems v "ifs").mapM read
  return .mk target iterable conditions

/-- The nodes in some fields, in order. -/
def partsOf (read : Value → Except Fault Syntax) (v : Value) (fields : List String) :
    Except Fault (List Syntax) :=
  (fields.flatMap (fieldItems v)).mapM read

/-- A part of a source, at most `depth` levels deep. -/
def Syntax.ofValue : (depth : Nat) → Value → Except Fault Syntax
  | 0, _ => .error .tooDeep
  | depth + 1, v => do
    let read := Syntax.ofValue depth
    let lines := linesOf v
    let label := labelOf v
    if label = "FunctionDef" ∨ label = "AsyncFunctionDef" then
      let body ← partsOf read v ["body"]
      let around ← partsOf read v ["decorator_list", "args", "returns"]
      return .function (fieldName? v) lines (parameterNames (v.getD "args")) body around
    else if label = "ClassDef" then
      return .classDef lines (← partsOf read v ["bases", "keywords", "body", "decorator_list"])
    else if label = "Match" then
      let subject ← read (v.getD "subject")
      return .matching lines subject (← (fieldItems v "cases").mapM (caseOf read))
    else if label = "Name" then
      return .name (fieldText v "id") (contextOf v) lines
    else if label = "Global" then
      return .outer .global (fieldTexts v "names") lines
    else if label = "Nonlocal" then
      return .outer .nonlocal (fieldTexts v "names") lines
    else match comprehension? label with
      | some sort =>
        let elements ← partsOf read v (if sort = .dictionary then ["key", "value"] else ["elt"])
        return .comprehension sort lines elements
          (← (fieldItems v "generators").mapM (generatorOf read))
      | none =>
        match Form.ofLabel? label with
        | some form => return .plain form lines (← partsOf read v form.fields)
        | none => throw (.missingKey (Text.quoted label))

/-- The source that a document describes. -/
def Module.ofValue (v : Value) : Except Fault Module := do
  return ⟨← (fieldItems v "body").mapM (Syntax.ofValue v.depth)⟩

end MethodLint.Source
