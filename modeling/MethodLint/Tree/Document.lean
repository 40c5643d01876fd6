import MethodLint.Fault
import MethodLint.Tree.Node

/-!
Trees as documents. A node is written as a mapping with its kind, its lines, the field of its shape
and its children; a field that holds null, and an empty list of children, is left out. Reading
checks that every mapping has a kind, that a kind gets only the fields of its shape, and that lines
are whole numbers. Which of several faults is reported is fixed too: the children of a node are
checked in order before anything below them, and of those the last child's subtree is read first.
-/
namespace MethodLint

/-- The number of characters of a value that a message about a missing kind shows. -/
def shownLength : Nat := 80

/-- The fault of a value that should be a node. -/
def notANode (v : Value) : Fault :=
  .tree (.notANode (String.ofList (v.full.toList.take shownLength)))

namespace Header

/-- The field names that nodes of a kind accept. -/
def accepts (kind name : String) : Bool :=
  name = "begin_line" || name = "end_line" || name = "kind" || name = "children"
    || (Shape.ofKind kind).field? == some name

/-- A line that is given must be a whole number. -/
def checkLine (kind field : String) : Value → Except Fault Unit
  | .null => .ok ()
  | .int _ => .ok ()
  | v => .error (.tree (.lineNotInteger kind field v.full))

/-- The names of some fields. Only a text can be a name. -/
def namesOf (fields : List (Value × Value)) : Except Fault (List String) :=
  fields.mapM fun field => match field.1 with
    | .str name => .ok name
    | _ => .error (.type .fieldNotText)

/-- Every field must be one that nodes of the kind accept. -/
def checkNames (kind : String) (fields : List (Value × Value)) : Except Fault Unit := do
  let names ← namesOf fields
  match names.filter fun name => !accepts kind name with
  | [] => return ()
  | unknown => throw (.tree (.unknownFields kind (unknown.mergeSort fun a b => decide (a ≤ b))))

/-- What a field holds, null if it is not there. -/
def held (name : String) (fields : List (Value × Value)) : Value :=
  (Value.lookup name fields).getD .null

/-- The header of a kind that holds what some fields hold. -/
def ofFields (kind : String) (fields : List (Value × Value)) : Header :=
  let detail := (Shape.ofKind kind).field?.elim .null fun name => held name fields
  ⟨kind, held "begin_line" fields, held "end_line" fields, .of (Shape.ofKind kind) detail⟩

/-- The header of a node of a kind with these fields. -/
def make (kind : String) (fields : List (Value × Value)) : Except Fault Header := do
  checkNames kind fields
  checkLine kind "begin_line" (held "begin_line" fields)
  checkLine kind "end_line" (held "end_line" fields)
  return ofFields kind fields

/-- A key that says what a node is or what is below it, not one of its fields. -/
def isStructural : Value → Bool
  | .str name => name = "kind" || name = "children"
  | _ => false

/-- The header that a document's value describes. -/
def ofValue (v : Value) : Except Fault Header :=
  match v with
  | .map entries =>
    match Value.lookup "kind" entries with
    | none => .error (notANode v)
    | some kind => make kind.text (entries.filter fun entry => !isStructural entry.1)
  | _ => .error (notANode v)

/-- A field with what it holds, left out if that is null. -/
def given (name : String) (v : Value) : List (Value × Value) :=
  if v.isNull then [] else [(.str name, v)]

/-- The fields of a header beside its kind, as a document writes them. -/
def details (h : Header) : List (Value × Value) :=
  given "begin_line" h.beginLine ++ given "end_line" h.endLine ++ match h.shape.field? with
    | none => []
    | some name => given name h.variant.detail

/-- The fields of a header as a document writes them. -/
def fields (h : Header) : List (Value × Value) := (.str "kind", .str h.kind) :: h.details

end Header

namespace Node

/-- What cannot be a list of children: a value that counts as nothing stands for none, a value with
parts fails at its first part, and any other cannot be gone through. -/
def strangeChildren (v : Value) : Except Fault (List Node) :=
  if v.isFalsy then .ok []
  else match v with
    | .str s => .error (notANode (.str (s.toList.head?.elim "" Char.toString)))
    | .bytes (b :: _) => .error (notANode (.int b.toNat))
    | .set (item :: _) => .error (notANode item)
    | .map ((key, _) :: _) => .error (notANode key)
    | v => .error (.type (.iteration v.typeName))

/-- The values of the children of the node that a value describes. -/
def childItems (v : Value) : Except Fault (List Value) :=
  match v.getD "children" with
  | .list items | .tuple items => .ok items
  | other => (strangeChildren other).map fun _ => []

/-- What is no list of children has none, if it is accepted. -/
theorem eq_nil_of_strange {v : Value} {items : List Value}
    (given : (strangeChildren v).map (fun _ => []) = .ok items) : items = [] := by
  cases strange : strangeChildren v with
  | error e => simp [strange, Except.map] at given
  | ok _ => simpa [strange, Except.map] using given.symm

mutual

/-- The nodes below the node that a value describes. -/
def childrenOf : Value → Except Fault (List Node)
  | .map entries => childrenOfEntries entries
  | _ => .ok []

/-- The nodes below a mapping with these entries. -/
def childrenOfEntries : List (Value × Value) → Except Fault (List Node)
  | [] => .ok []
  | (.str name, v) :: rest => if name = "children" then ofChildren v else childrenOfEntries rest
  | _ :: rest => childrenOfEntries rest

/-- The nodes that a value of children describes. -/
def ofChildren : Value → Except Fault (List Node)
  | .list items | .tuple items => do
    let headers ← items.mapM Header.ofValue
    let subtrees ← childrenOfEach items
    return List.zipWith Node.mk headers subtrees
  | v => strangeChildren v

/-- The nodes below each of some values; the last is read first. -/
def childrenOfEach : List Value → Except Fault (List (List Node))
  | [] => .ok []
  | v :: rest => do
    let later ← childrenOfEach rest
    let first ← childrenOf v
    return first :: later

end

/-- The tree that a document's value describes. -/
def ofValue (v : Value) : Except Fault Node := do
  let header ← Header.ofValue v
  let children ← childrenOf v
  return .mk header children

mutual

/-- The value that describes a tree. -/
def toValue : Node → Value
  | .mk h cs =>
    .map (h.fields ++ if cs.isEmpty then [] else [(.str "children", .list (toValues cs))])

/-- The values that describe some trees. -/
def toValues : List Node → List Value
  | [] => []
  | c :: cs => toValue c :: toValues cs

end

end Node

end MethodLint
