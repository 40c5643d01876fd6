import MethodLint.Fault
import MethodLint.Text.Quoted
import MethodLint.Value.Basic

/-!
Looking into values: at what a collection is made of, and at the entry of a mapping that must be
there. Both are defined on some kinds of values only, and say so otherwise.
-/
namespace MethodLint.Value

/-- The parts of a value that is gone through: the items of a collection, the keys of a mapping, the
characters of a text, the numbers of binary data. -/
def parts : Value → Except Fault (List Value)
  | .list items | .tuple items | .set items => .ok items
  | .str s => .ok (s.toList.map fun c => .str c.toString)
  | .map entries => .ok (entries.map Prod.fst)
  | .bytes data => .ok (data.map fun b => .int b.toNat)
  | v => .error (.type (.iteration v.typeName))

/-- The parts of a value, none if it counts as nothing. -/
def givenParts (v : Value) : Except Fault (List Value) := if v.isFalsy then .ok [] else v.parts

/-- The value of a key that must be there. -/
def required (v : Value) (key : String) : Except Fault Value :=
  match v with
  | .map entries =>
    match lookup key entries with
    | some value => .ok value
    | none => .error (.missingKey (Text.quoted key))
  | .list _ => .error (.type .listKey)
  | .str _ => .error (.type .textKey)
  | v => .error (.type (.lookup v.typeName))

end MethodLint.Value
