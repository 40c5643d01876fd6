import MethodLint.Source.Complaint
import MethodLint.Source.Syntax

/-!
Which expressions can be assigned to, deleted, or stand before the `in` of a loop, and what
complaints call those that cannot. Names, attributes and subscripts can; lists and tuples can if all
of their elements can.
-/
namespace MethodLint.Source

/-- What complaints call a form. -/
def Form.description : Form → String
  | .attribute => "attribute"
  | .subscript => "subscript"
  | .starred => "starred"
  | .list => "list"
  | .tuple => "tuple"
  | .lambda => "lambda"
  | .call => "function call"
  | .booleanOperation | .binaryOperation | .unaryOperation => "expression"
  | .yielding | .yieldingFrom => "yield expression"
  | .awaiting => "await expression"
  | .dictionary => "dict literal"
  | .setDisplay => "set display"
  | .joinedText | .formattedValue => "f-string expression"
  | .noneConstant => "None"
  | .trueConstant => "True"
  | .falseConstant => "False"
  | .ellipsisConstant => "ellipsis"
  | .constant => "literal"
  | .comparison => "comparison"
  | .choice => "conditional expression"
  | .namedExpression => "named expression"
  | form => form.label

/-- What complaints call a comprehension. -/
def Comprehension.description : Comprehension → String
  | .list => "list comprehension"
  | .set => "set comprehension"
  | .generator => "generator expression"
  | .dictionary => "dict comprehension"

namespace Syntax

/-- What complaints call a part of a source. -/
def description : Syntax → String
  | .plain form _ _ => form.description
  | .name _ _ _ => "name"
  | .comprehension sort _ _ _ => sort.description
  | _ => "statement"

/-- A part with another context. The elements of lists and tuples and what a star unpacks get it too. -/
def withContext (context : Context) : Syntax → Syntax
  | .name id _ lines => .name id context lines
  | .plain .tuple lines parts => .plain .tuple lines (elements parts)
  | .plain .list lines parts => .plain .list lines (elements parts)
  | .plain .starred lines parts => .plain .starred lines (elements parts)
  | .plain .attribute lines (value :: _) =>
    .plain .attribute lines [value, .leaf context.form]
  | .plain .subscript lines (value :: slice :: _) =>
    .plain .subscript lines [value, slice, .leaf context.form]
  | part => part
where
  elements : List Syntax → List Syntax
    | [] => []
    | part :: rest =>
      (match part with
        | .plain .load ⟨none, none⟩ [] | .plain .store ⟨none, none⟩ []
        | .plain .del ⟨none, none⟩ [] => .leaf context.form
        | part => withContext context part) :: elements rest

end Syntax

/-- What an expression would be used for. -/
inductive Purpose
  | assignment
  | loop
  | deletion
  deriving DecidableEq, Repr

/-- The complaint about an expression that cannot be used for a purpose. -/
def Purpose.complaint (purpose : Purpose) (what : String) : Complaint :=
  match purpose with
  | .deletion => .cannotDelete what
  | _ => .cannotAssign what

namespace Syntax

mutual

/-- The first part of an expression that cannot be used for a purpose. A loop's target is read
together with the `in` after it, as a comparison, of which only the left side is the target. -/
def misfit? (purpose : Purpose) : Syntax → Option Syntax
  | .name _ _ _ => none
  | .plain form lines parts =>
    match form with
    | .list | .tuple => misfitAmong? purpose parts
    | .starred => if purpose = .deletion then some (.plain form lines parts) else misfitFirst? purpose parts
    | .comparison =>
      if purpose = .loop then
        match parts with
        | left :: .plain .member _ _ :: _ => misfit? purpose left
        | _ => none
      else some (.plain form lines parts)
    | .subscript | .attribute | .load | .store | .del => none
    | _ => some (.plain form lines parts)
  | part => some part

/-- The first misfit among some parts. -/
def misfitAmong? (purpose : Purpose) : List Syntax → Option Syntax
  | [] => none
  | part :: rest => (misfit? purpose part).or (misfitAmong? purpose rest)

/-- A misfit in the first of some parts. -/
def misfitFirst? (purpose : Purpose) : List Syntax → Option Syntax
  | [] => none
  | part :: _ => misfit? purpose part

end

end Syntax

end MethodLint.Source
