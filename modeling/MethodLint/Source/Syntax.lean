import MethodLint.Source.Form

/-!
The syntax tree of a source, as far as its outline depends on it. What binds names or is laid out
anew has a constructor of its own; everything else is a form with its parts in order. Only lines are
kept of where a part stands. A function knows the names of its parameters; what belongs to it but is
evaluated around it (decorators, defaults, annotations) is kept beside its body.
-/
namespace MethodLint.Source

/-- The first and the last line of a part, where they are known. -/
structure Lines where
  first : Option Int
  last : Option Int
  deriving DecidableEq, Repr, Inhabited

/-- No lines: what contexts and operators have. -/
def Lines.none : Lines := ⟨Option.none, Option.none⟩

/-- What a name is there for. -/
inductive Context
  | load
  | store
  | del
  deriving DecidableEq, Repr, Inhabited

/-- The form of a context. -/
def Context.form : Context → Form
  | .load => .load
  | .store => .store
  | .del => .del

/-- The four comprehensions. -/
inductive Comprehension
  | list
  | set
  | generator
  | dictionary
  deriving DecidableEq, Repr, Inhabited

/-- The name of a comprehension. -/
def Comprehension.label : Comprehension → String
  | .list => "ListComp"
  | .set => "SetComp"
  | .generator => "GeneratorExp"
  | .dictionary => "DictComp"

/-- Where names that are declared not to be a scope's own belong. -/
inductive OuterScope
  | global
  | nonlocal
  deriving DecidableEq, Repr, Inhabited

/-- The name of such a declaration. -/
def OuterScope.label : OuterScope → String
  | .global => "Global"
  | .nonlocal => "Nonlocal"

mutual

/-- A part of a source. -/
inductive Syntax
  | plain (form : Form) (lines : Lines) (parts : List Syntax)
  | name (id : String) (context : Context) (lines : Lines)
  | outer (scope : OuterScope) (names : List String) (lines : Lines)
  /-- A function; `around` is what is evaluated in the enclosing scope. Every function of a source
  has a name, but a document may leave it out. -/
  | function (name : Option String) (lines : Lines) (parameters : List String) (body around : List Syntax)
  /-- A class with its bases, keywords, body and decorators. -/
  | classDef (lines : Lines) (parts : List Syntax)
  | matching (lines : Lines) (subject : Syntax) (cases : List Case)
  | comprehension (sort : Comprehension) (lines : Lines) (elements : List Syntax)
      (generators : List Generator)

/-- A case of a match statement. Its body has a first statement. -/
inductive Case
  | mk (pattern : Syntax) (guard : Option Syntax) (first : Syntax) (rest : List Syntax)

/-- A generator of a comprehension with its conditions. -/
inductive Generator
  | mk (target iterable : Syntax) (conditions : List Syntax)

end

instance : Inhabited Syntax := ⟨.plain .pass .none []⟩

/-- A source: its statements. -/
structure Module where
  body : List Syntax

namespace Syntax

/-- The lines of a part. -/
def lines : Syntax → Lines
  | .plain _ lines _ | .name _ _ lines | .outer _ _ lines | .function _ lines _ _ _
  | .classDef lines _ | .matching lines _ _ | .comprehension _ lines _ _ => lines

/-- A part without parts of its own. -/
def leaf (form : Form) : Syntax := .plain form .none []

/-- A pattern that matches anything: a bare capture. -/
def isBareCapture : Syntax → Bool
  | .plain .capturePattern _ [] => true
  | _ => false

end Syntax

namespace Case

/-- The pattern of a case. -/
def pattern : Case → Syntax
  | .mk pattern _ _ _ => pattern

/-- The guard of a case. -/
def guard : Case → Option Syntax
  | .mk _ guard _ _ => guard

/-- The statements of a case. -/
def body : Case → List Syntax
  | .mk _ _ first rest => first :: rest

/-- A case that takes whatever is left: a bare capture without a guard. -/
def isDefault (c : Case) : Bool := c.guard.isNone && c.pattern.isBareCapture

/-- The lines of the statements of a case. -/
def bodyLines : Case → Lines
  | .mk _ _ first rest => ⟨first.lines.first, ((first :: rest).getLastD first).lines.last⟩

end Case

end MethodLint.Source
