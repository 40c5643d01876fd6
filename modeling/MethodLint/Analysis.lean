import MethodLint.Metrics

/-!
The analysis of one tree: every method declaration in it, the root included, is measured in
pre-order, and those beyond all four thresholds are reported. A malformed node anywhere in the tree
ends the analysis of the whole tree.
-/
namespace MethodLint

/-- The name of the rule that is checked. -/
def ruleName : String := "BrainMethod"

/-- A finding: a method beyond all four thresholds. -/
structure Violation where
  rule : String
  method : Value
  beginLine : Value
  endLine : Value
  message : String
  path : Option String
  metrics : Option Snapshot
  deriving Inhabited

namespace Violation

/-- A finding as a report holds it; what is not known is left out. -/
def toValue (v : Violation) : Value :=
  .record ([("rule", .str v.rule), ("method", v.method), ("begin_line", v.beginLine),
      ("end_line", v.endLine), ("message", .str v.message)]
    ++ (v.path.map fun path => ("path", Value.str path)).toList
    ++ (v.metrics.map fun metrics => ("metrics", metrics.toValue)).toList)

/-- The finding for a measured method. -/
def of (m : Method) (s : Snapshot) (t : Thresholds) (path : Option String) : Violation :=
  { rule := ruleName
    method := m.name
    beginLine := m.beginLine
    endLine := m.endLine
    message := s!"Method Name={m.name.text} (LOC={s.loc.text}, CYCLO={s.cyclo}, NOAV={s.noav}, "
      ++ s!"MAXNESTING>{t.maxnesting.text})"
    path
    metrics := some s }

end Violation

/-- A method declaration that an analysis comes across, and the levels at which the control
constructs below it lie. -/
structure Declaration where
  node : Node
  levels : List Nat

/-- A method with its metrics and its greatest level of nesting. -/
structure Measured where
  method : Method
  metrics : Snapshot
  depth : Nat

namespace Measured

/-- A measured method as a report holds it. -/
def fields (m : Measured) : List (String × Value) :=
  [("method", m.method.name), ("begin_line", m.method.beginLine), ("end_line", m.method.endLine),
    ("nesting_depth", .int m.depth)] ++ m.metrics.fields

end Measured

namespace Declaration

/-- Measures a declaration. -/
def measure (t : Thresholds) (d : Declaration) : Traced Measured := do
  let method ← Traced.of (Method.ofNode d.node)
  let metrics ← (⟨method.locRecords, method.measureAt d.levels t⟩ : Traced Snapshot)
  return ⟨method, metrics, Method.deepest d.levels⟩

end Declaration

namespace Measured

/-- The finding for a measured method, if it is one. -/
def judge (t : Thresholds) (path : Option String) (m : Measured) : Traced (Option Violation) := do
  if ← Traced.of (isBrainMethod m.metrics t) then
    Traced.debug (s!"Brain method {m.method.name.text} (lines {m.method.beginLine.text}-"
      ++ s!"{m.method.endLine.text}): {m.metrics.text}")
    return some (.of m.method m.metrics t path)
  else return none

end Measured

/-- What a pass over a tree goes through: its root, and its method declarations in order. -/
structure Pass where
  root : Header
  declarations : List Declaration

namespace Pass

/-- The record with which a pass begins. -/
def opening (p : Pass) : Traced Unit :=
  if p.root.kind = Kind.compilationUnit then
    let path := match p.root.variant with
      | .compilationUnit path => path
      | _ => .null
    Traced.debug ("Analyzing compilation unit " ++ if path.isTruthy then path.text else "<memory>")
  else pure ()

/-- Measures every declaration. -/
def measure (t : Thresholds) (p : Pass) : Traced (List Measured) := do
  p.opening
  p.declarations.mapM (Declaration.measure t)

/-- The findings, in the order of the declarations. -/
def analyze (t : Thresholds) (path : Option String) (p : Pass) : Traced (List Violation) := do
  p.opening
  let findings ← p.declarations.mapM fun d => do (← d.measure t).judge t path
  return findings.filterMap id

end Pass

namespace Node

/-- A method declaration as an analysis of its own tree sees it. -/
def declared (n : Node) : Declaration :=
  ⟨n, ((levelled Header.opensLevel n).filter fun entry => entry.1.opensLevel).map Prod.snd⟩

/-- The method declarations of a tree in pre-order, the root first if it is one. -/
def pass (n : Node) : Pass :=
  ⟨n.header, ((n :: n.descendants).filter fun d => d.kind = Kind.methodDeclaration).map declared⟩

/-- Measures every method of a tree. -/
def measureMethods (t : Thresholds) (n : Node) : Traced (List Measured) := n.pass.measure t

/-- The findings of a tree, in the order of its methods. -/
def analyze (t : Thresholds) (path : Option String) (n : Node) : Traced (List Violation) :=
  n.pass.analyze t path

end Node

end MethodLint
