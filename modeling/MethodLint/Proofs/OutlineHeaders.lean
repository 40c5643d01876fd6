import MethodLint.Proofs.OutlineFunctions

/-! What the nodes of an outline look like one by one, wherever they stand. A node
has the shape that its kind asks for, and its lines are those of a part of the
source. -/
namespace MethodLint.OutlineHeaders
open Source Walks OutlineFunctions

/-- The headers that an outline is made of, its root apart. -/
inductive Laid : Header → Prop where
  | form (form : Form) (lines : Lines) : Laid (form.header lines)
  | plain (shapeless : Shape.ofKind kind = .plain) (lines : Lines) : Laid (plainHeader kind lines)
  | method (name : Option String) (lines : Lines) :
      Laid (variantHeader Kind.methodDeclaration lines (.methodDeclaration (.ofText? name)))
  | declarator (id : String) (lines : Lines) :
      Laid (variantHeader Kind.variableDeclarator lines (.variableDeclarator (.str id)))
  | label (isDefault : Bool) (lines : Lines) :
      Laid (variantHeader Kind.switchLabel lines (.switchLabel (.bool isDefault)))

mutual

theorem outline_laid (s : Syntax) (scopes : Scopes) : Everywhere Laid [(s.outline scopes).1] := by
  cases s with
  | plain form lines parts => exact everywhere_node (.form form lines) (outlineAll_laid parts scopes)
  | name id context lines =>
    have inner : Everywhere Laid [.mk (context.form.header .none) []] :=
      everywhere_node (.form context.form .none) everywhere_nil
    rw [Syntax.outline]
    unfold nameNode
    split
    · exact everywhere_node (.declarator id lines) inner
    · exact everywhere_node (.plain (by decide) lines) inner
  | outer scope names lines =>
    exact everywhere_node (.plain (by cases scope <;> decide) lines) everywhere_nil
  | function name lines parameters body around =>
    exact everywhere_node (.method name lines) (outlineAll_laid body _)
  | classDef lines parts =>
    exact everywhere_node (.plain (by decide) lines) (outlineAll_laid parts _)
  | matching lines subject cases =>
    exact everywhere_node (.plain (by decide) lines)
      (everywhere_cons (outline_laid subject scopes) (outlineCases_laid cases _))
  | comprehension sort lines elements generators =>
    exact everywhere_node (.plain (by cases sort <;> decide) lines)
      (outlineGenerators_laid generators _ scopes fun scopes => outlineAll_laid elements scopes)

theorem outlineAll_laid (parts : List Syntax) (scopes : Scopes) :
    Everywhere Laid (outlineAll parts scopes).1 := by
  cases parts with
  | nil => exact everywhere_nil
  | cons part rest => exact everywhere_cons (outline_laid part scopes) (outlineAll_laid rest _)

theorem outlineCases_laid (cases : List Case) (scopes : Scopes) :
    Everywhere Laid (outlineCases cases scopes).1 := by
  match cases with
  | [] => exact everywhere_nil
  | .mk pattern guard first rest :: others =>
    rw [outlineCases_cons]
    have label := everywhere_cons (outline_laid pattern scopes)
      (outlineGuard_laid guard (pattern.outline scopes).2)
    have body scopes :=
      everywhere_cons (outline_laid first scopes) (outlineAll_laid rest (first.outline scopes).2)
    exact everywhere_cons (everywhere_node (.label _ _) label)
      (everywhere_cons (everywhere_node (.plain (by decide) _) (body _)) (outlineCases_laid others _))

theorem outlineGuard_laid (guard : Option Syntax) (scopes : Scopes) :
    Everywhere Laid (outlineAll guard.toList scopes).1 := by
  cases guard with
  | none => exact everywhere_nil
  | some condition => exact outline_laid condition scopes

theorem outlineGenerators_laid (generators : List Generator) (inside : Inside) (scopes : Scopes)
    (laid : ∀ scopes, Everywhere Laid (inside scopes).1) :
    Everywhere Laid (outlineGenerators generators inside scopes).1 := by
  match generators with
  | [] => exact laid scopes
  | .mk target iterable conditions :: rest =>
    have later scopes := outlineGenerators_laid rest inside scopes laid
    rw [outlineGenerators, Generator.outline]
    exact everywhere_node (.plain (by decide) _) (everywhere_cons (outline_laid target scopes)
      (everywhere_cons (outline_laid iterable _) (outlineConditions_laid conditions _ _ later)))

theorem outlineConditions_laid (conditions : List Syntax) (inside : Inside) (scopes : Scopes)
    (laid : ∀ scopes, Everywhere Laid (inside scopes).1) :
    Everywhere Laid (outlineConditions conditions inside scopes).1 := by
  match conditions with
  | [] => exact laid scopes
  | condition :: rest =>
    have later := outlineConditions_laid rest inside (condition.outline scopes).2 laid
    rw [outlineConditions]
    exact everywhere_node (.plain (by decide) _) (everywhere_cons (outline_laid condition scopes) later)

end

end MethodLint.OutlineHeaders
