import Mathlib.Data.List.Forall2
import MethodLint.Proofs.OutlineMetrics
import MethodLint.Proofs.OutlineVariables

/-! Outlines that are measured alike. Two layouts are interchangeable if from the same
scopes they bind the same names and give nodes with as many declarators and decision
points, with constructs at the same levels, and with methods of the same metrics. Whatever
is put together from interchangeable layouts in the same way is interchangeable again. The
lines on which a source stands do not matter for any of this. -/
namespace MethodLint.AlikeOutlines
open Node Source SourceParts Walks Flags Findings OutlineFunctions OutlineMetrics OutlineVariables
open DecisionPoints (addDecisions addDecisions_append addDecisions_node)

/-! ## Methods -/

/-- Two methods have the same name and the same metrics, their line spans apart. -/
structure SameMetrics (a b : Method) : Prop where
  name : a.name = b.name
  noav : a.noav = b.noav
  cyclo : a.cyclo = b.cyclo
  depth : a.nestingDepth = b.nestingDepth
  exceeds : ∀ t, a.nestingExceeds t = b.nestingExceeds t

/-- Two method declarations have the same metrics, or neither has a name. -/
inductive DeclaredAlike (n n' : Node) : Prop
  | named (first : Method.ofNode n = .ok a) (second : Method.ofNode n' = .ok b) (same : SameMetrics a b)
  | unnamed (first : ¬ HasName n.header) (second : ¬ HasName n'.header)

theorem hasName_of_ofNode {n : Node} {m : Method} (made : Method.ofNode n = .ok m) : HasName n.header := by
  obtain ⟨declares, named, _⟩ := ofNode_ok made
  exact ⟨m.name, declares, named⟩

theorem declaredAlike_refl (n : Node) : DeclaredAlike n n := by
  rcases guarded_ofNode n with ⟨named, m, made⟩ | ⟨unnamed, _⟩
  · exact .named made made ⟨rfl, rfl, rfl, rfl, fun _ => rfl⟩
  · exact .unnamed unnamed unnamed

theorem declaredAlike_symm {n n' : Node} (alike : DeclaredAlike n n') : DeclaredAlike n' n := by
  cases alike with
  | named first second same =>
    refine .named second first ⟨same.name.symm, same.noav.symm, same.cyclo.symm, same.depth.symm, ?_⟩
    intro t
    exact (same.exceeds t).symm
  | unnamed first second => exact .unnamed second first

theorem declaredAlike_trans {n n' n'' : Node} (left : DeclaredAlike n n') (right : DeclaredAlike n' n'') :
    DeclaredAlike n n'' := by
  cases left with
  | named first second same =>
    cases right with
    | named second' third same' =>
      cases second.symm.trans second'
      refine .named first third ⟨same.name.trans same'.name, same.noav.trans same'.noav,
        same.cyclo.trans same'.cyclo, same.depth.trans same'.depth, ?_⟩
      intro t
      exact (same.exceeds t).trans (same'.exceeds t)
    | unnamed absent _ => exact absurd (hasName_of_ofNode second) absent
  | unnamed first second =>
    cases right with
    | named second' _ _ => exact absurd (hasName_of_ofNode second') second
    | unnamed _ third => exact .unnamed first third

/-! ## Nodes -/

/-- Nodes that can stand for one another below a method, and what is measured stays the same. -/
structure Alike (first second : List Node) : Prop where
  filled : first = [] ↔ second = []
  declarators : (preorderAll first).countP isDeclarator = (preorderAll second).countP isDeclarator
  decisions : ∀ total, addDecisions first total = addDecisions second total
  levels : ∀ outer, levelsAll first outer = levelsAll second outer
  methods : List.Forall₂ DeclaredAlike (among declaresMethod first) (among declaresMethod second)

variable {first second third first' second' below below' : List Node} {h h' : Header}

theorem alike_refl (nodes : List Node) : Alike nodes nodes :=
  ⟨.rfl, rfl, fun _ => rfl, fun _ => rfl, List.forall₂_same.mpr fun n _ => declaredAlike_refl n⟩

theorem alike_symm (alike : Alike first second) : Alike second first := by
  constructor
  · exact alike.filled.symm
  · exact alike.declarators.symm
  · intro total
    exact (alike.decisions total).symm
  · intro outer
    exact (alike.levels outer).symm
  · exact alike.methods.flip.imp fun _ _ => declaredAlike_symm

theorem declarations_trans {xs ys zs : List Node} (left : List.Forall₂ DeclaredAlike xs ys)
    (right : List.Forall₂ DeclaredAlike ys zs) : List.Forall₂ DeclaredAlike xs zs := by
  induction left generalizing zs with
  | nil => exact right
  | cons here _ ih =>
    cases right with
    | cons there later => exact .cons (declaredAlike_trans here there) (ih later)

theorem alike_trans (left : Alike first second) (right : Alike second third) : Alike first third := by
  constructor
  · exact left.filled.trans right.filled
  · exact left.declarators.trans right.declarators
  · intro total
    exact (left.decisions total).trans (right.decisions total)
  · intro outer
    exact (left.levels outer).trans (right.levels outer)
  · exact declarations_trans left.methods right.methods

theorem levelsAll_append (first second : List Node) (outer : Nat) :
    levelsAll (first ++ second) outer = levelsAll first outer ++ levelsAll second outer := by
  induction first with
  | nil => rfl
  | cons n rest ih => rw [List.cons_append, levelsAll, levelsAll, ih, List.append_assoc]

theorem alike_append (left : Alike first first') (right : Alike second second') :
    Alike (first ++ second) (first' ++ second') := by
  constructor
  · rw [List.append_eq_nil_iff, List.append_eq_nil_iff, left.filled, right.filled]
  · rw [preorderAll_append, preorderAll_append, List.countP_append, List.countP_append, left.declarators,
      right.declarators]
  · intro total
    rw [addDecisions_append, addDecisions_append, left.decisions]
    exact congrArg _ (funext right.decisions)
  · intro outer
    rw [levelsAll_append, levelsAll_append, left.levels, right.levels]
  · rw [among_append, among_append]
    exact List.rel_append left.methods right.methods

/-- Methods of a name that have alike nodes in them have the same metrics. -/
theorem sameMetrics_alike {a b : Method} (name : a.name = b.name) (inner : Alike a.children b.children) :
    SameMetrics a b := by
  constructor
  · exact name
  · rw [Method.noav, Method.noav, method_descendants, method_descendants]
    exact inner.declarators
  · have filled : a.children.isEmpty = b.children.isEmpty := by
      rw [Bool.eq_iff_iff, List.isEmpty_iff, List.isEmpty_iff, inner.filled]
    rw [Method.cyclo, Method.cyclo, method_descendants, method_descendants, filled]
    exact inner.decisions _
  · rw [Method.nestingDepth, Method.nestingDepth, nesting_levels, nesting_levels, inner.levels]
  · intro t
    rw [Method.nestingExceeds, Method.nestingExceeds, nesting_levels, nesting_levels, inner.levels]

/-- Two nodes of a kind, with the same decision points of their own, around alike nodes. -/
theorem alike_node (kind : h.kind = h'.kind)
    (own : Method.decisions (.mk h below) = Method.decisions (.mk h' below')) (inner : Alike below below')
    (declared : declaresMethod h = true → DeclaredAlike (.mk h below) (.mk h' below')) :
    Alike [.mk h below] [.mk h' below'] := by
  constructor
  · simp only [List.cons_ne_nil]
  · have same : isDeclarator (.mk h below) = isDeclarator (.mk h' below') :=
      congrArg (fun kind => decide (kind = Kind.variableDeclarator)) kind
    simp only [preorderAll, preorder_eq, children_mk, List.append_nil, List.countP_cons, inner.declarators, same]
  · intro total
    rw [addDecisions_node, addDecisions_node, own]
    exact congrArg _ (funext inner.decisions)
  · intro outer
    have same : h.opensLevel = h'.opensLevel := congrArg Kind.opensLevel kind
    simp only [levelsAll, levels, same, inner.levels]
  · have same : declaresMethod h' = declaresMethod h := by rw [declaresMethod, declaresMethod, kind]
    cases method : declaresMethod h with
    | true =>
      rw [among_take below method, among_take below' (same.trans method)]
      exact .cons (declared method) inner.methods
    | false =>
      rw [among_skip below method, among_skip below' (same.trans method)]
      exact inner.methods

theorem alike_undeclared (kind : h.kind = h'.kind) (other : declaresMethod h = false)
    (own : Method.decisions (.mk h below) = Method.decisions (.mk h' below')) (inner : Alike below below') :
    Alike [.mk h below] [.mk h' below'] := by
  apply alike_node kind own inner
  intro method
  rw [other] at method
  cases method

/-- A node that nothing is measured by. -/
structure Inert (h : Header) : Prop where
  declarator : h.kind ≠ Kind.variableDeclarator
  method : declaresMethod h = false
  level : h.opensLevel = false
  decisions : ∀ below, Method.decisions (.mk h below) = .ok 0

/-- An inert node can be left out, unless nothing is in it. -/
theorem alike_inert (inert : Inert h) (filled : below ≠ []) : Alike [.mk h below] below := by
  constructor
  · simp only [List.cons_ne_nil, filled]
  · have other : isDeclarator (.mk h below) = false := decide_eq_false inert.declarator
    simp only [preorderAll, preorder_eq, children_mk, List.append_nil, List.countP_cons, other]
    rfl
  · intro total
    rw [addDecisions_node, inert.decisions]
    rfl
  · intro outer
    rw [levelsAll, levelsAll, List.append_nil, levels_closed outer inert.level]
  · rw [among_skip below inert.method]
    exact List.forall₂_same.mpr fun n _ => declaredAlike_refl n

/-! ## Layouts -/

/-- One layout after the other. -/
def andThen (f g : Inside) : Inside := fun scopes =>
  ((f scopes).1 ++ (g (f scopes).2).1, (g (f scopes).2).2)

/-- A layout inside a node. -/
def inNode (h : Header) (f : Inside) : Inside := fun scopes => ([.mk h (f scopes).1], (f scopes).2)

/-- A layout inside a node that opens a scope. -/
def inScope (h : Header) (bound : List String) (f : Inside) : Inside := fun scopes =>
  ([.mk h (f (scopes.push bound)).1], (f (scopes.push bound)).2.pop)

/-- Two layouts come to the same scopes and to alike nodes, wherever they start. -/
def Interchangeable (f g : Inside) : Prop :=
  ∀ scopes, (f scopes).2 = (g scopes).2 ∧ Alike (f scopes).1 (g scopes).1

variable {f f' g g' k : Inside}

theorem interchangeable_refl (f : Inside) : Interchangeable f f := fun _ => ⟨rfl, alike_refl _⟩

theorem interchangeable_symm (same : Interchangeable f g) : Interchangeable g f :=
  fun scopes => ⟨(same scopes).1.symm, alike_symm (same scopes).2⟩

theorem interchangeable_trans (left : Interchangeable f g) (right : Interchangeable g k) : Interchangeable f k :=
  fun scopes => ⟨(left scopes).1.trans (right scopes).1, alike_trans (left scopes).2 (right scopes).2⟩

theorem interchangeable_andThen (first : Interchangeable f f') (later : Interchangeable g g') :
    Interchangeable (andThen f g) (andThen f' g') := by
  intro scopes
  obtain ⟨middle, before⟩ := first scopes
  obtain ⟨last, behind⟩ := later (f scopes).2
  rw [middle] at last behind
  unfold andThen
  rw [middle]
  exact ⟨last, alike_append before behind⟩

theorem interchangeable_inNode (kind : h.kind = h'.kind) (other : declaresMethod h = false)
    (own : ∀ scopes, Method.decisions (.mk h (f scopes).1) = Method.decisions (.mk h' (f' scopes).1))
    (inner : Interchangeable f f') : Interchangeable (inNode h f) (inNode h' f') := by
  intro scopes
  obtain ⟨last, nodes⟩ := inner scopes
  exact ⟨last, alike_undeclared kind other (own scopes) nodes⟩

theorem interchangeable_inScope {bound : List String} (kind : h.kind = h'.kind)
    (own : ∀ below below', Method.decisions (.mk h below) = Method.decisions (.mk h' below'))
    (inner : Interchangeable f f')
    (declared : ∀ below below', Alike below below' → declaresMethod h = true →
      DeclaredAlike (.mk h below) (.mk h' below')) :
    Interchangeable (inScope h bound f) (inScope h' bound f') := by
  intro scopes
  obtain ⟨last, nodes⟩ := inner (scopes.push bound)
  exact ⟨congrArg Scopes.pop last, alike_node kind (own _ _) nodes (declared _ _ nodes)⟩

/-- Nodes that add a decision point each are no declarations. -/
theorem interchangeable_deciding (decides : Kind.isDecision h.kind = true) (kind : h.kind = h'.kind)
    (inner : Interchangeable f f') : Interchangeable (inNode h f) (inNode h' f') := by
  have one {h : Header} (decides : Kind.isDecision h.kind = true) (below : List Node) :
      Method.decisions (.mk h below) = .ok 1 := if_pos decides
  apply interchangeable_inNode kind
  · apply decide_eq_false
    intro method
    rw [method] at decides
    exact absurd decides (by decide)
  · intro scopes
    rw [one decides, one (kind ▸ decides)]
  · exact inner

/-! ## Layouts of parts -/

section
variable {s s' subject subject' pattern pattern' opening opening' : Syntax} {parts parts' rest rest' : List Syntax}
  {guard guard' : Option Syntax} {cases cases' : List Case}

theorem layout_form (form : Form) (lines : Lines) (parts : List Syntax) :
    outlineAll [.plain form lines parts] = inNode (form.header lines) (outlineAll parts) := rfl

theorem layout_outer (scope : OuterScope) (names : List String) (lines : Lines) :
    outlineAll [.outer scope names lines] = inNode (plainHeader scope.label lines) (outlineAll []) := rfl

theorem layout_function (name : Option String) (lines : Lines) (parameters : List String)
    (body around : List Syntax) :
    outlineAll [.function name lines parameters body around] =
      inScope (variantHeader Kind.methodDeclaration lines (.methodDeclaration (.ofText? name))) parameters
        (outlineAll body) := rfl

theorem layout_class (lines : Lines) (parts : List Syntax) :
    outlineAll [.classDef lines parts] = inScope (plainHeader "ClassDef" lines) [] (outlineAll parts) := rfl

theorem layout_matching (lines : Lines) (subject : Syntax) (cases : List Case) :
    outlineAll [.matching lines subject cases] =
      inNode (plainHeader Kind.switch lines) (andThen (outlineAll [subject]) (outlineCases cases)) := rfl

theorem layout_comprehension (sort : Comprehension) (lines : Lines) (elements : List Syntax)
    (generators : List Generator) :
    outlineAll [.comprehension sort lines elements generators] =
      inNode (plainHeader sort.label lines) (outlineGenerators generators (outlineAll elements)) := rfl

theorem layout_generator (target iterable : Syntax) (conditions : List Syntax) (rest : List Generator) (f : Inside) :
    outlineGenerators (.mk target iterable conditions :: rest) f =
      inNode (plainHeader Kind.forLoop target.lines) (andThen (outlineAll [target])
        (andThen (outlineAll [iterable]) (outlineConditions conditions (outlineGenerators rest f)))) := rfl

theorem layout_condition (condition : Syntax) (rest : List Syntax) (f : Inside) :
    outlineConditions (condition :: rest) f =
      inNode (plainHeader Kind.ifStatement condition.lines)
        (andThen (outlineAll [condition]) (outlineConditions rest f)) := rfl

theorem layout_case (pattern : Syntax) (guard : Option Syntax) (first : Syntax) (rest : List Syntax)
    (others : List Case) :
    outlineCases (.mk pattern guard first rest :: others) =
      andThen (inNode (variantHeader Kind.switchLabel pattern.lines
          (.switchLabel (.bool (Case.mk pattern guard first rest).isDefault)))
          (andThen (outlineAll [pattern]) (outlineAll guard.toList)))
        (andThen (inNode (plainHeader "CaseBody" (Case.mk pattern guard first rest).bodyLines)
          (outlineAll (first :: rest))) (outlineCases others)) := by
  funext scopes
  rw [outlineCases_cons]
  rfl

theorem interchangeable_cons (first : Interchangeable (outlineAll [s]) (outlineAll [s']))
    (later : Interchangeable (outlineAll rest) (outlineAll rest')) :
    Interchangeable (outlineAll (s :: rest)) (outlineAll (s' :: rest')) :=
  interchangeable_andThen first later

theorem interchangeable_form (form : Form) (lines lines' : Lines)
    (inner : Interchangeable (outlineAll parts) (outlineAll parts')) :
    Interchangeable (outlineAll [.plain form lines parts]) (outlineAll [.plain form lines' parts']) := by
  rw [layout_form, layout_form]
  apply interchangeable_inNode
  · cases form <;> rfl
  · exact form_no_method
  · intro scopes
    cases form <;> rfl
  · exact inner

theorem interchangeable_name (id : String) (context : Context) (lines lines' : Lines) :
    Interchangeable (outlineAll [.name id context lines]) (outlineAll [.name id context lines']) := by
  intro scopes
  change (nameNode id context lines scopes).2 = (nameNode id context lines' scopes).2 ∧
    Alike [(nameNode id context lines scopes).1] [(nameNode id context lines' scopes).1]
  unfold nameNode
  split
  · exact ⟨rfl, alike_undeclared rfl rfl rfl (alike_refl _)⟩
  · exact ⟨rfl, alike_undeclared rfl rfl rfl (alike_refl _)⟩

theorem interchangeable_outer (scope : OuterScope) (names : List String) (lines lines' : Lines) :
    Interchangeable (outlineAll [.outer scope names lines]) (outlineAll [.outer scope names lines']) := by
  rw [layout_outer, layout_outer]
  apply interchangeable_inNode
  · rfl
  · cases scope <;> rfl
  · intro scopes
    cases scope <;> rfl
  · exact interchangeable_refl _

/-- The declaration of a function with alike nodes in it is measured alike. -/
theorem declaredAlike_function (name : Option String) (lines lines' : Lines) (inner : Alike below below') :
    DeclaredAlike (.mk (variantHeader Kind.methodDeclaration lines (.methodDeclaration (.ofText? name))) below)
      (.mk (variantHeader Kind.methodDeclaration lines' (.methodDeclaration (.ofText? name))) below') := by
  cases name with
  | none =>
    have unnamed (lines : Lines) :
        ¬ HasName (variantHeader Kind.methodDeclaration lines (.methodDeclaration (.ofText? none))) := by
      rintro ⟨name, declares, named⟩
      cases declares
      exact named rfl
    exact .unnamed (unnamed lines) (unnamed lines')
  | some name =>
    exact .named rfl rfl (sameMetrics_alike rfl inner)

theorem interchangeable_function (name : Option String) (lines lines' : Lines) (parameters : List String)
    (around around' : List Syntax) (inner : Interchangeable (outlineAll parts) (outlineAll parts')) :
    Interchangeable (outlineAll [.function name lines parameters parts around])
      (outlineAll [.function name lines' parameters parts' around']) := by
  rw [layout_function, layout_function]
  apply interchangeable_inScope
  · rfl
  · intro below below'
    rfl
  · exact inner
  · intro below below' alike _
    exact declaredAlike_function name lines lines' alike

theorem interchangeable_class (lines lines' : Lines)
    (inner : Interchangeable (outlineAll parts) (outlineAll parts')) :
    Interchangeable (outlineAll [.classDef lines parts]) (outlineAll [.classDef lines' parts']) := by
  rw [layout_class, layout_class]
  apply interchangeable_inScope
  · rfl
  · intro below below'
    rfl
  · exact inner
  · intro below below' _ method
    have other : declaresMethod (plainHeader "ClassDef" lines) = false := rfl
    rw [other] at method
    cases method

theorem interchangeable_case (isDefault : (Case.mk pattern guard opening rest).isDefault =
      (Case.mk pattern' guard' opening' rest').isDefault)
    (matched : Interchangeable (outlineAll [pattern]) (outlineAll [pattern']))
    (guarded : Interchangeable (outlineAll guard.toList) (outlineAll guard'.toList))
    (body : Interchangeable (outlineAll (opening :: rest)) (outlineAll (opening' :: rest')))
    (later : Interchangeable (outlineCases cases) (outlineCases cases')) :
    Interchangeable (outlineCases (.mk pattern guard opening rest :: cases))
      (outlineCases (.mk pattern' guard' opening' rest' :: cases')) := by
  rw [layout_case, layout_case, isDefault]
  apply interchangeable_andThen
  · apply interchangeable_inNode
    · rfl
    · rfl
    · intro scopes
      rfl
    · exact interchangeable_andThen matched guarded
  · apply interchangeable_andThen
    · apply interchangeable_inNode
      · rfl
      · rfl
      · intro scopes
        rfl
      · exact body
    · exact later

theorem interchangeable_matching (lines lines' : Lines)
    (defaults : cases.map Case.isDefault = cases'.map Case.isDefault)
    (matched : Interchangeable (outlineAll [subject]) (outlineAll [subject']))
    (inner : Interchangeable (outlineCases cases) (outlineCases cases')) :
    Interchangeable (outlineAll [.matching lines subject cases]) (outlineAll [.matching lines' subject' cases']) := by
  rw [layout_matching, layout_matching]
  apply interchangeable_inNode
  · rfl
  · rfl
  · intro scopes
    refine (decisions_switch subject cases lines scopes).trans
      (Eq.trans ?_ (decisions_switch subject' cases' lines' scopes).symm)
    have counted (cases : List Case) : (cases.countP fun c => (Part.case c).decides) =
        (cases.map Case.isDefault).countP (! ·) := by
      rw [List.countP_map]
      exact List.countP_congr fun c _ => by rw [decides_case]; rfl
    rw [counted, counted, defaults]
  · exact interchangeable_andThen matched inner

end

/-! ## Lines -/

mutual

/-- A part without the lines on which it stands. -/
def unlined : Syntax → Syntax
  | .plain form _ parts => .plain form .none (unlinedAll parts)
  | .name id context _ => .name id context .none
  | .outer scope names _ => .outer scope names .none
  | .function name _ parameters body around => .function name .none parameters (unlinedAll body) (unlinedAll around)
  | .classDef _ parts => .classDef .none (unlinedAll parts)
  | .matching _ subject cases => .matching .none (unlined subject) (unlinedCases cases)
  | .comprehension sort _ elements generators =>
    .comprehension sort .none (unlinedAll elements) (unlinedGenerators generators)

/-- The same for some parts. -/
def unlinedAll : List Syntax → List Syntax
  | [] => []
  | part :: rest => unlined part :: unlinedAll rest

/-- The same for cases. -/
def unlinedCases : List Case → List Case
  | [] => []
  | .mk pattern guard first rest :: others =>
    .mk (unlined pattern) (unlinedGuard guard) (unlined first) (unlinedAll rest) :: unlinedCases others

/-- The same for a guard, if there is one. -/
def unlinedGuard : Option Syntax → Option Syntax
  | none => none
  | some condition => some (unlined condition)

/-- The same for generators. -/
def unlinedGenerators : List Generator → List Generator
  | [] => []
  | .mk target iterable conditions :: rest =>
    .mk (unlined target) (unlined iterable) (unlinedAll conditions) :: unlinedGenerators rest

end

/-- A case takes whatever is left on whichever lines it stands. -/
theorem unlined_default (cases : List Case) : (unlinedCases cases).map Case.isDefault = cases.map Case.isDefault := by
  induction cases with
  | nil => rfl
  | cons c others ih =>
    obtain ⟨pattern, guard, first, rest⟩ := c
    rw [unlinedCases, List.map_cons, List.map_cons, ih]
    congr 1
    cases pattern with
    | plain form lines parts => cases form <;> cases parts <;> cases guard <;> rfl
    | _ => cases guard <;> rfl

mutual

/-- A part is laid out alike on whichever lines it stands. -/
theorem outline_unlined (s : Syntax) : Interchangeable (outlineAll [s]) (outlineAll [unlined s]) := by
  cases s with
  | plain form lines parts => exact interchangeable_form form lines .none (outlineAll_unlined parts)
  | name id context lines => exact interchangeable_name id context lines .none
  | outer scope names lines => exact interchangeable_outer scope names lines .none
  | function name lines parameters body around =>
    exact interchangeable_function name lines .none parameters around _ (outlineAll_unlined body)
  | classDef lines parts => exact interchangeable_class lines .none (outlineAll_unlined parts)
  | matching lines subject cases =>
    exact interchangeable_matching lines .none (unlined_default cases).symm (outline_unlined subject)
      (outlineCases_unlined cases)
  | comprehension sort lines elements generators =>
    rw [unlined, layout_comprehension, layout_comprehension]
    apply interchangeable_inNode
    · rfl
    · cases sort <;> rfl
    · intro scopes
      cases sort <;> rfl
    · exact outlineGenerators_unlined generators (outlineAll_unlined elements)

theorem outlineAll_unlined (parts : List Syntax) :
    Interchangeable (outlineAll parts) (outlineAll (unlinedAll parts)) := by
  cases parts with
  | nil => exact interchangeable_refl _
  | cons part rest => exact interchangeable_cons (outline_unlined part) (outlineAll_unlined rest)

theorem outlineCases_unlined (cases : List Case) :
    Interchangeable (outlineCases cases) (outlineCases (unlinedCases cases)) := by
  match cases with
  | [] => exact interchangeable_refl _
  | .mk pattern guard first rest :: others =>
    have default := List.cons.inj (unlined_default [.mk pattern guard first rest])
    exact interchangeable_case default.1.symm (outline_unlined pattern) (outlineGuard_unlined guard)
      (interchangeable_cons (outline_unlined first) (outlineAll_unlined rest)) (outlineCases_unlined others)

theorem outlineGuard_unlined (guard : Option Syntax) :
    Interchangeable (outlineAll guard.toList) (outlineAll (unlinedGuard guard).toList) := by
  cases guard with
  | none => exact interchangeable_refl _
  | some condition => exact outline_unlined condition

theorem outlineGenerators_unlined (generators : List Generator) {f f' : Inside} (inner : Interchangeable f f') :
    Interchangeable (outlineGenerators generators f) (outlineGenerators (unlinedGenerators generators) f') := by
  match generators with
  | [] => exact inner
  | .mk target iterable conditions :: rest =>
    rw [unlinedGenerators, layout_generator, layout_generator]
    refine interchangeable_deciding rfl rfl ?_
    apply interchangeable_andThen (outline_unlined target)
    apply interchangeable_andThen (outline_unlined iterable)
    exact outlineConditions_unlined conditions (outlineGenerators_unlined rest inner)

theorem outlineConditions_unlined (conditions : List Syntax) {f f' : Inside} (inner : Interchangeable f f') :
    Interchangeable (outlineConditions conditions f) (outlineConditions (unlinedAll conditions) f') := by
  match conditions with
  | [] => exact inner
  | condition :: rest =>
    rw [unlinedAll, layout_condition, layout_condition]
    refine interchangeable_deciding rfl rfl ?_
    exact interchangeable_andThen (outline_unlined condition) (outlineConditions_unlined rest inner)

end

end MethodLint.AlikeOutlines
