import MethodLint.Proofs.OutlineFunctions

/-! Every scope of a source has its own variables in the outline. The nodes that
belong to a scope are those below its function or class that no inner scope
encloses. In their pre-order the first binding of a name declares it and every
later one leaves a plain name, so that a scope has one declarator for each name
that is bound in it and is not a parameter. Conversion reaches bindings in that
order also where a comprehension or a case is laid out anew, and it leaves the
scopes around a function or a class as they were. -/
namespace MethodLint.OutlineVariables
open Node Source SourceParts Walks Findings OutlineFunctions

/-! ## The nodes of a scope -/

/-- Functions and classes open scopes. -/
def opensScope (h : Header) : Bool := h.kind = Kind.methodDeclaration || h.kind = "ClassDef"

mutual

/-- A node and everything below it in pre-order, as far as it belongs to the same
scope. -/
def own : Node → List Node
  | .mk h below => .mk h below :: if opensScope h then [] else ownAll below

/-- The same for some nodes, one after the other. -/
def ownAll : List Node → List Node
  | [] => []
  | n :: rest => own n ++ ownAll rest

end

/-- A variable declarator. -/
def isDeclarator (n : Node) : Bool := n.kind = Kind.variableDeclarator

/-- A node that stands for the binding of a name: a variable declarator, or a plain
name that is there to be stored to. -/
def isBinding (n : Node) : Bool :=
  isDeclarator n || (n.kind = "Name" && n.children.any fun c => c.kind = Form.store.kind)

/-- The nodes among some nodes of a scope that stand for bindings. -/
def boundIn (nodes : List Node) : List Node := (ownAll nodes).filter isBinding

theorem ownAll_append (first second : List Node) :
    ownAll (first ++ second) = ownAll first ++ ownAll second := by
  induction first with
  | nil => rfl
  | cons n rest ih => simp [ownAll, ih]

/-- Every node belongs to one scope: to the one that is open around all the nodes, or
to one that is opened among them. So nodes of any sort can be counted by scopes. -/
theorem counted_by_scope (sort : Node → Bool) (nodes : List Node) (more : Nat) :
    (preorderAll nodes).countP sort + more =
      (ownAll nodes).countP sort +
        (among opensScope nodes).foldr (fun d total => (ownAll d.children).countP sort + total) more := by
  match nodes with
  | [] => rfl
  | .mk h below :: rest =>
    rw [among_cons, List.foldr_append]
    have later := counted_by_scope sort rest more
    generalize (among opensScope rest).foldr _ more = others at later ⊢
    have inner := counted_by_scope sort below others
    cases opens : opensScope h with
    | true =>
      rw [among_take below opens]
      simp only [preorderAll, preorder_eq, children_mk, ownAll, own, opens, if_true, List.countP_cons,
        List.countP_append, List.countP_nil, List.foldr_cons]
      omega
    | false =>
      rw [among_skip below opens]
      simp only [preorderAll, preorder_eq, children_mk, ownAll, own, opens, Bool.false_eq_true,
        if_false, List.countP_cons, List.countP_append]
      omega

/-! ## Bindings in order -/

/-- Nodes stand for bindings in their order: a name that is not known yet is
declared and is known from then on, and a name that is known is left plain. -/
inductive Bound : (known : List String) → List Binding → List Node → Prop where
  | none : Bound known [] []
  | declared (fresh : b.name ∉ known)
      (node : n.header =
        variantHeader Kind.variableDeclarator b.lines (.variableDeclarator (.str b.name)))
      (later : Bound (b.name :: known) bs ns) : Bound known (b :: bs) (n :: ns)
  | plain (old : b.name ∈ known) (node : n.header = plainHeader "Name" b.lines)
      (later : Bound known bs ns) : Bound known (b :: bs) (n :: ns)

/-- The names that are known after some bindings. -/
def knownAfter (known : List String) (bs : List Binding) : List String :=
  bs.foldl (fun known b => if known.contains b.name then known else b.name :: known) known

theorem knownAfter_append (known : List String) (first second : List Binding) :
    knownAfter known (first ++ second) = knownAfter (knownAfter known first) second := by
  simp [knownAfter]

variable {known : List String} {bs cs : List Binding} {ns ms : List Node}

theorem bound_append (left : Bound known bs ns) (right : Bound (knownAfter known bs) cs ms) :
    Bound known (bs ++ cs) (ns ++ ms) := by
  induction left with
  | none => exact right
  | declared fresh node _ ih =>
    refine .declared fresh node (ih ?_)
    simpa [knownAfter, fresh] using right
  | plain old node _ ih =>
    refine .plain old node (ih ?_)
    simpa [knownAfter, old] using right

/-- Each name that is bound and was not known has one declarator, with its name. -/
theorem bound_declarators (bound : Bound known bs ns) :
    ∃ names : List String, names.Nodup ∧
      (∀ name, name ∈ names ↔ name ∈ bs.map Binding.name ∧ name ∉ known) ∧
      List.Forall₂ (fun name n => n.header.variant = .variableDeclarator (.str name)) names
        (ns.filter isDeclarator) := by
  induction bound with
  | none => exact ⟨[], .nil, by simp, .nil⟩
  | @declared known bs ns b n fresh node _ ih =>
    obtain ⟨names, distinct, members, declare⟩ := ih
    have declarator : isDeclarator n = true := by simp [isDeclarator, Node.kind, node, variantHeader]
    refine ⟨b.name :: names, List.nodup_cons.mpr ⟨?_, distinct⟩, ?_, ?_⟩
    · intro again
      exact ((members b.name).mp again).2 (by simp)
    · intro name
      by_cases same : name = b.name
      · simp [same, fresh]
      · simp [same, members]
    · rw [List.filter_cons_of_pos declarator]
      exact .cons (by rw [node]; rfl) declare
  | @plain known bs ns b n old node _ ih =>
    obtain ⟨names, distinct, members, declare⟩ := ih
    have inert : ¬ isDeclarator n = true := by
      simp [isDeclarator, Node.kind, node, plainHeader, Header.plain, Kind.variableDeclarator]
    refine ⟨names, distinct, fun name => ?_, by rwa [List.filter_cons_of_neg inert]⟩
    by_cases same : name = b.name
    · simp [same, old, members]
    · simp [same, members]

/-- What is laid out binds these names in this order, and they are known in the
innermost scope afterwards. -/
structure Binds (scopes : Scopes) (bs : List Binding) (laid : List Node × Scopes) : Prop where
  after : laid.2 = ⟨knownAfter scopes.top bs, scopes.below⟩
  nodes : Bound scopes.top bs (boundIn laid.1)

variable {scopes middle last : Scopes}

theorem binds_nil (scopes : Scopes) : Binds scopes [] ([], scopes) := ⟨rfl, .none⟩

theorem binds_append (left : Binds scopes bs (ns, middle)) (right : Binds middle cs (ms, last)) :
    Binds scopes (bs ++ cs) (ns ++ ms, last) := by
  obtain ⟨rfl, before⟩ := left
  obtain ⟨rfl, later⟩ := right
  refine ⟨by simp [knownAfter_append], ?_⟩
  rw [boundIn, ownAll_append, List.filter_append]
  exact bound_append before later

/-- The node of a kind that neither opens a scope nor stands for a binding. -/
structure Transparent (h : Header) : Prop where
  closed : opensScope h = false
  declarator : h.kind ≠ Kind.variableDeclarator
  name : h.kind ≠ "Name"

theorem boundIn_transparent {h : Header} (transparent : Transparent h) (below : List Node) :
    boundIn [.mk h below] = boundIn below := by
  have binding : isBinding (.mk h below) = false := by
    simp [isBinding, isDeclarator, Node.kind, transparent.declarator, transparent.name]
  simp [boundIn, ownAll, own, transparent.closed, binding]

theorem binds_transparent {h : Header} (transparent : Transparent h) (inner : Binds scopes bs (ns, last)) :
    Binds scopes bs ([.mk h ns], last) :=
  ⟨inner.after, (boundIn_transparent transparent ns).symm ▸ inner.nodes⟩

theorem transparent_form (form : Form) (lines : Lines) : Transparent (form.header lines) where
  closed := by cases form <;> rfl
  declarator := form_kind_ne (by decide)
  name := form_kind_ne (by decide)

theorem transparent_kind {kind : String} (lines : Lines)
    (other : (!(kind = Kind.methodDeclaration || kind = "ClassDef" || kind = Kind.variableDeclarator
      || kind = "Name")) = true) : Transparent (plainHeader kind lines) := by
  simp only [Bool.not_eq_true', Bool.or_eq_false_iff, decide_eq_false_iff_not] at other
  obtain ⟨⟨⟨method, classDef⟩, declarator⟩, name⟩ := other
  exact ⟨by simp [opensScope, plainHeader, Header.plain, method, classDef], declarator, name⟩

theorem transparent_label (lines : Lines) (flag : Value) :
    Transparent (variantHeader Kind.switchLabel lines (.switchLabel flag)) where
  closed := rfl
  declarator := show Kind.switchLabel ≠ Kind.variableDeclarator by decide
  name := show Kind.switchLabel ≠ "Name" by decide

/-- A scope that is opened binds nothing outside, and the scopes around it are as
they were once it is closed. -/
theorem binds_opened {h : Header} {parameters : List String} (opens : opensScope h = true)
    (inner : Binds (scopes.push parameters) bs (ns, last)) :
    Binds scopes [] ([.mk h ns], last.pop) := by
  obtain ⟨rfl, -⟩ := inner
  refine ⟨rfl, ?_⟩
  have binding : isBinding (.mk h ns) = false := by
    simp only [opensScope, Bool.or_eq_true, decide_eq_true_eq] at opens
    rcases opens with kind | kind <;>
      simp [isBinding, isDeclarator, Node.kind, kind, Kind.methodDeclaration, Kind.variableDeclarator]
  simp [boundIn, ownAll, own, opens, binding, Bound.none]

/-! ## The bindings of an outline -/

theorem binds_stored (id : String) (lines : Lines) (scopes : Scopes) :
    Binds scopes [⟨id, lines⟩]
      ([(nameNode id .store lines scopes).1], (nameNode id .store lines scopes).2) := by
  by_cases known : id ∈ scopes.top
  · have same : nameNode id .store lines scopes =
        (.mk (plainHeader "Name" lines) [.mk (Form.store.header .none) []], scopes) := by
      simp [nameNode, known, Context.form]
    rw [same]
    exact ⟨by simp [knownAfter, known], .plain known rfl .none⟩
  · have fresh : nameNode id .store lines scopes =
        (.mk (variantHeader Kind.variableDeclarator lines (.variableDeclarator (.str id)))
          [.mk (Form.store.header .none) []], scopes.bind id) := by
      simp [nameNode, known, Context.form]
    rw [fresh]
    exact ⟨by simp [knownAfter, Scopes.bind, known], .declared known rfl .none⟩

theorem binds_unstored (id : String) {context : Context} (lines : Lines) (scopes : Scopes)
    (unstored : context ≠ .store) :
    Binds scopes [] ([(nameNode id context lines scopes).1], (nameNode id context lines scopes).2) := by
  have inert : nameNode id context lines scopes =
      (.mk (plainHeader "Name" lines) [.mk (context.form.header .none) []], scopes) := by
    simp [nameNode, unstored]
  rw [inert]
  refine ⟨rfl, ?_⟩
  cases context with
  | store => exact absurd rfl unstored
  | load => exact .none
  | del => exact .none

mutual

theorem outline_binds (s : Syntax) (scopes : Scopes) :
    Binds scopes (bindingsIn s) ([(s.outline scopes).1], (s.outline scopes).2) := by
  cases s with
  | plain form lines parts =>
    exact binds_transparent (transparent_form form lines) (outlineAll_binds parts scopes)
  | name id context lines =>
    cases context with
    | store => exact binds_stored id lines scopes
    | load => exact binds_unstored id lines scopes (by decide)
    | del => exact binds_unstored id lines scopes (by decide)
  | outer scope names lines => cases scope <;> exact ⟨rfl, .none⟩
  | function name lines parameters body around =>
    exact binds_opened rfl (outlineAll_binds body (scopes.push parameters))
  | classDef lines parts => exact binds_opened rfl (outlineAll_binds parts (scopes.push []))
  | matching lines subject cases =>
    exact binds_transparent (transparent_kind lines (by decide))
      (binds_append (outline_binds subject scopes) (outlineCases_binds cases _))
  | comprehension sort lines elements generators =>
    have sorted : Transparent (plainHeader sort.label lines) :=
      transparent_kind lines (by cases sort <;> decide)
    exact binds_transparent sorted
      (outlineGenerators_binds generators (outlineAll elements) (bindingsAmong elements) scopes
        fun scopes => outlineAll_binds elements scopes)

theorem outlineAll_binds (parts : List Syntax) (scopes : Scopes) :
    Binds scopes (bindingsAmong parts) (outlineAll parts scopes) := by
  cases parts with
  | nil => exact binds_nil scopes
  | cons part rest => exact binds_append (outline_binds part scopes) (outlineAll_binds rest _)

theorem outlineCases_binds (cases : List Case) (scopes : Scopes) :
    Binds scopes (bindingsAmongCases cases) (outlineCases cases scopes) := by
  match cases with
  | [] => exact binds_nil scopes
  | .mk pattern guard first rest :: others =>
    have label := binds_append (outline_binds pattern scopes) (outlineGuard_binds guard _)
    have body scopes := binds_append (outline_binds first scopes) (outlineAll_binds rest _)
    rw [outlineCases_cons, bindingsAmongCases]
    exact binds_append (binds_append (binds_transparent (transparent_label _ _) label)
      (binds_transparent (transparent_kind _ (by decide)) (body _))) (outlineCases_binds others _)

theorem outlineGuard_binds (guard : Option Syntax) (scopes : Scopes) :
    Binds scopes (bindingsOfGuard guard) (outlineAll guard.toList scopes) := by
  cases guard with
  | none => exact binds_nil scopes
  | some condition => exact outline_binds condition scopes

theorem outlineGenerators_binds (generators : List Generator) (inside : Inside) (cs : List Binding)
    (scopes : Scopes) (laid : ∀ scopes, Binds scopes cs (inside scopes)) :
    Binds scopes (bindingsAmongGenerators generators ++ cs)
      (outlineGenerators generators inside scopes) := by
  match generators with
  | [] => exact laid scopes
  | .mk target iterable conditions :: rest =>
    have later scopes := outlineGenerators_binds rest inside cs scopes laid
    have tests := outlineConditions_binds conditions _ _
      (iterable.outline (target.outline scopes).2).2 later
    rw [outlineGenerators, Generator.outline, bindingsAmongGenerators]
    simp only [List.append_assoc]
    exact binds_transparent (transparent_kind _ (by decide))
      (binds_append (outline_binds target scopes) (binds_append (outline_binds iterable _) tests))

theorem outlineConditions_binds (conditions : List Syntax) (inside : Inside) (cs : List Binding)
    (scopes : Scopes) (laid : ∀ scopes, Binds scopes cs (inside scopes)) :
    Binds scopes (bindingsAmong conditions ++ cs) (outlineConditions conditions inside scopes) := by
  match conditions with
  | [] => exact laid scopes
  | condition :: rest =>
    have later := outlineConditions_binds rest inside cs (condition.outline scopes).2 laid
    rw [outlineConditions, bindingsAmong, List.append_assoc]
    exact binds_transparent (transparent_kind _ (by decide))
      (binds_append (outline_binds condition scopes) later)

end

/-! ## The scopes of an outline -/

/-- The nodes below a node that opens a scope say what is bound there: they stand
for the bindings in order, and there is one declarator for each variable, with its
name. -/
structure Realizes (s : Scope) (n : Node) : Prop where
  bindings : Bound s.parameters (bindingsAmong s.parts) (boundIn n.children)
  declarators : ∃ names : List String, names.Nodup ∧ names.toFinset = s.variables ∧
    List.Forall₂ (fun name d => d.header.variant = .variableDeclarator (.str name)) names
      ((ownAll n.children).filter isDeclarator)

theorem realizes_outline (s : Scope) (scopes : Scopes) (h : Header) :
    Realizes s (.mk h (outlineAll s.parts (scopes.push s.parameters)).1) := by
  have bound := (outlineAll_binds s.parts (scopes.push s.parameters)).nodes
  obtain ⟨names, distinct, members, declare⟩ := bound_declarators bound
  refine ⟨bound, names, distinct, ?_, ?_⟩
  · ext name
    simpa [Scope.variables, Scopes.push] using members name
  · have same : (boundIn (outlineAll s.parts (scopes.push s.parameters)).1).filter isDeclarator =
        (ownAll (outlineAll s.parts (scopes.push s.parameters)).1).filter isDeclarator := by
      rw [boundIn, List.filter_filter]
      exact List.filter_congr fun n _ => by cases other : isDeclarator n <;> simp [isBinding, other]
    exact same ▸ declare

/-- A scope has as many declarators as variables. -/
theorem realizes_count {s : Scope} {n : Node} (realized : Realizes s n) :
    (ownAll n.children).countP isDeclarator = s.variables.card := by
  obtain ⟨names, distinct, members, declare⟩ := realized.declarators
  rw [List.countP_eq_length_filter, ← declare.length_eq, ← members,
    List.toFinset_card_of_nodup distinct]

theorem realizes_total {scopes : List Scope} {nodes : List Node}
    (realized : List.Forall₂ Realizes scopes nodes) :
    scopes.foldr (fun s total => s.variables.card + total) 0 =
      nodes.foldr (fun d total => (ownAll d.children).countP isDeclarator + total) 0 := by
  induction realized with
  | nil => rfl
  | cons first _ ih => rw [List.foldr_cons, List.foldr_cons, ih, realizes_count first]

mutual

theorem outline_scopes (s : Syntax) (scopes : Scopes) :
    List.Forall₂ Realizes (scopesIn s) (among opensScope [(s.outline scopes).1]) := by
  cases s with
  | plain form lines parts =>
    rw [Syntax.outline, among_skip _ (transparent_form form lines).closed]
    exact outlineAll_scopes parts scopes
  | name id context lines =>
    have inert : among opensScope [(nameNode id context lines scopes).1] = [] := by
      unfold nameNode
      split <;> cases context <;> rfl
    rw [Syntax.outline, inert]
    exact .nil
  | outer scope names lines => cases scope <;> exact .nil
  | function name lines parameters body around =>
    rw [Syntax.outline, among_take _ rfl]
    exact .cons (realizes_outline ⟨parameters, body⟩ scopes _) (outlineAll_scopes body _)
  | classDef lines parts =>
    rw [Syntax.outline, among_take _ rfl]
    exact .cons (realizes_outline ⟨[], parts⟩ scopes _) (outlineAll_scopes parts _)
  | matching lines subject cases =>
    rw [Syntax.outline, among_skip _ rfl, among_cons]
    exact List.rel_append (outline_scopes subject scopes) (outlineCases_scopes cases _)
  | comprehension sort lines elements generators =>
    rw [Syntax.outline, among_skip _ (by cases sort <;> rfl)]
    exact outlineGenerators_scopes generators (outlineAll elements) (scopesAmong elements) scopes
      fun scopes => outlineAll_scopes elements scopes

theorem outlineAll_scopes (parts : List Syntax) (scopes : Scopes) :
    List.Forall₂ Realizes (scopesAmong parts) (among opensScope (outlineAll parts scopes).1) := by
  cases parts with
  | nil => exact .nil
  | cons part rest =>
    rw [outlineAll, among_cons]
    exact List.rel_append (outline_scopes part scopes) (outlineAll_scopes rest _)

theorem outlineCases_scopes (cases : List Case) (scopes : Scopes) :
    List.Forall₂ Realizes (scopesAmongCases cases) (among opensScope (outlineCases cases scopes).1) := by
  match cases with
  | [] => exact .nil
  | .mk pattern guard first rest :: others =>
    have label := List.rel_append (outline_scopes pattern scopes)
      (outlineGuard_scopes guard (pattern.outline scopes).2)
    have body scopes := List.rel_append (outline_scopes first scopes)
      (outlineAll_scopes rest (first.outline scopes).2)
    rw [outlineCases_cons, among_cons, among_cons (.mk (plainHeader "CaseBody" _) _),
      among_skip _ rfl, among_skip _ rfl, among_cons (pattern.outline _).1,
      among_cons (first.outline _).1, ← List.append_assoc]
    exact List.rel_append (List.rel_append label (body _)) (outlineCases_scopes others _)

theorem outlineGuard_scopes (guard : Option Syntax) (scopes : Scopes) :
    List.Forall₂ Realizes (scopesOfGuard guard) (among opensScope (outlineAll guard.toList scopes).1) := by
  cases guard with
  | none => exact .nil
  | some condition => exact outline_scopes condition scopes

theorem outlineGenerators_scopes (generators : List Generator) (inside : Inside) (found : List Scope)
    (scopes : Scopes) (laid : ∀ scopes, List.Forall₂ Realizes found (among opensScope (inside scopes).1)) :
    List.Forall₂ Realizes (scopesAmongGenerators generators ++ found)
      (among opensScope (outlineGenerators generators inside scopes).1) := by
  match generators with
  | [] => exact laid scopes
  | .mk target iterable conditions :: rest =>
    have later scopes := outlineGenerators_scopes rest inside found scopes laid
    have tests := outlineConditions_scopes conditions _ _
      (iterable.outline (target.outline scopes).2).2 later
    rw [outlineGenerators, Generator.outline, scopesAmongGenerators, among_skip _ rfl,
      among_cons, among_cons (iterable.outline _).1]
    simp only [List.append_assoc]
    exact List.rel_append (outline_scopes target scopes)
      (List.rel_append (outline_scopes iterable _) tests)

theorem outlineConditions_scopes (conditions : List Syntax) (inside : Inside) (found : List Scope)
    (scopes : Scopes) (laid : ∀ scopes, List.Forall₂ Realizes found (among opensScope (inside scopes).1)) :
    List.Forall₂ Realizes (scopesAmong conditions ++ found)
      (among opensScope (outlineConditions conditions inside scopes).1) := by
  match conditions with
  | [] => exact laid scopes
  | condition :: rest =>
    have later := outlineConditions_scopes rest inside found (condition.outline scopes).2 laid
    rw [outlineConditions, scopesAmong, List.append_assoc, among_skip _ rfl, among_cons]
    exact List.rel_append (outline_scopes condition scopes) later

end

/-! ## The variables of each function -/

/-- A node has the variables that the source of a function binds: its own scope and
the scopes inside it are realized one by one, and their variables are what is
counted. -/
structure Declares (f : Function) (n : Node) : Prop where
  name : n.header.variant = .methodDeclaration (.ofText? f.name)
  scope : Realizes f.scope n
  inner : List.Forall₂ Realizes (scopesAmong f.body) (among opensScope n.children)
  counted : ∃ method, Method.ofNode n = .ok method ∧ method.noav = variableCount f

theorem declares_outline {f : Function} {n : Node} (outlined : IsOutlineOf f n) : Declares f n := by
  obtain ⟨named, -, scopes, rfl⟩ := outlined
  obtain ⟨name, names⟩ := Option.isSome_iff_exists.mp named
  have scope : Realizes f.scope (.mk _ _) := realizes_outline f.scope scopes
    (variantHeader Kind.methodDeclaration f.lines (.methodDeclaration (.ofText? f.name)))
  have inner := outlineAll_scopes f.body (scopes.push f.parameters)
  refine ⟨rfl, scope, inner,
    ⟨.str name, .ofLine? f.lines.first, .ofLine? f.lines.last, _⟩, by rw [names]; rfl, ?_⟩
  rw [Method.noav, method_descendants, variableCount, List.foldr_cons, realizes_total inner,
    ← realizes_count scope]
  exact counted_by_scope isDeclarator _ 0

/-- The number of variables that is taken from the outline of each function of a
source is the number of names that are bound in its scope and in each scope inside
it, parameters left out. In each of these scopes every such name has one
declarator, where it is bound first, and later bindings leave plain names. -/
theorem outline_declares_variables (m : Module) (path : String) (lineCount : Int)
    (grammatical : areGrammatical m.body = true) :
    List.Forall₂ Declares (functionsAmong m.body) (methods (m.outline path lineCount)) := by
  rw [Module.outline, methods_unit _ (show Kind.compilationUnit ≠ Kind.methodDeclaration by decide)]
  exact (outlineAll_functions m.body grammatical _).imp fun _ _ => declares_outline

/-- A function that binds its parameter and `b` and, in a comprehension, `x`; a class
and a function inside it bind `b` once more, the latter twice. -/
def rebinding : Module where
  body := [.function (some "f") ⟨some 1, some 9⟩ ["a"]
    [.plain .assignment ⟨some 2, some 2⟩
      [.name "a" .store ⟨some 2, some 2⟩, .name "b" .store ⟨some 2, some 2⟩, .leaf .constant],
    .comprehension .list ⟨some 3, some 3⟩ [.name "x" .load ⟨some 3, some 3⟩]
      [.mk (.name "x" .store ⟨some 3, some 3⟩) (.name "a" .load ⟨some 3, some 3⟩) []],
    .classDef ⟨some 4, some 5⟩
      [.plain .assignment ⟨some 5, some 5⟩ [.name "b" .store ⟨some 5, some 5⟩, .leaf .constant]],
    .function (some "g") ⟨some 6, some 9⟩ []
      [.plain .assignment ⟨some 7, some 7⟩ [.name "b" .store ⟨some 7, some 7⟩, .leaf .constant],
      .plain .assignment ⟨some 8, some 8⟩ [.name "b" .store ⟨some 8, some 8⟩, .leaf .constant]] []]
    []]

/-- Such a source keeps to the grammar; the scopes of `f` have two, one and one
variables. -/
theorem rebinding_declared :
    areGrammatical rebinding.body = true ∧
    List.Forall₂ Declares (functionsAmong rebinding.body) (methods (rebinding.outline "a.py" 9)) ∧
    (functionsAmong rebinding.body).map (fun f => (f.name, variableCount f)) =
      [(some "f", 4), (some "g", 1)] :=
  have grammatical : areGrammatical rebinding.body = true := by decide
  ⟨grammatical, outline_declares_variables rebinding "a.py" 9 grammatical, by decide⟩

end MethodLint.OutlineVariables
