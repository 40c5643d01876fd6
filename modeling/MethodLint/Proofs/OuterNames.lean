import MethodLint.Proofs.AlikeOutlines

/-! Names that are declared to belong elsewhere. A scope may say that a name is global, or
that it is one of a function around it. The outline takes no notice of that: it is the same
without the declarations, so that a scope has a declarator for every name that is bound in
it and is no parameter, its own or not. A variable of a function that functions inside it
bind again is counted once for each scope that binds it. -/
namespace MethodLint.OuterNames
open Node Source SourceParts Walks Findings OutlineFunctions OutlineVariables AlikeOutlines

/-! ## Declarations -/

mutual

/-- The names that are declared in a part, for the scope that it stands in, to belong
elsewhere. -/
def outersIn : Syntax → List String
  | .plain _ _ parts => outersAmong parts
  | .outer _ names _ => names
  | .name _ _ _ | .function _ _ _ _ _ | .classDef _ _ => []
  | .matching _ subject cases => outersIn subject ++ outersAmongCases cases
  | .comprehension _ _ elements generators => outersAmong elements ++ outersAmongGenerators generators

/-- The names that are so declared in some parts. -/
def outersAmong : List Syntax → List String
  | [] => []
  | part :: rest => outersIn part ++ outersAmong rest

/-- The names that are so declared in some cases. -/
def outersAmongCases : List Case → List String
  | [] => []
  | .mk pattern guard first rest :: others =>
    outersIn pattern ++ outersOfGuard guard ++ (outersIn first ++ outersAmong rest) ++ outersAmongCases others

/-- The names that are so declared in a guard, if there is one. -/
def outersOfGuard : Option Syntax → List String
  | none => []
  | some condition => outersIn condition

/-- The names that are so declared in some generators. -/
def outersAmongGenerators : List Generator → List String
  | [] => []
  | .mk target iterable conditions :: rest =>
    outersIn target ++ outersIn iterable ++ outersAmong conditions ++ outersAmongGenerators rest

end

mutual

/-- A part whose declarations of names that belong elsewhere name none. -/
def undeclared : Syntax → Syntax
  | .plain form lines parts => .plain form lines (undeclaredAll parts)
  | .name id context lines => .name id context lines
  | .outer scope _ lines => .outer scope [] lines
  | .function name lines parameters body around => .function name lines parameters (undeclaredAll body) around
  | .classDef lines parts => .classDef lines (undeclaredAll parts)
  | .matching lines subject cases => .matching lines (undeclared subject) (undeclaredCases cases)
  | .comprehension sort lines elements generators =>
    .comprehension sort lines (undeclaredAll elements) (undeclaredGenerators generators)

/-- The same for some parts. -/
def undeclaredAll : List Syntax → List Syntax
  | [] => []
  | part :: rest => undeclared part :: undeclaredAll rest

/-- The same for cases. -/
def undeclaredCases : List Case → List Case
  | [] => []
  | .mk pattern guard first rest :: others =>
    .mk (undeclared pattern) (undeclaredGuard guard) (undeclared first) (undeclaredAll rest) :: undeclaredCases others

/-- The same for a guard, if there is one. -/
def undeclaredGuard : Option Syntax → Option Syntax
  | none => none
  | some condition => some (undeclared condition)

/-- The same for generators. -/
def undeclaredGenerators : List Generator → List Generator
  | [] => []
  | .mk target iterable conditions :: rest =>
    .mk (undeclared target) (undeclared iterable) (undeclaredAll conditions) :: undeclaredGenerators rest

end

variable {m m' : Module} {f : Function} {n : Node} {s : Scope} {name : String}

/-! ## The outline without them -/

theorem undeclared_lines (part : Syntax) : (undeclared part).lines = part.lines := by
  cases part <;> rfl

theorem undeclared_bodyLines (first : Syntax) (rest : List Syntax) (pattern : Syntax) (guard : Option Syntax) :
    (Case.mk (undeclared pattern) (undeclaredGuard guard) (undeclared first) (undeclaredAll rest)).bodyLines =
      (Case.mk pattern guard first rest).bodyLines := by
  have last (rest : List Syntax) (one : Syntax) :
      ((undeclaredAll rest).getLastD (undeclared one)).lines = (rest.getLastD one).lines := by
    induction rest generalizing one with
    | nil => exact undeclared_lines one
    | cons part rest ih => rw [undeclaredAll, List.getLastD_cons, List.getLastD_cons, ih]
  simp only [Case.bodyLines, undeclared_lines, List.getLastD_cons, last]

theorem undeclared_default (pattern : Syntax) (guard : Option Syntax) (first : Syntax) (rest : List Syntax) :
    (Case.mk (undeclared pattern) (undeclaredGuard guard) (undeclared first) (undeclaredAll rest)).isDefault =
      (Case.mk pattern guard first rest).isDefault := by
  cases pattern with
  | plain form lines parts => cases form <;> cases parts <;> cases guard <;> rfl
  | _ => cases guard <;> rfl

theorem layout_cons (part : Syntax) (rest : List Syntax) :
    outlineAll (part :: rest) = andThen (outlineAll [part]) (outlineAll rest) := rfl

mutual

/-- A part is laid out the same without its declarations. -/
theorem outline_undeclared (part : Syntax) : outlineAll [undeclared part] = outlineAll [part] := by
  cases part with
  | plain form lines parts => rw [undeclared, layout_form, layout_form, outlineAll_undeclared]
  | name id context lines => rfl
  | outer scope names lines => rfl
  | function name lines parameters body around =>
    rw [undeclared, layout_function, layout_function, outlineAll_undeclared]
  | classDef lines parts => rw [undeclared, layout_class, layout_class, outlineAll_undeclared]
  | matching lines subject cases =>
    rw [undeclared, layout_matching, layout_matching, outline_undeclared, outlineCases_undeclared]
  | comprehension sort lines elements generators =>
    rw [undeclared, layout_comprehension, layout_comprehension, outlineAll_undeclared,
      outlineGenerators_undeclared]

theorem outlineAll_undeclared (parts : List Syntax) : outlineAll (undeclaredAll parts) = outlineAll parts := by
  cases parts with
  | nil => rfl
  | cons part rest => rw [undeclaredAll, layout_cons, layout_cons part, outline_undeclared, outlineAll_undeclared]

theorem outlineCases_undeclared (cases : List Case) : outlineCases (undeclaredCases cases) = outlineCases cases := by
  match cases with
  | [] => rfl
  | .mk pattern guard first rest :: others =>
    have body : outlineAll (undeclared first :: undeclaredAll rest) = outlineAll (first :: rest) := by
      rw [layout_cons, layout_cons first, outline_undeclared, outlineAll_undeclared]
    rw [undeclaredCases, layout_case, layout_case, body, undeclared_lines, undeclared_default,
      undeclared_bodyLines, outline_undeclared, outlineGuard_undeclared, outlineCases_undeclared]

theorem outlineGuard_undeclared (guard : Option Syntax) :
    outlineAll (undeclaredGuard guard).toList = outlineAll guard.toList := by
  cases guard with
  | none => rfl
  | some condition => exact outline_undeclared condition

theorem outlineGenerators_undeclared (generators : List Generator) (inside : Inside) :
    outlineGenerators (undeclaredGenerators generators) inside = outlineGenerators generators inside := by
  match generators with
  | [] => rfl
  | .mk target iterable conditions :: rest =>
    rw [undeclaredGenerators, layout_generator, layout_generator, undeclared_lines, outline_undeclared,
      outline_undeclared, outlineConditions_undeclared, outlineGenerators_undeclared]

theorem outlineConditions_undeclared (conditions : List Syntax) (inside : Inside) :
    outlineConditions (undeclaredAll conditions) inside = outlineConditions conditions inside := by
  match conditions with
  | [] => rfl
  | condition :: rest =>
    rw [undeclaredAll, layout_condition, layout_condition, undeclared_lines, outline_undeclared,
      outlineConditions_undeclared]

end

/-- Sources that differ in these declarations only have the same outline. -/
theorem outline_same (same : undeclaredAll m'.body = undeclaredAll m.body) (path : String) (lineCount : Int) :
    m'.outline path lineCount = m.outline path lineCount := by
  rw [Module.outline, Module.outline, ← outlineAll_undeclared, same, outlineAll_undeclared]

/-! ## Declarators of one name -/

/-- A declarator of a name. -/
def declaresName (name : String) (n : Node) : Bool :=
  isDeclarator n && match n.header.variant with
    | .variableDeclarator (.str id) => id = name
    | _ => false

/-- Scopes that bind a name which is none of their parameters. -/
def bindersOf (name : String) (scopes : List Scope) : Nat := scopes.countP fun s => name ∈ s.variables

/-- The variables of some scopes but those of one name, counted in each scope apart. -/
def others (name : String) (scopes : List Scope) : Nat :=
  scopes.foldr (fun s total => (s.variables.erase name).card + total) 0

/-- A scope has one declarator of a name that is among its variables, and none of another. -/
theorem realizes_name (realized : Realizes s n) (name : String) :
    (ownAll n.children).countP (declaresName name) = if name ∈ s.variables then 1 else 0 := by
  obtain ⟨names, distinct, members, declare⟩ := realized.declarators
  have filtered : (ownAll n.children).countP (declaresName name) =
      ((ownAll n.children).filter isDeclarator).countP fun d => match d.header.variant with
        | .variableDeclarator (.str id) => id = name
        | _ => false := by
    rw [List.countP_filter]
    exact List.countP_congr fun d _ => by simp only [declaresName, Bool.and_comm]
  have counted : (((ownAll n.children).filter isDeclarator).countP fun d => match d.header.variant with
      | .variableDeclarator (.str id) => id = name
      | _ => false) = names.count name := by
    clear members distinct filtered
    generalize (ownAll n.children).filter isDeclarator = declarators at declare ⊢
    induction declare with
    | nil => rfl
    | @cons id d _ _ declared _ ih =>
      rw [List.countP_cons, ih, declared, List.count_cons]
      rfl
  have member : name ∈ s.variables ↔ name ∈ names := by rw [← members, List.mem_toFinset]
  rw [filtered, counted, distinct.count]
  simp only [member]

theorem realizes_binders {scopes : List Scope} {nodes : List Node} (realized : List.Forall₂ Realizes scopes nodes)
    (name : String) :
    nodes.foldr (fun d total => (ownAll d.children).countP (declaresName name) + total) 0 = bindersOf name scopes := by
  unfold bindersOf
  induction realized with
  | nil => rfl
  | cons first _ ih =>
    rw [List.foldr_cons, ih, realizes_name first, List.countP_cons]
    simp only [decide_eq_true_eq]
    omega

theorem total_split (name : String) (scopes : List Scope) :
    scopes.foldr (fun s total => s.variables.card + total) 0 = bindersOf name scopes + others name scopes := by
  unfold bindersOf others
  induction scopes with
  | nil => rfl
  | cons s rest ih =>
    rw [List.foldr_cons, ih, List.foldr_cons, List.countP_cons]
    by_cases bound : name ∈ s.variables
    · have card := Finset.card_erase_add_one bound
      simp only [bound, decide_true, if_true]
      omega
    · rw [Finset.erase_eq_of_notMem bound]
      simp only [bound, decide_false, Bool.false_eq_true, if_false]
      omega

/-! ## Functions -/

/-- What the names in a function come to in its declaration. -/
structure CountsNames (f : Function) (n : Node) : Prop where
  /-- In its own scope there is one declarator of every name that is bound there and is no
  parameter. -/
  own : ∀ name, (ownAll n.children).countP (declaresName name) = if name ∈ f.scope.variables then 1 else 0
  /-- So there is one of such a name that is declared to belong elsewhere. -/
  outer : ∀ name ∈ outersAmong f.body, name ∉ f.parameters → name ∈ (bindingsAmong f.body).map Binding.name →
    (ownAll n.children).countP (declaresName name) = 1
  /-- Below the declaration there is one for each scope that binds the name. -/
  below : ∀ name, n.descendants.countP (declaresName name) = bindersOf name (f.scope :: scopesAmong f.body)
  /-- A variable of the function has another one for each scope in it that binds it again,
  though the scope may declare that it belongs elsewhere. -/
  again : ∀ name ∈ f.scope.variables,
    n.descendants.countP (declaresName name) = 1 + bindersOf name (scopesAmong f.body) ∧
      ∀ s ∈ scopesAmong f.body, name ∈ outersAmong s.parts → name ∈ s.variables →
        2 ≤ n.descendants.countP (declaresName name)
  /-- All of them are counted. -/
  counted : ∃ method, Method.ofNode n = .ok method ∧ ∀ name, method.noav =
    bindersOf name (f.scope :: scopesAmong f.body) + others name (f.scope :: scopesAmong f.body)

theorem countsNames (declares : Declares f n) : CountsNames f n := by
  have below (name : String) :
      n.descendants.countP (declaresName name) = bindersOf name (f.scope :: scopesAmong f.body) := by
    have split := counted_by_scope (declaresName name) n.children 0
    rw [realizes_binders declares.inner, realizes_name declares.scope] at split
    rw [descendants_preorder, bindersOf, List.countP_cons]
    simp only [decide_eq_true_eq]
    rw [bindersOf] at split
    omega
  have again (name : String) (owned : name ∈ f.scope.variables) :
      n.descendants.countP (declaresName name) = 1 + bindersOf name (scopesAmong f.body) := by
    rw [below, bindersOf, bindersOf, List.countP_cons, if_pos (by simpa using owned), Nat.add_comm]
  constructor
  · exact realizes_name declares.scope
  · intro name _ proper bound
    rw [realizes_name declares.scope, if_pos]
    simpa [Scope.variables, Function.scope, proper] using bound
  · exact below
  · intro name owned
    refine ⟨again name owned, fun s inside _ rebound => ?_⟩
    have binder : 0 < bindersOf name (scopesAmong f.body) :=
      List.countP_pos_iff.mpr ⟨s, inside, by simpa using rebound⟩
    rw [again name owned]
    omega
  · obtain ⟨method, made, total⟩ := declares.counted
    exact ⟨method, made, fun name => total.trans (total_split name _)⟩

/-- The outline of a source does not depend on which names are declared to belong elsewhere.
Every scope of a function has a declarator for each name that it binds and that is no
parameter, and all of those below a function are among its variables. -/
theorem outer_declarations_ignored (m : Module) (path : String) (lineCount : Int)
    (grammatical : areGrammatical m.body = true) :
    (∀ m' : Module, undeclaredAll m'.body = undeclaredAll m.body →
      m'.outline path lineCount = m.outline path lineCount) ∧
    List.Forall₂ CountsNames (functionsAmong m.body) (methods (m.outline path lineCount)) := by
  refine ⟨fun m' same => outline_same same path lineCount, ?_⟩
  rw [Module.outline, methods_unit _ (show Kind.compilationUnit ≠ Kind.methodDeclaration by decide)]
  exact (outlineAll_functions m.body grammatical _).imp fun _ _ outlined => countsNames (declares_outline outlined)

/-- A function that sets `x`, and one in it that says that its `x` is the same, and sets it. -/
def nonlocalRebound : Module where
  body := [.function (some "f") ⟨some 1, some 5⟩ []
    [.plain .assignment ⟨some 2, some 2⟩ [.name "x" .store ⟨some 2, some 2⟩, .leaf .constant],
    .function (some "g") ⟨some 3, some 5⟩ []
      [.outer .nonlocal ["x"] ⟨some 4, some 4⟩,
      .plain .assignment ⟨some 5, some 5⟩ [.name "x" .store ⟨some 5, some 5⟩, .leaf .constant]] []] []]

/-- The one variable is counted twice for the outer function, and once for the inner one. -/
theorem nonlocal_counted_twice :
    areGrammatical nonlocalRebound.body = true ∧
      List.Forall₂ CountsNames (functionsAmong nonlocalRebound.body) (methods (nonlocalRebound.outline "a.py" 5)) ∧
      (functionsAmong nonlocalRebound.body).map (fun f => (outersAmong f.body,
        bindersOf "x" (f.scope :: scopesAmong f.body), others "x" (f.scope :: scopesAmong f.body))) = [([], 2, 0), (["x"], 1, 0)] := by
  have grammatical : areGrammatical nonlocalRebound.body = true := by decide
  exact ⟨grammatical, (outer_declarations_ignored nonlocalRebound "a.py" 5 grammatical).2, by decide⟩

end MethodLint.OuterNames
