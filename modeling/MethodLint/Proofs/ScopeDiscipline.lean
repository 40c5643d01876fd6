import MethodLint.Proofs.OutlineVariables

/-! The stack of scopes while an outline is made. Whatever is converted leaves the stack as high
as it was: the scopes below the innermost one are not touched, and the innermost one has gained
the names that are stored to in the part, no others and each of them once. A function or a class
is closed with the scopes that it was opened on, so what is stored to inside it is not seen
outside, and a source whose scope is opened on an empty stack leaves an empty stack. -/
namespace MethodLint.ScopeDiscipline
open Source SourceParts OutlineVariables

/-! ## Stored names -/

/-- The parts of a case. -/
def partsOfCase : Case → List Syntax
  | .mk pattern guard first rest => pattern :: (guard.toList ++ first :: rest)

/-- The parts of a generator. -/
def partsOfGenerator : Generator → List Syntax
  | .mk target iterable conditions => target :: iterable :: conditions

/-- The parts next below a part that stand in the same scope: functions and classes have none. -/
def ownParts : Syntax → List Syntax
  | .plain _ _ parts => parts
  | .name _ _ _ | .outer _ _ _ | .function _ _ _ _ _ | .classDef _ _ => []
  | .matching _ subject cases => subject :: cases.flatMap partsOfCase
  | .comprehension _ _ elements generators => generators.flatMap partsOfGenerator ++ elements

/-- A name is stored to somewhere in a part, outside the functions and the classes in it. -/
inductive Stores (name : String) : Syntax → Prop where
  | here (lines : Lines) : Stores name (.name name .store lines)
  | inside {part s : Syntax} (own : part ∈ ownParts s) (below : Stores name part) : Stores name s

/-- A name is stored to somewhere in one of some parts. -/
def StoresAmong (name : String) (parts : List Syntax) : Prop := ∃ part ∈ parts, Stores name part

variable {name : String} {s part : Syntax}

theorem ownParts_smaller (own : part ∈ ownParts s) : sizeOf part < sizeOf s := by
  cases s with
  | plain form lines parts =>
    have smaller : sizeOf part < sizeOf parts := List.sizeOf_lt_of_mem own
    simp only [Syntax.plain.sizeOf_spec]
    omega
  | name | outer | function | classDef => cases own
  | matching lines subject cases =>
    simp only [Syntax.matching.sizeOf_spec]
    rcases List.mem_cons.mp own with rfl | own
    · omega
    · obtain ⟨⟨pattern, guard, first, rest⟩, listed, own⟩ := List.mem_flatMap.mp own
      have smaller := List.sizeOf_lt_of_mem listed
      simp only [Case.mk.sizeOf_spec] at smaller
      rcases List.mem_cons.mp own with rfl | own
      · omega
      rcases List.mem_append.mp own with own | own
      · obtain rfl := Option.mem_toList.mp own
        simp only [Option.some.sizeOf_spec] at smaller
        omega
      rcases List.mem_cons.mp own with rfl | own
      · omega
      · have inner := List.sizeOf_lt_of_mem own
        omega
  | comprehension sort lines elements generators =>
    simp only [Syntax.comprehension.sizeOf_spec]
    rcases List.mem_append.mp own with own | own
    · obtain ⟨⟨target, iterable, conditions⟩, listed, own⟩ := List.mem_flatMap.mp own
      have smaller := List.sizeOf_lt_of_mem listed
      simp only [Generator.mk.sizeOf_spec] at smaller
      rcases List.mem_cons.mp own with rfl | own
      · omega
      rcases List.mem_cons.mp own with rfl | own
      · omega
      · have inner := List.sizeOf_lt_of_mem own
        omega
    · have smaller := List.sizeOf_lt_of_mem own
      omega

/-! ## Stored names are bindings -/

theorem bindingsAmong_eq (parts : List Syntax) : bindingsAmong parts = parts.flatMap bindingsIn := by
  induction parts with
  | nil => rfl
  | cons part rest ih => rw [bindingsAmong, ih, List.flatMap_cons]

theorem bindingsAmongCases_eq (cases : List Case) :
    bindingsAmongCases cases = (cases.flatMap partsOfCase).flatMap bindingsIn := by
  induction cases with
  | nil => rfl
  | cons c others ih =>
    obtain ⟨pattern, guard, first, rest⟩ := c
    have guarded : bindingsOfGuard guard = guard.toList.flatMap bindingsIn := by
      cases guard with
      | none => rfl
      | some condition => simp [bindingsOfGuard]
    simp [bindingsAmongCases, partsOfCase, bindingsAmong_eq, guarded, ih]

theorem bindingsAmongGenerators_eq (generators : List Generator) :
    bindingsAmongGenerators generators = (generators.flatMap partsOfGenerator).flatMap bindingsIn := by
  induction generators with
  | nil => rfl
  | cons g others ih =>
    obtain ⟨target, iterable, conditions⟩ := g
    simp [bindingsAmongGenerators, partsOfGenerator, bindingsAmong_eq, ih]

/-- A part binds what its own parts bind, unless it is a name that is stored to. -/
theorem bindingsIn_eq (s : Syntax) :
    (∃ id lines, s = .name id .store lines) ∨ bindingsIn s = (ownParts s).flatMap bindingsIn := by
  cases s with
  | plain form lines parts => exact .inr (bindingsAmong_eq parts)
  | name id context lines =>
    cases context with
    | store => exact .inl ⟨id, lines, rfl⟩
    | load | del => exact .inr rfl
  | outer | function | classDef => exact .inr rfl
  | matching lines subject cases =>
    rw [bindingsIn, bindingsAmongCases_eq]
    exact .inr rfl
  | comprehension sort lines elements generators =>
    rw [bindingsIn, bindingsAmongGenerators_eq, bindingsAmong_eq, ← List.flatMap_append]
    exact .inr rfl

theorem stores_binding (stores : Stores name s) : ∃ b ∈ bindingsIn s, b.name = name := by
  induction stores with
  | here lines => exact ⟨⟨name, lines⟩, List.mem_singleton_self _, rfl⟩
  | @inside part s own _ ih =>
    obtain ⟨b, bound, named⟩ := ih
    rcases bindingsIn_eq s with ⟨_, _, rfl⟩ | parts
    · cases own
    · exact ⟨b, parts ▸ List.mem_flatMap.mpr ⟨part, own, bound⟩, named⟩

theorem binding_stores {s : Syntax} {b : Binding} (bound : b ∈ bindingsIn s) : Stores b.name s := by
  rcases bindingsIn_eq s with ⟨id, lines, rfl⟩ | parts
  · obtain rfl := List.mem_singleton.mp bound
    exact .here lines
  · rw [parts] at bound
    obtain ⟨part, own, inner⟩ := List.mem_flatMap.mp bound
    have smaller := ownParts_smaller own
    exact .inside own (binding_stores inner)
termination_by sizeOf s

theorem stores_iff : Stores name s ↔ ∃ b ∈ bindingsIn s, b.name = name :=
  ⟨stores_binding, fun ⟨_, bound, named⟩ => named ▸ binding_stores bound⟩

theorem storesAmong_iff {parts : List Syntax} :
    StoresAmong name parts ↔ ∃ b ∈ bindingsAmong parts, b.name = name := by
  rw [bindingsAmong_eq]
  constructor
  · rintro ⟨part, listed, stores⟩
    obtain ⟨b, bound, named⟩ := stores_iff.mp stores
    exact ⟨b, List.mem_flatMap.mpr ⟨part, listed, bound⟩, named⟩
  · rintro ⟨b, bound, named⟩
    obtain ⟨part, listed, inner⟩ := List.mem_flatMap.mp bound
    exact ⟨part, listed, stores_iff.mpr ⟨b, inner, named⟩⟩

/-! ## What a part leaves of the stack -/

/-- A stack of scopes, the innermost one first. -/
def stack (scopes : Scopes) : List (List String) := scopes.top :: scopes.below

/-- Scopes that differ from the ones before by the names that are stored to: these are added to
the innermost scope, each once if it was not there, and nothing else changes. -/
structure Keeps (stored : String → Prop) (before after : Scopes) : Prop where
  height : (stack after).length = (stack before).length
  below : after.below = before.below
  top : ∀ name, name ∈ after.top ↔ name ∈ before.top ∨ stored name
  added : ∃ names : List String, names.Nodup ∧ after.top = names ++ before.top ∧
    ∀ name ∈ names, stored name ∧ name ∉ before.top

theorem knownAfter_added (known : List String) (bs : List Binding) :
    ∃ names : List String, names.Nodup ∧ knownAfter known bs = names ++ known ∧
      ∀ name, name ∈ names ↔ (∃ b ∈ bs, b.name = name) ∧ name ∉ known := by
  -- The first binding counts as known from then on, so its name goes behind those added later.
  induction bs generalizing known with
  | nil => exact ⟨[], .nil, rfl, by simp⟩
  | cons b rest ih =>
    by_cases old : b.name ∈ known
    · have same : knownAfter known (b :: rest) = knownAfter known rest := by simp [knownAfter, old]
      obtain ⟨names, once, after, members⟩ := ih known
      refine ⟨names, once, same.trans after, fun name => ?_⟩
      rw [members, List.exists_mem_cons_iff]
      refine and_congr_left fun unknown => (or_iff_right ?_).symm
      exact fun here => unknown (here ▸ old)
    · have grown : knownAfter known (b :: rest) = knownAfter (b.name :: known) rest := by simp [knownAfter, old]
      obtain ⟨names, once, after, members⟩ := ih (b.name :: known)
      have fresh : b.name ∉ names := fun listed => ((members _).mp listed).2 List.mem_cons_self
      refine ⟨names ++ [b.name], ?_, ?_, fun name => ?_⟩
      · rw [List.nodup_append_comm]
        exact List.nodup_cons.mpr ⟨fresh, once⟩
      · rw [grown, after, List.append_assoc, List.singleton_append]
      · rw [List.mem_append, List.mem_singleton, members, List.exists_mem_cons_iff, List.mem_cons]
        by_cases here : name = b.name
        · simp [here, old]
        · simp [here, Ne.symm here]

/-- What is bound to the innermost scope keeps the discipline. -/
theorem keeps_bound {scopes after : Scopes} {bs : List Binding} {stored : String → Prop}
    (same : ∀ name, stored name ↔ ∃ b ∈ bs, b.name = name)
    (bound : after = ⟨knownAfter scopes.top bs, scopes.below⟩) : Keeps stored scopes after := by
  subst bound
  obtain ⟨names, once, grown, members⟩ := knownAfter_added scopes.top bs
  refine ⟨rfl, rfl, fun name => ?_, names, once, grown, fun name listed => ?_⟩
  · rw [grown, List.mem_append, members, same]
    by_cases old : name ∈ scopes.top <;> simp [old]
  · obtain ⟨bound, unknown⟩ := (members name).mp listed
    exact ⟨(same name).mpr bound, unknown⟩

theorem outline_keeps (s : Syntax) (scopes : Scopes) : Keeps (Stores · s) scopes (s.outline scopes).2 :=
  keeps_bound (fun _ => stores_iff) (outline_binds s scopes).after

theorem outlineAll_keeps (parts : List Syntax) (scopes : Scopes) :
    Keeps (StoresAmong · parts) scopes (outlineAll parts scopes).2 :=
  keeps_bound (fun _ => storesAmong_iff) (outlineAll_binds parts scopes).after

/-- A scope is closed where it was opened, whatever was converted in it. -/
theorem outlineAll_closed (bound : List String) (parts : List Syntax) (scopes : Scopes) :
    (outlineAll parts (scopes.push bound)).2.pop = scopes := by
  have below := (outlineAll_keeps parts (scopes.push bound)).below
  unfold Scopes.pop
  rw [below]
  rfl

/-! ## Sources -/

/-- The outline of a source that is made on a stack of scopes, and the stack afterwards: the scope
of the source is opened on top of the stack and closed again. -/
def outlineOn (m : Module) (path : String) (lineCount : Int) (around : List (List String)) :
    Node × List (List String) :=
  let inner := outlineAll m.body ⟨[], around⟩
  (.mk ⟨Kind.compilationUnit, .int 1, .int lineCount, .compilationUnit (.str path)⟩ inner.1, (stack inner.2).tail)

/-- Every part of a source, and any parts one after the other, leave the stack of scopes as high as
it was, its scopes below the innermost one untouched, and the innermost one with the names added
that are stored to there outside functions and classes. A function or a class that is opened comes
back to the scopes that it was opened on. A source leaves the stack it was begun on, so its outline
starts and ends with an empty one. -/
theorem scopes_keep_discipline :
    (∀ (s : Syntax) (scopes : Scopes), Keeps (Stores · s) scopes (s.outline scopes).2) ∧
    (∀ (parts : List Syntax) (scopes : Scopes),
      Keeps (StoresAmong · parts) scopes (outlineAll parts scopes).2) ∧
    (∀ (bound : List String) (parts : List Syntax) (scopes : Scopes),
      stack (scopes.push bound) = bound :: stack scopes ∧
      (outlineAll parts (scopes.push bound)).2.below = stack scopes ∧
      (outlineAll parts (scopes.push bound)).2.pop = scopes) ∧
    ∀ (m : Module) (path : String) (lineCount : Int),
      outlineOn m path lineCount [] = (m.outline path lineCount, []) ∧
      ∀ around, (outlineOn m path lineCount around).2 = around := by
  refine ⟨outline_keeps, outlineAll_keeps, ?_, ?_⟩
  · intro bound parts scopes
    exact ⟨rfl, (outlineAll_keeps parts (scopes.push bound)).below, outlineAll_closed bound parts scopes⟩
  · intro m path lineCount
    have closed (around : List (List String)) : (outlineOn m path lineCount around).2 = around :=
      (outlineAll_keeps m.body ⟨[], around⟩).below
    exact ⟨Prod.ext rfl (closed []), closed⟩

end MethodLint.ScopeDiscipline
