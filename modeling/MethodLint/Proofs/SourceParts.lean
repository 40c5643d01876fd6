import Mathlib.Data.Finset.Card
import Mathlib.Data.Finset.SDiff
import MethodLint.Source.Outline

/-! What a source says by itself, before anything is laid out: which functions it
has and in which order, which constructs decide or nest and how many others
enclose each of them, and which names are bound in which scope. All of it is read
off the syntax tree; no node of an outline is mentioned here. -/
namespace MethodLint.SourceParts
open Source

/-! ## What the grammar promises -/

/-- The forms that hold statements. -/
def holdsStatements : Form → Bool
  | .forLoop | .asyncForLoop | .whileLoop | .conditional | .resourceBlock | .asyncResourceBlock
  | .tryBlock | .tryGroupBlock | .handler => true
  | _ => false

/-- The statements, and the handlers of a try statement with them. -/
def isStatementForm : Form → Bool
  | .returning | .deletion | .assignment | .augmentedAssignment | .annotatedAssignment | .raising
  | .assertion | .importing | .importingFrom | .expressionStatement | .pass | .breaking
  | .continuing => true
  | form => holdsStatements form

/-- A statement or a handler, not an expression or a pattern. -/
def isStatement : Syntax → Bool
  | .plain form _ _ => isStatementForm form
  | .outer _ _ _ | .function _ _ _ _ _ | .classDef _ _ | .matching _ _ _ => true
  | .name _ _ _ | .comprehension _ _ _ _ => false

mutual

/-- The grammar of sources as far as it matters here: only statements hold
statements, and a function has a name and a body. -/
def isGrammatical : Syntax → Bool
  | .plain form _ parts =>
    (holdsStatements form || parts.all fun part => !isStatement part) && areGrammatical parts
  | .name _ _ _ | .outer _ _ _ => true
  | .function name _ _ body around =>
    name.isSome && !body.isEmpty && areGrammatical body
      && (around.all fun part => !isStatement part) && areGrammatical around
  | .classDef _ parts => areGrammatical parts
  | .matching _ subject cases => !isStatement subject && isGrammatical subject && areGrammaticalCases cases
  | .comprehension _ _ elements generators =>
    (elements.all fun part => !isStatement part) && areGrammatical elements
      && areGrammaticalGenerators generators

/-- Some parts that keep to the grammar. -/
def areGrammatical : List Syntax → Bool
  | [] => true
  | part :: rest => isGrammatical part && areGrammatical rest

/-- Cases that keep to the grammar: no pattern or guard is a statement. -/
def areGrammaticalCases : List Case → Bool
  | [] => true
  | .mk pattern guard first rest :: others =>
    !isStatement pattern && isGrammatical pattern && isGrammaticalGuard guard
      && isGrammatical first && areGrammatical rest && areGrammaticalCases others

/-- A guard that keeps to the grammar, if there is one. -/
def isGrammaticalGuard : Option Syntax → Bool
  | none => true
  | some condition => !isStatement condition && isGrammatical condition

/-- Generators that keep to the grammar: they consist of expressions. -/
def areGrammaticalGenerators : List Generator → Bool
  | [] => true
  | .mk target iterable conditions :: rest =>
    !isStatement target && isGrammatical target && !isStatement iterable && isGrammatical iterable
      && (conditions.all fun part => !isStatement part) && areGrammatical conditions
      && areGrammaticalGenerators rest

end

/-! ## Functions -/

/-- A function of a source. -/
structure Function where
  name : Option String
  lines : Lines
  parameters : List String
  body : List Syntax

mutual

/-- The functions of a part in the order of the syntax tree, each before those
inside it. -/
def functionsIn : Syntax → List Function
  | .plain _ _ parts => functionsAmong parts
  | .name _ _ _ | .outer _ _ _ => []
  | .function name lines parameters body around =>
    ⟨name, lines, parameters, body⟩ :: (functionsAmong body ++ functionsAmong around)
  | .classDef _ parts => functionsAmong parts
  | .matching _ subject cases => functionsIn subject ++ functionsAmongCases cases
  | .comprehension _ _ elements generators =>
    functionsAmong elements ++ functionsAmongGenerators generators

/-- The functions of some parts. -/
def functionsAmong : List Syntax → List Function
  | [] => []
  | part :: rest => functionsIn part ++ functionsAmong rest

/-- The functions of some cases. -/
def functionsAmongCases : List Case → List Function
  | [] => []
  | .mk pattern guard first rest :: others =>
    functionsIn pattern ++ functionsOfGuard guard ++ (functionsIn first ++ functionsAmong rest)
      ++ functionsAmongCases others

/-- The functions of a guard, if there is one. -/
def functionsOfGuard : Option Syntax → List Function
  | none => []
  | some condition => functionsIn condition

/-- The functions of some generators. -/
def functionsAmongGenerators : List Generator → List Function
  | [] => []
  | .mk target iterable conditions :: rest =>
    functionsIn target ++ functionsIn iterable ++ functionsAmong conditions
      ++ functionsAmongGenerators rest

end

/-! ## Constructs, and how many enclose each of them -/

/-- What a source consists of: parts of the syntax tree, the cases of its match
statements, and the generators of its comprehensions with their conditions. -/
inductive Part
  | node (part : Syntax)
  | case (c : Case)
  | generator (g : Generator)
  | filter (condition : Syntax)

namespace Part

/-- What adds a decision point: loops, conditionals, handlers, choices between
two values, generators and their conditions, match statements, and every case
but an unguarded bare capture. -/
def decides : Part → Bool
  | .node (.plain form _ _) =>
    match form with
    | .conditional | .forLoop | .asyncForLoop | .whileLoop | .handler | .choice => true
    | _ => false
  | .node (.matching _ _ _) => true
  | .node _ => false
  | .case (.mk (.plain .capturePattern _ []) none _ _) => false
  | .case _ => true
  | .generator _ | .filter _ => true

/-- What counts as a level of nesting: loops, conditionals, try and match
statements, generators and their conditions. -/
def nests : Part → Bool
  | .node (.plain form _ _) =>
    match form with
    | .conditional | .forLoop | .asyncForLoop | .whileLoop | .tryBlock | .tryGroupBlock => true
    | _ => false
  | .node (.matching _ _ _) => true
  | .node _ => false
  | .case _ => false
  | .generator _ | .filter _ => true

end Part

/-- The level inside a part that is itself at the level `outer`. -/
def within (part : Part) (outer : Nat) : Nat := if part.nests then outer + 1 else outer

/-- How many loops and branches some generators stand for. -/
def opened : List Generator → Nat
  | [] => 0
  | .mk _ _ conditions :: rest => 1 + conditions.length + opened rest

mutual

/-- A part with everything nested in it, functions and classes included, each with
the number of constructs that enclose it. What belongs to a nested function but
is evaluated around it is left out. A generator encloses its own target and
iterable and whatever of its comprehension comes to be evaluated in its loop: the
conditions, each of which encloses the next, the generators after it and the
produced elements. -/
def partsIn : Syntax → (outer : Nat) → List (Part × Nat)
  | .plain form lines parts, outer =>
    (.node (.plain form lines parts), outer) ::
      partsAmong parts (within (.node (.plain form lines parts)) outer)
  | .name id context lines, outer => [(.node (.name id context lines), outer)]
  | .outer scope names lines, outer => [(.node (.outer scope names lines), outer)]
  | .function name lines parameters body around, outer =>
    (.node (.function name lines parameters body around), outer) :: partsAmong body outer
  | .classDef lines parts, outer => (.node (.classDef lines parts), outer) :: partsAmong parts outer
  | .matching lines subject cases, outer =>
    (.node (.matching lines subject cases), outer) ::
      (partsIn subject (outer + 1) ++ partsAmongCases cases (outer + 1))
  | .comprehension sort lines elements generators, outer =>
    (.node (.comprehension sort lines elements generators), outer) ::
      (partsAmong elements (outer + opened generators) ++ partsAmongGenerators generators outer)

/-- Some parts with everything nested in them. -/
def partsAmong : List Syntax → (outer : Nat) → List (Part × Nat)
  | [], _ => []
  | part :: rest, outer => partsIn part outer ++ partsAmong rest outer

/-- Some cases with everything nested in them. -/
def partsAmongCases : List Case → (outer : Nat) → List (Part × Nat)
  | [], _ => []
  | .mk pattern guard first rest :: others, outer =>
    (.case (.mk pattern guard first rest), outer) ::
      (partsIn pattern outer ++ partsOfGuard guard outer
        ++ (partsIn first outer ++ partsAmong rest outer) ++ partsAmongCases others outer)

/-- A guard with everything nested in it, if there is one. -/
def partsOfGuard : Option Syntax → (outer : Nat) → List (Part × Nat)
  | none, _ => []
  | some condition, outer => partsIn condition outer

/-- Some generators with everything nested in them. -/
def partsAmongGenerators : List Generator → (outer : Nat) → List (Part × Nat)
  | [], _ => []
  | .mk target iterable conditions :: rest, outer =>
    (.generator (.mk target iterable conditions), outer) ::
      (partsIn target (outer + 1) ++ partsIn iterable (outer + 1)
        ++ partsAmongFilters conditions (outer + 1)
        ++ partsAmongGenerators rest (outer + 1 + conditions.length))

/-- Some conditions of a generator with everything nested in them. -/
def partsAmongFilters : List Syntax → (outer : Nat) → List (Part × Nat)
  | [], _ => []
  | condition :: rest, outer =>
    (.filter condition, outer) ::
      (partsIn condition (outer + 1) ++ partsAmongFilters rest (outer + 1))

end

/-- The number of decision points of a body. -/
def decisionPoints (body : List Syntax) : Nat := (partsAmong body 0).countP fun entry => entry.1.decides

/-- The greatest number of constructs that enclose a construct of a body, 0 if it
has none. -/
def nestingDepth (body : List Syntax) : Nat :=
  (((partsAmong body 0).filter fun entry => entry.1.nests).map Prod.snd).foldr max 0

/-! ## Scopes, and what is bound in them -/

/-- A scope: the parameters it starts with, and what is evaluated in it. -/
structure Scope where
  parameters : List String
  parts : List Syntax

/-- The scope of a function. -/
def Function.scope (f : Function) : Scope := ⟨f.parameters, f.body⟩

/-- A place where a name is bound. -/
structure Binding where
  name : String
  lines : Lines

mutual

/-- Where a part binds names in the scope that it stands in, in the order of
evaluation: a comprehension binds in its generators before it produces anything.
What a function or a class binds stays inside it, and what is evaluated around a
function belongs to no scope. -/
def bindingsIn : Syntax → List Binding
  | .plain _ _ parts => bindingsAmong parts
  | .name id .store lines => [⟨id, lines⟩]
  | .name _ _ _ | .outer _ _ _ | .function _ _ _ _ _ | .classDef _ _ => []
  | .matching _ subject cases => bindingsIn subject ++ bindingsAmongCases cases
  | .comprehension _ _ elements generators =>
    bindingsAmongGenerators generators ++ bindingsAmong elements

/-- Where some parts bind names. -/
def bindingsAmong : List Syntax → List Binding
  | [] => []
  | part :: rest => bindingsIn part ++ bindingsAmong rest

/-- Where some cases bind names. -/
def bindingsAmongCases : List Case → List Binding
  | [] => []
  | .mk pattern guard first rest :: others =>
    bindingsIn pattern ++ bindingsOfGuard guard ++ (bindingsIn first ++ bindingsAmong rest)
      ++ bindingsAmongCases others

/-- Where a guard binds names, if there is one. -/
def bindingsOfGuard : Option Syntax → List Binding
  | none => []
  | some condition => bindingsIn condition

/-- Where some generators bind names. -/
def bindingsAmongGenerators : List Generator → List Binding
  | [] => []
  | .mk target iterable conditions :: rest =>
    bindingsIn target ++ bindingsIn iterable ++ bindingsAmong conditions
      ++ bindingsAmongGenerators rest

end

mutual

/-- The scopes that are opened in a part at any depth, in the order of evaluation,
each before those inside it. Functions and classes open scopes; a class has its
bases, keywords and decorators in its scope. -/
def scopesIn : Syntax → List Scope
  | .plain _ _ parts => scopesAmong parts
  | .name _ _ _ | .outer _ _ _ => []
  | .function _ _ parameters body _ => ⟨parameters, body⟩ :: scopesAmong body
  | .classDef _ parts => ⟨[], parts⟩ :: scopesAmong parts
  | .matching _ subject cases => scopesIn subject ++ scopesAmongCases cases
  | .comprehension _ _ elements generators =>
    scopesAmongGenerators generators ++ scopesAmong elements

/-- The scopes that are opened in some parts. -/
def scopesAmong : List Syntax → List Scope
  | [] => []
  | part :: rest => scopesIn part ++ scopesAmong rest

/-- The scopes that are opened in some cases. -/
def scopesAmongCases : List Case → List Scope
  | [] => []
  | .mk pattern guard first rest :: others =>
    scopesIn pattern ++ scopesOfGuard guard ++ (scopesIn first ++ scopesAmong rest)
      ++ scopesAmongCases others

/-- The scopes that are opened in a guard, if there is one. -/
def scopesOfGuard : Option Syntax → List Scope
  | none => []
  | some condition => scopesIn condition

/-- The scopes that are opened in some generators. -/
def scopesAmongGenerators : List Generator → List Scope
  | [] => []
  | .mk target iterable conditions :: rest =>
    scopesIn target ++ scopesIn iterable ++ scopesAmong conditions ++ scopesAmongGenerators rest

end

/-- The names that are bound in a scope, its parameters left out. -/
def Scope.variables (s : Scope) : Finset String :=
  ((bindingsAmong s.parts).map Binding.name).toFinset \ s.parameters.toFinset

/-- The number of names that are bound in the scope of a function and in the scopes
inside it, counted in each scope apart. -/
def variableCount (f : Function) : Nat :=
  (f.scope :: scopesAmong f.body).foldr (fun s total => s.variables.card + total) 0

end MethodLint.SourceParts
