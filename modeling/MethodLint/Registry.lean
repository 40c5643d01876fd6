import MethodLint.FrontEnd
import MethodLint.Traced
import MethodLint.Value.Parts

/-!
A registry of front ends that can be extended while the program runs. It knows for each language how
its front end is made, and for each extension the language of its files; of two registrations the
later one counts. A front end is made when it is first asked for and kept until its language is
registered anew. What a registration has changed stays changed when a later part of it fails.
-/
namespace MethodLint

/-- How the front ends of a registration are made. Every registration has a number of its own. -/
structure Maker where
  number : Nat
  label : String
  isComplete : Bool
  deriving DecidableEq, Repr

/-- A front end that was made, with a number of its own. -/
structure Product where
  number : Nat
  maker : Maker
  deriving DecidableEq, Repr

/-- The makers of languages in the order in which the languages came, the languages of extensions,
and the front ends that are kept for languages. -/
structure Registry where
  makers : List (String × Maker)
  languages : List (String × String)
  kept : List (String × Product)
  registrations : Nat
  products : Nat

namespace Registry

/-- A table with a value for a key; a key that is there keeps its place. -/
def put {α : Type} (key : String) (value : α) : List (String × α) → List (String × α)
  | [] => [(key, value)]
  | (k, v) :: rest => if k = key then (k, value) :: rest else (k, v) :: put key value rest

/-- A table without a key. -/
def drop {α : Type} (key : String) (table : List (String × α)) : List (String × α) :=
  table.filter fun entry => entry.1 ≠ key

/-- An extension as it is registered: in lower case, with a dot in front. -/
def registeredExtension (extension : String) : String :=
  let lowered := Text.lower extension
  if lowered.startsWith "." then lowered else "." ++ lowered

/-- Gives extensions to a language, as far as they are texts. -/
def claim (r : Registry) (language : String) : List Value → Registry × Except Fault Unit
  | [] => (r, .ok ())
  | .str extension :: rest =>
    claim { r with languages := put (registeredExtension extension) language r.languages }
      language rest
  | v :: _ => (r, .error (.noOperation v.typeName "lower"))

/-- A registry with the maker of a language set, and nothing kept for the language. -/
def withMaker (r : Registry) (language label : String) (isComplete : Bool) : Registry :=
  { r with
    makers := put language ⟨r.registrations, label, isComplete⟩ r.makers
    kept := drop language r.kept
    registrations := r.registrations + 1 }

/-- Registers a front end for a language and for extensions. -/
def register (r : Registry) (language label : String) (isComplete : Bool) (extensions : Value) :
    Registry × Traced Unit :=
  let r := r.withMaker language label isComplete
  match extensions.parts with
  | .error e => (r, throw e)
  | .ok parts =>
    match r.claim language parts with
    | (r, .error e) => (r, throw e)
    | (r, .ok ()) =>
      (r, Traced.debug s!"Registered parser for {language}: {extensions.text}")

/-- The front end for a language, if the language is registered. -/
def ofLanguage (r : Registry) (language : String) : Registry × Except Fault (Option Product) :=
  match r.makers.lookup language with
  | none => (r, .ok none)
  | some maker =>
    match r.kept.lookup language with
    | some product => (r, .ok (some product))
    | none =>
      if maker.isComplete then
        let product := Product.mk r.products maker
        ({ r with kept := put language product r.kept, products := r.products + 1 },
          .ok (some product))
      else (r, .error (.type (.incompleteFrontEnd maker.label)))

/-- The language for a file, if its extension is registered. A language without a name is none. -/
def languageOf? (r : Registry) (path : FilePath) : Option String :=
  (r.languages.lookup path.comparedExtension).filter fun language => !language.isEmpty

/-- The front end and the language for a file. -/
def ofPath (r : Registry) (path : FilePath) :
    Registry × Except Fault (Option Product × Option String) :=
  match r.languageOf? path with
  | none => (r, .ok (none, none))
  | some language =>
    match r.ofLanguage language with
    | (r, .ok product) => (r, .ok (product, some language))
    | (r, .error e) => (r, .error e)

/-- A registry without any front end. -/
def empty : Registry := ⟨[], [], [], 0, 0⟩

/-- The registry with which the program starts. -/
def standard : Registry :=
  FrontEnd.all.foldl (fun r frontEnd =>
    (r.register frontEnd.language frontEnd.label true (.list (frontEnd.extensions.map .str))).1) empty

end Registry

end MethodLint
