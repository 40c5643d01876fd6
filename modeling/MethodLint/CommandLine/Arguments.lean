import MethodLint.CommandLine.Word
import MethodLint.Decimal.Loose

/-!
What a command asks for. The words are gone through in order. A flag takes its arguments from its own
word or from the ones behind it; the first argument that no flag takes is the path, and all others
are left over, which is an error in the end. Help and version end the reading where they stand. Two
dashes in the word of a flag are no argument but a list of none, which such a flag is then set to.
-/
namespace MethodLint.CommandLine

/-- What a command asks for. -/
structure Arguments where
  path : String := "."
  output : Option String := none
  format : Format := .text
  config : Option String := none
  initConfig : Bool := false
  metrics : Bool := false
  dumpTree : Bool := false
  loc : Option Value := none
  cyclo : Option Value := none
  maxnesting : Option Value := none
  noav : Option Value := none
  exclude : List String := []
  excludeExt : List String := []
  languages : List Value := []
  workers : Value := .int 1
  strict : Bool := false
  verbose : Bool := false

/-- What ends the reading of a command early. -/
inductive Interruption
  | help
  | version
  | error (e : UsageError)
  deriving DecidableEq, Repr

/-! ## Single flags -/

/-- An argument that must be a whole number. -/
def integer (f : Flag) (text : String) : Except Interruption Value :=
  match Decimal.looseInt 10 text.toList with
  | .ok n => .ok (.int n)
  | .error _ => .error (.error (.notAnInteger f text))

/-- An argument that must be one of some choices. -/
def choice {α : Type} (f : Flag) (choices : List (String × α)) (text : String) :
    Except Interruption α :=
  match choices.lookup text with
  | some value => .ok value
  | none => .error (.error (.noSuchChoice f text (choices.map Prod.fst)))

/-- A language that may be asked for. -/
def language (text : String) : Except Interruption Value :=
  choice .lang (languageNames.map fun name => (name, .str name)) text

/-- A flag that takes one argument. -/
def withOne (a : Arguments) (f : Flag) (text : String) : Except Interruption Arguments :=
  match f with
  | .output => .ok { a with output := some text }
  | .format => do return { a with format := ← choice f Format.names text }
  | .config => .ok { a with config := some text }
  | .loc => do return { a with loc := some (← integer f text) }
  | .cyclo => do return { a with cyclo := some (← integer f text) }
  | .maxnesting => do return { a with maxnesting := some (← integer f text) }
  | .noav => do return { a with noav := some (← integer f text) }
  | .lang => do return { a with languages := a.languages ++ [← language text] }
  | .workers => do return { a with workers := ← integer f text }
  | _ => .ok a

/-- A flag that takes one argument and has a list of none. Where that list is not a value of its own it
counts as nothing. -/
def withEmpty (a : Arguments) (f : Flag) : Arguments :=
  match f with
  | .output => { a with output := none }
  | .format => { a with format := .text }
  | .config => { a with config := none }
  | .loc => { a with loc := some (.list []) }
  | .cyclo => { a with cyclo := some (.list []) }
  | .maxnesting => { a with maxnesting := some (.list []) }
  | .noav => { a with noav := some (.list []) }
  | .lang => { a with languages := a.languages ++ [.list []] }
  | .workers => { a with workers := .list [] }
  | _ => a

/-- A flag that takes some arguments. -/
def withSome (a : Arguments) (f : Flag) (texts : List String) : Arguments :=
  match f with
  | .exclude => { a with exclude := texts }
  | .excludeExt => { a with excludeExt := texts }
  | _ => a

/-- A flag that takes no argument. -/
def withNone (a : Arguments) (f : Flag) : Except Interruption Arguments :=
  match f with
  | .help => .error .help
  | .version => .error .version
  | .initConfig => .ok { a with initConfig := true }
  | .metrics => .ok { a with metrics := true }
  | .dumpTree => .ok { a with dumpTree := true }
  | .strict => .ok { a with strict := true }
  | .verbose => .ok { a with verbose := true }
  | _ => .ok a

/-- Arguments with a flag and what it takes. -/
def applied (a : Arguments) (f : Flag) (texts : List String) : Except Interruption Arguments :=
  match f.arity, texts with
  | .one, [text] => withOne a f text
  | .one, _ => .ok (withEmpty a f)
  | .some, texts => .ok (withSome a f texts)
  | .none, _ => withNone a f

/-! ## Words -/

/-- A flag with what it takes. -/
abbrev Taken := Flag × List String

/-- The leading arguments of some words, and the words behind them. -/
def leadingArguments : List Word → List String × List Word
  | .argument text :: rest =>
    let (texts, rest) := leadingArguments rest
    (text :: texts, rest)
  | rest => ([], rest)

/-- What a flag takes from the words behind it. -/
def takeBehind (f : Flag) (words : List Word) : Except UsageError (Taken × List Word) :=
  match f.arity with
  | .none => .ok ((f, []), words)
  | .one =>
    match words with
    | .argument text :: rest => .ok ((f, [text]), rest)
    | _ => .error (.missingArgument f)
  | .some =>
    match leadingArguments words with
    | ([], _) => .error (.missingArguments f)
    | (texts, rest) => .ok ((f, texts), rest)

/-- What a flag takes that has an argument in its own word. A letter that takes none is followed by
further letters. -/
def takeInside (f : Flag) (spelling : String) (words : List Word) :
    List Char → Except UsageError (List Taken × List Word)
  | [] =>
    if f.arity = .none then .error (.unwantedArgument f "") else .ok ([(f, [""])], words)
  | c :: rest =>
    let inside := String.ofList (c :: rest)
    if f.arity ≠ .none then .ok ([(f, [inside].erase Word.dividerText)], words)
    else if spelling.startsWith Word.dividerText then .error (.unwantedArgument f inside)
    else
      let letter := String.ofList ['-', c]
      match Flag.table.lookup letter with
      | none => .error (.unwantedArgument f inside)
      | some next =>
        match rest with
        | [] => do
          let (taken, words) ← takeBehind next words
          return ([(f, []), taken], words)
        | rest => do
          let (taken, words) ← takeInside next letter words rest
          return ((f, []) :: taken, words)

/-- What a flag takes, and the flags that follow it in its word. -/
def take (f : Flag) (spelling : String) (inside : Option String) (words : List Word) :
    Except UsageError (List Taken × List Word) :=
  match inside with
  | some text => takeInside f spelling words text.toList
  | none => do
    let (taken, words) ← takeBehind f words
    return ([taken], words)

/-- The path at the front of some words, if there is one, and the words behind it. A divider beside
it is dropped. -/
def takePath : List Word → Option String × List Word
  | .argument text :: .divider :: rest => (some text, rest)
  | .argument text :: rest => (some text, rest)
  | .divider :: .argument text :: rest => (some text, rest)
  | .divider :: rest => (none, rest)
  | rest => (none, rest)

/-- The text of a word that is left over. -/
def leftText : Word → String
  | .argument text | .unknown text => text
  | .divider => Word.dividerText
  | .flag _ spelling _ => spelling

/-- Where the reading of a command is. -/
structure Progress where
  arguments : Arguments
  hasPath : Bool
  left : List String

/-- Reads words; each step takes at least one. -/
def readWords : (steps : Nat) → Progress → List Word → Except Interruption Progress
  | 0, p, _ => .ok p
  | _, p, [] => .ok p
  | steps + 1, p, .unknown text :: rest => readWords steps { p with left := p.left ++ [text] } rest
  | steps + 1, p, .flag f spelling inside :: rest =>
    match take f spelling inside rest with
    | .error e => .error (.error e)
    | .ok (taken, rest) => do
      let arguments ← taken.foldlM (fun a one => applied a one.1 one.2) p.arguments
      readWords steps { p with arguments } rest
  | steps + 1, p, word :: rest =>
    if p.hasPath then readWords steps { p with left := p.left ++ [leftText word] } rest
    else
      let (path, rest) := takePath (word :: rest)
      let arguments := { p.arguments with path := path.getD p.arguments.path }
      readWords steps { p with arguments, hasPath := true } rest

/-- What a command of some words asks for. -/
def Arguments.ofTexts (texts : List String) : Except Interruption Arguments := do
  let words ← (Word.ofTexts texts).mapError .error
  let p ← readWords (words.length + 1) ⟨{}, false, []⟩ words
  if p.left.isEmpty then return p.arguments else throw (.error (.unrecognized p.left))

end MethodLint.CommandLine
