import MethodLint.CommandLine.Flag
import MethodLint.Text.DecimalDigit

/-!
The words of a command. A word that starts with a dash is a flag, by its spelling or by the start of
a single one; an argument may stand in the same word. Numbers with a minus sign, and words with
blanks, are arguments all the same. Behind a word of two dashes every word is one.
-/
namespace MethodLint.CommandLine

/-- A word of a command. -/
inductive Word
  | argument (text : String)
  /-- The first word of two dashes. -/
  | divider
  /-- A flag as it is spelled, with the argument in the same word. -/
  | flag (flag : Flag) (spelling : String) (inside : Option String)
  /-- A word that should be a flag but is none. -/
  | unknown (text : String)
  deriving Repr

namespace Word

/-- The word of two dashes. -/
def dividerText : String := "--"

/-- A digit of any script. -/
def isDigit (c : Char) : Bool := (Text.digitValue? c).isSome

/-- A number with a minus sign: digits, or a point with digits behind it. -/
def isNegativeNumber (word : List Char) : Bool :=
  match word with
  | '-' :: rest =>
    let rest := if rest.getLast? = some '\n' then rest.dropLast else rest
    let (whole, tail) := rest.span isDigit
    match tail with
    | [] => !whole.isEmpty
    | '.' :: fraction => !fraction.isEmpty && fraction.all isDigit
    | _ => false
  | _ => false

/-- A word at its first equals sign. -/
def splitAtEquals (word : String) : String × Option String :=
  match word.toList.span (· ≠ '=') with
  | (_, []) => (word, none)
  | (before, _ :: behind) => (String.ofList before, some (String.ofList behind))

/-- The flags that a word with one dash may stand for: the one of its first letter, with the rest of
the word as an argument. -/
def byLetter (word : String) : List Word :=
  let letter := String.ofList (word.toList.take 2)
  let rest := String.ofList (word.toList.drop 2)
  Flag.table.filterMap fun entry =>
    if entry.1 = letter then some (.flag entry.2 entry.1 (some rest))
    else if entry.1.startsWith word then some (.flag entry.2 entry.1 none)
    else none

/-- The flags that a word with two dashes may stand for: those whose spelling it starts. -/
def byStart (word : String) : List Word :=
  let (start, inside) := splitAtEquals word
  Flag.table.filterMap fun entry =>
    if entry.1.startsWith start then some (.flag entry.2 entry.1 inside) else none

/-- The spelling of a flag that was found. -/
def spelling : Word → String
  | flag _ spelling _ => spelling
  | _ => ""

/-- The flag that a word stands for by its start, if it does for one only. -/
def abbreviated (word : String) : Except UsageError (Option Word) :=
  match if word.startsWith dividerText then byStart word else byLetter word with
  | [] => .ok none
  | [found] => .ok (some found)
  | several => .error (.ambiguous word (several.map spelling))

/-- The flag that a word spells out, with an argument behind an equals sign. -/
def spelledOut? (word : String) : Option Word :=
  match Flag.table.lookup word, splitAtEquals word with
  | some f, _ => some (.flag f word none)
  | none, (start, some inside) => (Flag.table.lookup start).map fun f => .flag f start (some inside)
  | none, (_, none) => none

/-- The word of a text before any divider. -/
def ofText (text : String) : Except UsageError Word :=
  if !text.startsWith "-" ∨ text = "-" then .ok (.argument text)
  else match spelledOut? text with
    | some word => .ok word
    | none => do
      match ← abbreviated text with
      | some word => return word
      | none =>
        if isNegativeNumber text.toList ∨ text.contains ' ' then return .argument text
        else return .unknown text

/-- The words of some texts. -/
def ofTexts : List String → Except UsageError (List Word)
  | [] => .ok []
  | text :: rest =>
    if text = dividerText then .ok (.divider :: rest.map .argument)
    else do
      let first ← ofText text
      return first :: (← ofTexts rest)

end Word

end MethodLint.CommandLine
