import MethodLint.Text.Hexadecimal

/-!
Escapes in the texts of a source, and what can be wrong with them. A mistake is placed by counting
bytes in the plain form of its text, which is ASCII throughout: there other characters are long
escapes themselves. An escape by a character's name is taken to name a character.
-/
namespace MethodLint.Source

/-- Why an escape does not stand for a character. -/
inductive EscapeDefect
  | cutShort (letter : Char)
  | beyondCharacters
  | unnamed
  deriving DecidableEq, Repr

/-- An escape that stands for nothing: in a text, with its first and its last byte, or in bytes. -/
inductive EscapeMistake
  | inText (defect : EscapeDefect) (first last : Nat)
  | inBytes (first : Nat)
  deriving DecidableEq, Repr

/-- The number of digits that an escape by a character's number has. -/
def escapeDigits? : Char → Option Nat
  | 'x' => some 2
  | 'u' => some 4
  | 'U' => some 8
  | _ => none

/-- The wording of a defect. -/
def EscapeDefect.message : EscapeDefect → String
  | .cutShort letter =>
    let digits := String.ofList (List.replicate ((escapeDigits? letter).getD 0) 'X')
    s!"truncated \\{letter}{digits} escape"
  | .beyondCharacters => "illegal Unicode character"
  | .unnamed => "malformed \\N character escape"

/-- The wording of a mistake. -/
def EscapeMistake.message : EscapeMistake → String
  | .inText defect first last =>
    let reason := defect.message
    s!"(unicode error) 'unicodeescape' codec can't decode bytes in position {first}-{last}: {reason}"
  | .inBytes first => s!"(value error) invalid \\x escape at position {first}"

/-- Whether a character is ASCII. -/
def isAscii (c : Char) : Bool := c.toNat < 128

/-- A text with everything else than ASCII written as long escapes. A backslash before such a
character stands for itself. -/
def plainForm : List Char → List Char
  | [] => []
  | '\\' :: c :: rest =>
    if isAscii c then '\\' :: c :: plainForm rest
    else "\\u005c\\U".toList ++ (Text.hexNumeral 8 c.toNat).toList ++ plainForm rest
  | ['\\'] => "\\u005c".toList
  | c :: rest =>
    if isAscii c then c :: plainForm rest
    else "\\U".toList ++ (Text.hexNumeral 8 c.toNat).toList ++ plainForm rest

/-- The number that hexadecimal digits write. -/
def hexValue (digits : List Char) : Nat :=
  digits.foldl (fun n c => 16 * n + (Text.hexValue? c).getD 0) 0

/-- What follows an escape by a number of some digits, at a place in a text, or what is wrong. -/
def afterNumber (place : Nat) (letter : Char) (count : Nat) (rest : List Char) :
    Except EscapeMistake (List Char) :=
  let digits := (rest.take count).takeWhile fun c => (Text.hexValue? c).isSome
  let last := place + 1 + digits.length
  if digits.length < count then .error (.inText (.cutShort letter) place last)
  else if 0x10ffff < hexValue digits then .error (.inText .beyondCharacters place last)
  else .ok (rest.drop count)

/-- What follows an escape by a character's name, at a place in a text, or what is wrong. -/
def afterName (place : Nat) : List Char → Except EscapeMistake (List Char)
  | '{' :: rest =>
    let name := rest.takeWhile (· ≠ '}')
    match rest.drop name.length with
    | [] => .error (.inText .unnamed place (place + 2 + name.length))
    | _ :: after => if name.isEmpty then .error (.inText .unnamed place (place + 2)) else .ok after
  | _ => .error (.inText .unnamed place (place + 1))

/-- What follows an escape with its backslash and its letter, at a place in a text. -/
def afterEscape (place : Nat) (letter : Char) (rest : List Char) :
    Except EscapeMistake (List Char) :=
  match escapeDigits? letter with
  | some count => afterNumber place letter count rest
  | none => if letter = 'N' then afterName place rest else .ok rest

/-- The first mistake in the rest of a plain form that is `size` bytes long, of at most some steps. -/
def mistakeFrom? (size : Nat) : (steps : Nat) → List Char → Option EscapeMistake
  | steps + 1, '\\' :: letter :: rest =>
    match afterEscape (size - (rest.length + 2)) letter rest with
    | .error mistake => some mistake
    | .ok after => mistakeFrom? size steps after
  | steps + 1, _ :: rest => mistakeFrom? size steps rest
  | _, _ => none

/-- The first mistake among the escapes of a text. -/
def escapeMistake? (text : List Char) : Option EscapeMistake :=
  let form := plainForm text
  mistakeFrom? form.length form.length form

/-- The first mistake among the escapes of bytes, from a place on: an escape by a number has two
digits. -/
def byteMistakeFrom? (place : Nat) : List Char → Option EscapeMistake
  | '\\' :: 'x' :: rest =>
    if ((rest.take 2).takeWhile fun c => (Text.hexValue? c).isSome).length < 2
    then some (.inBytes place)
    else byteMistakeFrom? (place + 2) rest
  | '\\' :: _ :: rest => byteMistakeFrom? (place + 2) rest
  | _ :: rest => byteMistakeFrom? (place + 1) rest
  | [] => none

/-- The first mistake among the escapes of bytes. -/
def byteMistake? (bytes : List Char) : Option EscapeMistake := byteMistakeFrom? 0 bytes

end MethodLint.Source
