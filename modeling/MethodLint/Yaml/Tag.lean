import MethodLint.Decimal.Numeral
import MethodLint.Text.Hexadecimal
import MethodLint.Yaml.Timestamp

/-!
Tags tell of what kind a node is. A plain scalar without a tag gets one from its text: each kind has
its forms, and a text of no form is text. A line feed at the end of a text does not count.
-/
namespace MethodLint.Yaml

/-- A kind of node. -/
inductive Tag
  | null
  | bool
  | int
  | float
  | binary
  | timestamp
  | orderedMap
  | pairs
  | set
  | str
  | seq
  | map
  /-- A key whose value is a mapping to take entries from. -/
  | merge
  /-- A key whose value stands for its mapping. -/
  | default
  /-- A kind that no value has. -/
  | other
  deriving DecidableEq, Repr

namespace Tag

/-- What the names of the common tags start with. -/
def commonStart : String := "tag:yaml.org,2002:"

/-- The names of the common tags behind their start. -/
def commonNames : List (String × Tag) :=
  [("null", .null), ("bool", .bool), ("int", .int), ("float", .float), ("binary", .binary),
    ("timestamp", .timestamp), ("omap", .orderedMap), ("pairs", .pairs), ("set", .set),
    ("str", .str), ("seq", .seq), ("map", .map), ("merge", .merge), ("value", .default)]

/-- The tag with a name. -/
def ofName (name : String) : Tag :=
  ((commonNames.find? fun entry => commonStart ++ entry.1 = name).map Prod.snd).getD .other

/-! ## Forms of numbers -/

/-- The text behind a sign, if there is one. -/
def withoutSign : List Char → List Char
  | '+' :: rest => rest
  | '-' :: rest => rest
  | rest => rest

/-- A digit or an underscore. -/
def isLooseDigit (c : Char) : Bool := Decimal.isDigit c || c = '_'

/-- Nothing, or an exponent, which must have a sign. -/
def isExponent : List Char → Bool
  | [] => true
  | [_] => false
  | c :: sign :: digits =>
    (c = 'e' || c = 'E') && (sign = '+' || sign = '-') && !digits.isEmpty
      && digits.all Decimal.isDigit

/-- One or two digits below sixty, behind a colon. -/
def sexagesimalDigits? : List Char → Option (List Char)
  | ':' :: a :: b :: rest =>
    if Decimal.isDigit a ∧ Decimal.isDigit b ∧ a ≤ '5' then some rest
    else if Decimal.isDigit a then some (b :: rest)
    else none
  | [':', a] => if Decimal.isDigit a then some [] else none
  | _ => none

/-- The text behind groups of digits below sixty, of which there is at least one. -/
def afterSexagesimals? : (steps : Nat) → List Char → Option (List Char)
  | 0, _ => none
  | steps + 1, text =>
    match sexagesimalDigits? text with
    | none => none
    | some rest => some ((afterSexagesimals? steps rest).getD rest)

/-- Digits after a first one that is not zero, and groups of sixty behind them. -/
def isWholeNumber (text : List Char) : Bool :=
  match withoutSign text with
  | '0' :: 'b' :: rest => !rest.isEmpty && rest.all fun c => c = '0' || c = '1' || c = '_'
  | '0' :: 'x' :: rest => !rest.isEmpty && rest.all fun c => (Text.hexValue? c).isSome || c = '_'
  | '0' :: rest => rest.all fun c => ('0' ≤ c && c ≤ '7') || c = '_'
  | c :: rest =>
    Decimal.isDigit c &&
      let rest := rest.dropWhile isLooseDigit
      rest.isEmpty || afterSexagesimals? rest.length rest = some []
  | [] => false

/-- Digits with a point, and an exponent or groups of sixty; or an infinity, or no number. -/
def isFraction (text : List Char) : Bool :=
  let unsigned := withoutSign text
  match unsigned with
  | '.' :: rest =>
    ["inf".toList, "Inf".toList, "INF".toList].contains rest
      || (unsigned = text &&
        (["nan".toList, "NaN".toList, "NAN".toList].contains rest
          || (rest.head?.any Decimal.isDigit
            && isExponent (rest.dropWhile isLooseDigit))))
  | c :: rest =>
    Decimal.isDigit c &&
      match rest.dropWhile isLooseDigit with
      | '.' :: rest => isExponent (rest.dropWhile isLooseDigit)
      | rest =>
        match afterSexagesimals? rest.length rest with
        | some ('.' :: rest) => rest.all isLooseDigit
        | _ => false
  | [] => false

/-! ## The tag of a plain text -/

/-- The words for true. -/
def trueWords : List String :=
  ["yes", "Yes", "YES", "true", "True", "TRUE", "on", "On", "ON"]

/-- The words for false. -/
def falseWords : List String :=
  ["no", "No", "NO", "false", "False", "FALSE", "off", "Off", "OFF"]

/-- The words for null. -/
def nullWords : List String := ["~", "null", "Null", "NULL"]

/-- A text without a line feed at its end. -/
def withoutLastBreak (text : List Char) : List Char :=
  if text.getLast? = some '\n' then text.dropLast else text

/-- The tag of a plain text. -/
def ofPlain (text : String) : Tag :=
  if text.isEmpty then .null
  else
    let chars := withoutLastBreak text.toList
    let word := String.ofList chars
    if trueWords.contains word ∨ falseWords.contains word then .bool
    else if nullWords.contains word then .null
    else if isFraction chars then .float
    else if isWholeNumber chars then .int
    else if word = "<<" then .merge
    else if word = "=" then .default
    else if (Timestamp.ofText? chars).any Timestamp.isPlain then .timestamp
    else if ["!", "&", "*"].contains word then .other
    else .str

end Tag

end MethodLint.Yaml
