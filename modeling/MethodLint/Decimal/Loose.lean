import MethodLint.Decimal.Numeral
import MethodLint.Text.Blank
import MethodLint.Text.DecimalDigit
import MethodLint.Text.Hexadecimal
import MethodLint.Text.LowerCase
import MethodLint.Text.Quoted

/-!
Numbers as a person may write them: blanks on both sides, a sign, digits of any script, and single
underscores between digits. Whole numbers may have another base than ten and then the mark of their
base in front; fractions may be infinite or no number.
-/
namespace MethodLint.Decimal

/-- A blank beside a numeral. Of ASCII it is a space or one of the five characters that move on. -/
def isMargin (c : Char) : Bool := Text.isBlank c && !(28 ≤ c.toNat && c.toNat ≤ 31)

/-- A digit of any script as an ASCII digit; any other character as it is. -/
def plainDigit (c : Char) : Char :=
  match Text.digitValue? c with
  | some n => Char.ofNat ('0'.toNat + n)
  | none => c

/-- Whether a sign says that a number is negative, and the text behind it. -/
def signed : List Char → Bool × List Char
  | '-' :: rest => (true, rest)
  | '+' :: rest => (false, rest)
  | rest => (false, rest)

/-- Digits behind a digit; one underscore may stand before each. -/
def moreDigits (holds : Char → Bool) : List Char → List Char × List Char
  | [] => ([], [])
  | [c] => if holds c then ([c], []) else ([], [c])
  | c :: d :: rest =>
    if holds c then
      let (digits, rest) := moreDigits holds (d :: rest)
      (c :: digits, rest)
    else if c = '_' ∧ holds d then
      let (digits, rest) := moreDigits holds rest
      (d :: digits, rest)
    else ([], c :: d :: rest)

/-- Digits with single underscores between them, and the text behind them. -/
def looseDigits (holds : Char → Bool) : List Char → List Char × List Char
  | [] => ([], [])
  | c :: rest => if holds c then moreDigits holds (c :: rest) else ([], c :: rest)

/-- The letter that marks a base. -/
def baseLetter? : Nat → Option Char
  | 2 => some 'b'
  | 8 => some 'o'
  | 16 => some 'x'
  | _ => none

/-- The text behind the mark of a base, if there is one; an underscore may end the mark. -/
def withoutBaseMark (base : Nat) : List Char → List Char
  | '0' :: c :: rest =>
    if (baseLetter? base).any fun letter => c = letter || c = letter.toUpper then
      match rest with
      | '_' :: rest => rest
      | rest => rest
    else '0' :: c :: rest
  | text => text

/-- The number that digits of a base denote. -/
def ofDigitsIn (base : Nat) (digits : List Char) : Nat :=
  digits.foldl (fun n c => n * base + (Text.hexValue? c).getD 0) 0

/-- The number of characters of a numeral that a message shows. -/
def shownNumeral : Nat := 200

/-- A whole number of a base up to sixteen. -/
def looseInt (base : Nat) (text : List Char) : Except Fault Int :=
  let (negative, chars) := signed ((text.map plainDigit).dropWhile isMargin)
  let chars := withoutBaseMark base chars
  let (digits, rest) := looseDigits (fun c => (Text.hexValue? c).any (· < base)) chars
  if base = 10 ∧ numeralLimit < digits.length then .error (.numeralTooLong digits.length)
  else if digits.isEmpty ∨ !rest.all isMargin then
    let shown := (Text.quoted (String.ofList text)).toList.take shownNumeral
    .error (.badNumeral base (String.ofList shown))
  else
    let n : Int := ofDigitsIn base digits
    .ok (if negative then -n else n)

/-- An exponent behind its letter, or nothing; no answer if the text is neither. -/
def looseExponent? : List Char → Option Int
  | [] => some 0
  | c :: rest =>
    if c = 'e' ∨ c = 'E' then
      let (negative, rest) := signed rest
      match looseDigits isDigit rest with
      | ([], _) => none
      | (digits, []) => some (if negative then -(ofDigits digits : Int) else ofDigits digits)
      | _ => none
    else none

/-- A fraction without its sign. -/
def unsignedFraction? (negative : Bool) (text : List Char) : Option Float :=
  let word := Text.lower (String.ofList text)
  if word = "nan" then some (0.0 / 0.0)
  else if word = "inf" ∨ word = "infinity" then some (if negative then -(1.0 / 0.0) else 1.0 / 0.0)
  else
    let (whole, rest) := looseDigits isDigit text
    let (fraction, rest) := match rest with
      | '.' :: rest => looseDigits isDigit rest
      | rest => ([], rest)
    if whole.isEmpty ∧ fraction.isEmpty then none
    else (looseExponent? rest).map (floatOfDigits negative whole fraction)

/-- A fraction. -/
def looseFloat (text : List Char) : Except Fault Float :=
  let chars := ((text.map plainDigit).dropWhile isMargin).reverse.dropWhile isMargin
  let (negative, chars) := signed chars.reverse
  match unsignedFraction? negative chars with
  | some x => .ok x
  | none => .error (.badFraction (Text.quoted (String.ofList text)))

end MethodLint.Decimal
