import MethodLint.Decimal.Numeral
import MethodLint.Source.Complaint

/-!
Numbers in a source: decimal, with a fraction, an exponent or an imaginary unit, or with a base of
two, eight or sixteen. Single underscores may separate digits. A number ends where no digit can
follow; what comes next must not look like the rest of a name, unless it is a word that may follow a
number.

A reading takes the characters of the number off the text, and answers how many it took.
-/
namespace MethodLint.Source.NumberToken

/-- A reading: what is left after the number. -/
abbrev Reading := Except Complaint (List Char)

/-- A character that looks like a part of a name. -/
def isNameLike (c : Char) : Bool := c.isAlphanum || c = '_' || c.toNat ≥ 128

/-- The words that may follow a number without a space. -/
def followers : List String := ["and", "else", "for", "if", "in", "is", "or", "not"]

/-- A number of a kind may end here. -/
def ending (kind : String) (rest : List Char) : Reading :=
  match rest with
  | c :: _ =>
    if isNameLike c ∧ ¬ followers.any (fun word => word.toList.isPrefixOf rest) then
      .error (.badLiteral kind)
    else .ok rest
  | [] => .ok rest

/-- Digits separated by single underscores, after the first digit. -/
def digitsFrom (isDigit : Char → Bool) (complaint : Complaint) : List Char → Reading
  | '_' :: c :: rest => if isDigit c then digitsFrom isDigit complaint rest else .error complaint
  | '_' :: [] => .error complaint
  | c :: rest => if isDigit c then digitsFrom isDigit complaint rest else .ok (c :: rest)
  | [] => .ok []

/-- More decimal digits. -/
def decimals : List Char → Reading := digitsFrom Decimal.isDigit (.badLiteral "decimal")

/-- The end of a decimal number, which an imaginary unit may precede. -/
def decimalEnding : List Char → Reading
  | c :: rest =>
    if c = 'j' ∨ c = 'J' then ending "imaginary" rest else ending "decimal" (c :: rest)
  | [] => .ok []

/-- An exponent, if one follows, and the end of the number. An `e` that no digits follow is not part
of the number. -/
def exponent (rest : List Char) : Reading :=
  match rest with
  | e :: after =>
    if e = 'e' ∨ e = 'E' then
      match after with
      | c :: digits =>
        if c = '+' ∨ c = '-' then
          match digits with
          | d :: more =>
            if Decimal.isDigit d then do decimalEnding (← decimals more)
            else .error (.badLiteral "decimal")
          | [] => .error (.badLiteral "decimal")
        else if Decimal.isDigit c then do decimalEnding (← decimals digits)
        else ending "decimal" rest
      | [] => ending "decimal" rest
    else decimalEnding rest
  | [] => .ok []

/-- What follows the point of a number. -/
def fraction (rest : List Char) : Reading :=
  match rest with
  | c :: more => if Decimal.isDigit c then do exponent (← decimals more) else exponent rest
  | [] => .ok []

/-- What follows the whole part of a decimal number. -/
def afterWhole (rest : List Char) : Reading :=
  match rest with
  | '.' :: more => fraction more
  | _ => exponent rest

/-- A digit of a base. -/
def isDigitOf (base : Nat) (c : Char) : Bool :=
  match base with
  | 2 => c = '0' || c = '1'
  | 8 => '0' ≤ c && c < '8'
  | _ => Decimal.isDigit c || ('a' ≤ c && c ≤ 'f') || ('A' ≤ c && c ≤ 'F')

/-- The complaint about a character where a digit of a base must stand. -/
def wrongDigit (kind : String) (c : Char) : Complaint :=
  if Decimal.isDigit c then .badDigit c kind else .badLiteral kind

/-- Groups of digits of a base, the first of which may follow an underscore. -/
def based (base : Nat) (kind : String) : (needed : Bool) → List Char → Reading
  | _, '_' :: c :: rest =>
    if isDigitOf base c then based base kind false rest else .error (wrongDigit kind c)
  | _, '_' :: [] => .error (.badLiteral kind)
  | needed, c :: rest =>
    if isDigitOf base c then based base kind false rest
    else if needed ∨ (base ≠ 16 ∧ Decimal.isDigit c) then .error (wrongDigit kind c)
    else ending kind (c :: rest)
  | needed, [] => if needed then .error (.badLiteral kind) else .ok []

/-- The zeros that a number opens with. -/
def zeros : List Char → Reading
  | '_' :: c :: rest =>
    if c = '0' then zeros rest
    else if Decimal.isDigit c then .ok (c :: rest)
    else .error (.badLiteral "decimal")
  | '_' :: [] => .error (.badLiteral "decimal")
  | c :: rest => if c = '0' then zeros rest else .ok (c :: rest)
  | [] => .ok []

/-- A number that opens with a zero and names no base: zero itself, or a number with a point, an
exponent or an imaginary unit. -/
def afterZero (rest : List Char) : Reading := do
  let rest ← zeros rest
  let nonzero := match rest with
    | c :: _ => Decimal.isDigit c
    | [] => false
  let rest ← if nonzero then decimals rest else pure rest
  match rest with
  | c :: _ =>
    if c = '.' ∨ c = 'e' ∨ c = 'E' then afterWhole rest
    else if c = 'j' ∨ c = 'J' then decimalEnding rest
    else if nonzero then throw .leadingZeros
    else ending "decimal" rest
  | [] => if nonzero then throw .leadingZeros else return []

/-- What is left after a number that begins with a digit. -/
def read : List Char → Reading
  | '0' :: c :: rest =>
    if c = 'x' ∨ c = 'X' then based 16 "hexadecimal" true rest
    else if c = 'o' ∨ c = 'O' then based 8 "octal" true rest
    else if c = 'b' ∨ c = 'B' then based 2 "binary" true rest
    else afterZero (c :: rest)
  | '0' :: [] => .ok []
  | _ :: rest => do afterWhole (← decimals rest)
  | [] => .ok []

/-- What is left after a number that begins with a point. -/
def readPoint (cs : List Char) : Reading := fraction (cs.drop 1)

/-- The characters that can be looked at for a number: those of names, points, and a sign after an
exponent's letter. -/
def span (previous : Char) : List Char → List Char
  | [] => []
  | c :: rest =>
    if isNameLike c ∨ c = '.' ∨ ((c = '+' ∨ c = '-') ∧ (previous = 'e' ∨ previous = 'E')) then
      c :: span c rest
    else []

end MethodLint.Source.NumberToken
