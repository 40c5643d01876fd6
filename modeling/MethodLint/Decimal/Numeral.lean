import MethodLint.Decimal.Nearest
import MethodLint.Fault

/-!
Reading decimal numerals: whole numbers of a bounded number of digits, and fractions with an
exponent.
-/
namespace MethodLint.Decimal

/-- The number that a string of ASCII digits denotes. -/
def ofDigits (digits : List Char) : Nat :=
  digits.foldl (fun n c => n * 10 + (c.toNat - '0'.toNat)) 0

/-- An ASCII digit. -/
def isDigit (c : Char) : Bool := '0' ≤ c && c ≤ '9'

/-- A whole number with a sign, if it has no more digits than are read. -/
def intOfDigits (negative : Bool) (digits : List Char) : Except Fault Int :=
  if numeralLimit < digits.length then .error (.numeralTooLong digits.length)
  else .ok (if negative then -(ofDigits digits : Int) else ofDigits digits)

/-- The binary number nearest to `whole.fraction · 10^exponent`. -/
def floatOfDigits (negative : Bool) (whole fraction : List Char) (exponent : Int) : Float :=
  let digits := whole ++ fraction
  signedFloat negative (scaledBits (ofDigits digits) digits.length (exponent - fraction.length))

end MethodLint.Decimal
