/-!
Hexadecimal numerals: the value of a digit, and the numeral of a number with at least a given
number of digits.
-/
namespace MethodLint.Text

/-- The value of a hexadecimal digit, in either case. -/
def hexValue? (c : Char) : Option Nat :=
  if '0' ≤ c ∧ c ≤ '9' then some (c.toNat - '0'.toNat)
  else if 'a' ≤ c ∧ c ≤ 'f' then some (c.toNat - 'a'.toNat + 10)
  else if 'A' ≤ c ∧ c ≤ 'F' then some (c.toNat - 'A'.toNat + 10)
  else none

/-- The numeral of `n` in small letters, padded with zeros to `width` digits. -/
def hexNumeral (width n : Nat) : String :=
  let digits := Nat.toDigits 16 n
  String.ofList (List.replicate (width - digits.length) '0' ++ digits)

/-- The numeral of `n` in capitals, padded with zeros to `width` digits. -/
def hexCapitals (width n : Nat) : String := (hexNumeral width n).toUpper

end MethodLint.Text
