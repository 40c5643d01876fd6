import MethodLint.Decimal.Shortest

/-!
The text of a binary floating-point number: the shortest digits that read back, in positional
notation from `10^-4` up to below `10^16`, with an exponent of at least two digits elsewhere, and
always recognisable as a fraction.
-/
namespace MethodLint.Decimal

/-- A floating-point number taken apart. -/
inductive Parts
  | nan
  | infinity (negative : Bool)
  | zero (negative : Bool)
  /-- The number `m · 2^q`, up to its sign. -/
  | finite (negative : Bool) (m : Nat) (q : Int) (powerOfTwo : Bool)

/-- Reads the fields of the 64-bit format. -/
def Parts.ofBits (bits : UInt64) : Parts :=
  let n := bits.toNat
  let negative := n / Nat.pow 2 63 == 1
  let exponent : Nat := n / Nat.pow 2 52 % 2048
  let fraction : Nat := n % Nat.pow 2 52
  if exponent = 2047 then if fraction = 0 then .infinity negative else .nan
  else if exponent = 0 then
    if fraction = 0 then .zero negative else .finite negative fraction (-1074) false
  else .finite negative (fraction + Nat.pow 2 52) ((exponent : Int) - 1075) (fraction = 0 && 1 < exponent)

/-- The parts of a number. -/
def Parts.of (x : Float) : Parts := .ofBits x.toBits

/-- Text of a positive decimal. -/
def Digits.text (d : Digits) : String :=
  let numeral := (toString d.digits).toList
  let count : Int := numeral.length
  if -4 < d.point ∧ d.point ≤ 16 then
    if d.point ≤ 0 then
      String.ofList ('0' :: '.' :: List.replicate (-d.point).toNat '0' ++ numeral)
    else if count ≤ d.point then
      String.ofList (numeral ++ List.replicate (d.point - count).toNat '0' ++ ['.', '0'])
    else
      String.ofList (numeral.take d.point.toNat ++ '.' :: numeral.drop d.point.toNat)
  else
    let exponent := d.point - 1
    let places := toString exponent.natAbs
    let head := match numeral with
      | [] => []
      | [c] => [c]
      | c :: rest => c :: '.' :: rest
    String.ofList head ++ "e" ++ (if exponent < 0 then "-" else "+")
      ++ (if places.length < 2 then "0" ++ places else places)

/-- Text of the parts of a number. -/
def Parts.text : Parts → String
  | .nan => "nan"
  | .infinity negative => if negative then "-inf" else "inf"
  | .zero negative => if negative then "-0.0" else "0.0"
  | .finite negative m q powerOfTwo =>
    (if negative then "-" else "") ++ (shortest m q powerOfTwo).text

/-- Text of a floating-point number. -/
def floatText (x : Float) : String := (Parts.of x).text

end MethodLint.Decimal
