/-!
The binary number nearest to a fraction, in the 64-bit format: the one with an even last bit of two.
The numbers next to zero share the least exponent. Written as bits, the exponent stands in front of
the fraction, so a carry out of the rounded fraction goes into the exponent by itself; and whatever
is beyond the largest number is infinite. All arithmetic is on natural numbers.
-/
namespace MethodLint.Decimal

/-- The bits of the positive infinity. -/
def infinityBits : Nat := 2047 * Nat.pow 2 52

/-- The whole number nearest to `n / d`, the even one of two. -/
def roundHalfEven (n d : Nat) : Nat :=
  let below := n / d
  let twice := 2 * (n % d)
  if twice < d ∨ (twice = d ∧ below % 2 = 0) then below else below + 1

/-- The exponent of the greatest power of two that `n / d` reaches. -/
def binaryExponent (n d : Nat) : Int :=
  let most : Int := (n.log2 : Int) - d.log2
  -- the lengths of both numerals leave only this exponent and the one below it
  if d * Nat.pow 2 most.toNat ≤ n * Nat.pow 2 (-most).toNat then most else most - 1

/-- The least exponent of the last bit of a number. -/
def leastExponent : Int := -1074

/-- The bits of the number nearest to `n / d`. -/
def nearestBits (n d : Nat) : Nat :=
  let exponent := max (binaryExponent n d - 52) leastExponent
  let rounded := roundHalfEven (n * Nat.pow 2 (-exponent).toNat) (d * Nat.pow 2 exponent.toNat)
  min ((exponent - leastExponent).toNat * Nat.pow 2 52 + rounded) infinityBits

/-- The bits of the number nearest to `n · 10^exponent`. An exponent far outside the range of binary
numbers is not built; `size` is the number of digits of `n`. -/
def scaledBits (n size : Nat) (exponent : Int) : Nat :=
  if n = 0 ∨ exponent + size < -400 then 0
  else if 400 < exponent then infinityBits
  else nearestBits (n * Nat.pow 10 exponent.toNat) (Nat.pow 10 (-exponent).toNat)

/-- The number with these bits behind its sign. -/
def signedFloat (negative : Bool) (bits : Nat) : Float :=
  Float.ofBits (UInt64.ofNat (if negative then Nat.pow 2 63 + bits else bits))

end MethodLint.Decimal
