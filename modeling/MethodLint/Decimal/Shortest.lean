/-!
The fewest decimal digits that read back as a given binary number.

A finite positive number is `m · 2^q`. The reals that round to it form an interval around it, whose
ends belong to it exactly when `m` is even. For one digit, two digits and so on, the two neighbours
of the number on that decimal grid are tried; the first grid with a neighbour in the interval gives
the digits, the nearer neighbour of two, and the even one on a tie. Seventeen digits always do.
All arithmetic is on natural numbers: the number and the ends of its interval are written over one
common denominator.
-/
namespace MethodLint.Decimal

/-- A decimal: `0.d₁d₂…dₙ · 10^point`, its digits being the numeral of `digits`. -/
structure Digits where
  digits : Nat
  point : Int
  deriving DecidableEq, Repr

/-- The interval of a number over a common denominator: the reals `x` with
`low ≤ x · denominator ≤ high` round to `value / denominator`. -/
structure Interval where
  low : Nat
  value : Nat
  high : Nat
  denominator : Nat
  closed : Bool

/-- The interval of `m · 2^q`. Below a power of two the spacing is half of that above it, except at
the smallest exponent. -/
def Interval.of (m : Nat) (q : Int) (powerOfTwo : Bool) : Interval :=
  let scale : Nat := Nat.pow 2 (q - 2).toNat
  let denominator : Nat := Nat.pow 2 (2 - q).toNat
  { low := (4 * m - if powerOfTwo then 1 else 2) * scale
    value := 4 * m * scale
    high := (4 * m + 2) * scale
    denominator
    closed := m % 2 == 0 }

/-- A multiple `n` of `unit / divisor` lies in the interval. -/
def Interval.holds (i : Interval) (n unit divisor : Nat) : Bool :=
  let x := n * unit * i.denominator
  if i.closed then i.low * divisor ≤ x && x ≤ i.high * divisor
  else i.low * divisor < x && x < i.high * divisor

/-- The neighbour of the value on the grid of step `unit / divisor` that lies in the interval, the
nearer one if both do. -/
def Interval.onGrid? (i : Interval) (unit divisor : Nat) : Option Nat :=
  let step := unit * i.denominator
  let below := i.value * divisor / step
  let gap := i.value * divisor - below * step
  match i.holds below unit divisor, i.holds (below + 1) unit divisor with
  | true, true =>
    if 2 * gap < step then some below
    else if 2 * gap > step then some (below + 1)
    else if below % 2 = 0 then some below else some (below + 1)
  | true, false => some below
  | false, true => some (below + 1)
  | false, false => none

/-- The number of digits before the point of the integer part, counted on the numeral. -/
def numeralLength (n : Nat) : Nat := (Nat.toDigits 10 n).length

/-- The place of the leading digit: the `p` with `10^(p-1) ≤ value / denominator < 10^p`. -/
def Interval.point (i : Interval) : Int :=
  if i.denominator ≤ i.value then numeralLength (i.value / i.denominator)
  else
    -- the least `k` at which `10^k · value` reaches the denominator is this difference or the next
    let k := numeralLength i.denominator - numeralLength i.value
    if i.denominator ≤ i.value * Nat.pow 10 k then 1 - (k : Int) else -(k : Int)

/-- Tries grids of `count` digits and more, at most `steps` of them. -/
def Interval.search (i : Interval) (point : Int) : (steps count : Nat) → Digits
  | 0, count =>
    ⟨i.value * Nat.pow 10 (count - point).toNat / i.denominator / Nat.pow 10 (point - count).toNat,
      point⟩
  | steps + 1, count =>
    let power := point - count
    match i.onGrid? (Nat.pow 10 power.toNat) (Nat.pow 10 (-power).toNat) with
    | some n => if n = Nat.pow 10 count then ⟨1, point + 1⟩ else ⟨n, point⟩
    | none => i.search point steps (count + 1)

/-- Drops the zeros at the end of a numeral. -/
def dropZeros : (steps n : Nat) → Nat
  | 0, n => n
  | steps + 1, n => if n % 10 = 0 ∧ n ≠ 0 then dropZeros steps (n / 10) else n

/-- The shortest digits of `m · 2^q`, for a positive `m`. -/
def shortest (m : Nat) (q : Int) (powerOfTwo : Bool) : Digits :=
  let i := Interval.of m q powerOfTwo
  let found := i.search i.point 17 1
  { found with digits := dropZeros 20 found.digits }

end MethodLint.Decimal
