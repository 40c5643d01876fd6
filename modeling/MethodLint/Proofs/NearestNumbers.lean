import Mathlib.Algebra.Order.Field.Power
import Mathlib.Data.Nat.Log
import Mathlib.Data.Rat.Cast.Order
import Mathlib.Tactic.FieldSimp
import Mathlib.Tactic.Linarith
import Mathlib.Tactic.NormNum
import Mathlib.Tactic.Ring
import MethodLint.Proofs.Binary64

/-! Which number a fraction is read as. Around every number of the format lie the
fractions that are rounded to it: an interval from halfway to the number below to
halfway to the one above, with its ends if the last bit is even. -/
namespace MethodLint.NearestNumbers
open Decimal Binary64

/-! ## Powers -/

/-- A power has only one of the two factors that a whole exponent may stand for. -/
theorem zpow_split {base : ℚ} (nonzero : base ≠ 0) (z : ℤ) :
    base ^ z = base ^ z.toNat / base ^ (-z).toNat := by
  rw [eq_div_iff (pow_ne_zero _ nonzero), ← zpow_natCast, ← zpow_natCast, ← zpow_add₀ nonzero]
  congr 1
  omega

theorem zpow_join {base : ℚ} (nonzero : base ≠ 0) {i j k : ℤ} (sum : i + j = k) :
    base ^ i * base ^ j = base ^ k := by
  rw [← zpow_add₀ nonzero, sum]

/-- A multiple of a power of ten as the quotient of whole numbers that is computed for it. -/
theorem multiple (n : ℕ) (power : ℤ) :
    ((n * Nat.pow 10 power.toNat : ℕ) : ℚ) / (Nat.pow 10 (-power).toNat : ℕ) = n * 10 ^ power := by
  rw [zpow_split (by norm_num), mul_div_assoc']
  simp only [Nat.pow_eq]
  push_cast
  rfl

theorem two_pos (z : ℤ) : (0 : ℚ) < 2 ^ z := zpow_pos (by norm_num) z

theorem zpow_apart {base v : ℚ} {i j : ℤ} (greater : 1 < base) (low : base ^ i ≤ v) (high : v < base ^ j) : i < j :=
  (zpow_lt_zpow_iff_right₀ greater).mp (low.trans_lt high)

/-! ## Rounding -/

/-- The fraction is at most half away from `m`, and less if `m` is odd. -/
structure Rounded (v : ℚ) (m : ℕ) : Prop where
  above : (m : ℚ) - 1 / 2 ≤ v
  below : v ≤ m + 1 / 2
  ends : m % 2 = 1 → (m : ℚ) - 1 / 2 < v ∧ v < m + 1 / 2

/-- Of a quotient of whole numbers this is said in whole numbers. -/
theorem rounded_whole {n d m : ℕ} (positive : 0 < d) (rounded : Rounded (n / d) m) :
    2 * m * d ≤ 2 * n + d ∧ 2 * n ≤ 2 * m * d + d ∧
      (m % 2 = 1 → 2 * m * d < 2 * n + d ∧ 2 * n < 2 * m * d + d) := by
  have denominator : (0 : ℚ) < d := by exact_mod_cast positive
  refine ⟨?_, ?_, fun odd => ?_⟩
  · have bound := rounded.above
    rw [le_div_iff₀ denominator] at bound
    have whole : (2 * m * d : ℚ) ≤ 2 * n + d := by linarith
    exact_mod_cast whole
  · have bound := rounded.below
    rw [div_le_iff₀ denominator] at bound
    have whole : (2 * n : ℚ) ≤ 2 * m * d + d := by linarith
    exact_mod_cast whole
  · have bounds := rounded.ends odd
    rw [lt_div_iff₀ denominator, div_lt_iff₀ denominator] at bounds
    have first : (2 * m * d : ℚ) < 2 * n + d := by linarith
    have last : (2 * n : ℚ) < 2 * m * d + d := by linarith
    exact ⟨by exact_mod_cast first, by exact_mod_cast last⟩

theorem roundHalfEven_eq {n d m : ℕ} (positive : 0 < d) (rounded : Rounded (n / d) m) :
    roundHalfEven n d = m := by
  obtain ⟨above, below, ends⟩ := rounded_whole positive rounded
  have split := Nat.div_add_mod n d
  have rest := Nat.mod_lt n positive
  unfold roundHalfEven
  generalize n / d = b at split
  generalize n % d = r at split rest
  -- only the whole number at or below the fraction and the next one are near enough
  rcases Nat.lt_trichotomy b m with more | rfl | less
  · obtain ⟨k, rfl⟩ := Nat.exists_eq_add_of_lt more
    rcases Nat.eq_zero_or_pos k with rfl | further
    · have half : d ≤ 2 * r := by nlinarith
      have exact_half : 2 * r = d → (b + 0 + 1) % 2 = 0 := by
        intro tie
        by_contra odd
        have inside := (ends (by omega)).1
        nlinarith
      rw [if_neg (by omega)]
    · nlinarith
  · have half : 2 * r ≤ d := by nlinarith
    have exact_half : 2 * r = d → b % 2 = 0 := by
      intro tie
      by_contra odd
      have inside := (ends (by omega)).2
      nlinarith
    rw [if_pos (by omega)]
  · nlinarith

/-! ## The greatest power of two below a fraction -/

theorem binaryExponent_spec {n d : ℕ} (some : 0 < n) (positive : 0 < d) :
    (2 : ℚ) ^ binaryExponent n d ≤ n / d ∧ (n / d : ℚ) < 2 ^ (binaryExponent n d + 1) := by
  have denominator : (0 : ℚ) < d := by exact_mod_cast positive
  have lowN : (2 : ℚ) ^ (n.log2 : ℤ) ≤ n := by exact_mod_cast Nat.log2_self_le some.ne'
  have highN : (n : ℚ) < 2 ^ (n.log2 + 1 : ℤ) := by exact_mod_cast Nat.lt_log2_self
  have lowD : (2 : ℚ) ^ (d.log2 : ℤ) ≤ d := by exact_mod_cast Nat.log2_self_le positive.ne'
  have highD : (d : ℚ) < 2 ^ (d.log2 + 1 : ℤ) := by exact_mod_cast Nat.lt_log2_self
  unfold binaryExponent
  generalize lengths : (n.log2 : ℤ) - d.log2 = most
  have reached : d * Nat.pow 2 most.toNat ≤ n * Nat.pow 2 (-most).toNat ↔ (2 : ℚ) ^ most ≤ n / d := by
    rw [zpow_split (by norm_num), div_le_div_iff₀ (by positivity) denominator, mul_comm]
    simp only [Nat.pow_eq]
    exact_mod_cast Iff.rfl
  have above : (n / d : ℚ) < 2 ^ (most + 1) := by
    rw [div_lt_iff₀ denominator]
    calc (n : ℚ) < 2 ^ (n.log2 + 1 : ℤ) := highN
      _ = 2 ^ (most + 1) * 2 ^ (d.log2 : ℤ) := (zpow_join two_ne_zero (by omega)).symm
      _ ≤ 2 ^ (most + 1) * d := by gcongr
  have below : (2 : ℚ) ^ (most - 1) ≤ n / d := by
    rw [le_div_iff₀ denominator]
    calc (2 : ℚ) ^ (most - 1) * d ≤ 2 ^ (most - 1) * 2 ^ (d.log2 + 1 : ℤ) := by gcongr
      _ = 2 ^ (n.log2 : ℤ) := zpow_join two_ne_zero (by omega)
      _ ≤ n := lowN
  by_cases whole : d * Nat.pow 2 most.toNat ≤ n * Nat.pow 2 (-most).toNat
  · rw [if_pos whole]
    exact ⟨reached.mp whole, above⟩
  · rw [if_neg whole, sub_add_cancel]
    exact ⟨below, not_le.mp (mt reached.mpr whole)⟩

/-! ## The number nearest to a fraction -/

/-- How far below a number, in units of its last place, the next interval starts. The
unit below a power of two is half as great. -/
def reachBelow (powerOfTwo : Bool) : ℚ := if powerOfTwo then 1 / 4 else 1 / 2

/-- The fraction lies in the interval of `m · 2^q`. -/
structure Near (v : ℚ) (m : ℕ) (q : ℤ) (powerOfTwo : Bool) : Prop where
  above : (m - reachBelow powerOfTwo) * 2 ^ q ≤ v
  below : v ≤ (m + 1 / 2) * 2 ^ q
  ends : m % 2 = 1 → (m - reachBelow powerOfTwo) * 2 ^ q < v ∧ v < (m + 1 / 2) * 2 ^ q

variable {v : ℚ} {m : ℕ} {q : ℤ} {powerOfTwo : Bool}

theorem reachBelow_le (powerOfTwo : Bool) : reachBelow powerOfTwo ≤ 1 / 2 := by
  cases powerOfTwo <;> norm_num [reachBelow]

theorem near_pos (written : Significand m q powerOfTwo) (near : Near v m q powerOfTwo) : 0 < v := by
  have unit := two_pos q
  have some : (1 : ℚ) ≤ m := by exact_mod_cast written.positive
  have reach := reachBelow_le powerOfTwo
  have lowest := near.above
  nlinarith

theorem near_numerator {n d : ℕ} (written : Significand m q powerOfTwo) (near : Near (n / d) m q powerOfTwo) :
    0 < n := by
  have fraction := near_pos written near
  by_contra none
  simp [Nat.eq_zero_of_not_pos none] at fraction

/-- A fraction near a number is not so great that it has a unit of a greater place. -/
theorem near_lt (written : Significand m q powerOfTwo) (near : Near v m q powerOfTwo) : v < 2 ^ (q + 53) := by
  have unit := two_pos q
  have short : (m : ℚ) + 1 ≤ 9007199254740992 := by exact_mod_cast written.short
  rw [zpow_add₀ (by norm_num)]
  calc v ≤ (m + 1 / 2) * 2 ^ q := near.below
    _ < 9007199254740992 * 2 ^ q := by gcongr; linarith
    _ = 2 ^ q * 2 ^ (53 : ℤ) := by norm_num [mul_comm]

/-- In units of its last place, a fraction near a number is rounded to it. -/
theorem near_rounded (near : Near v m q powerOfTwo) : Rounded (v / 2 ^ q) m := by
  have unit := two_pos q
  have reach := reachBelow_le powerOfTwo
  have lower : ((m : ℚ) - 1 / 2) * 2 ^ q ≤ (m - reachBelow powerOfTwo) * 2 ^ q := by gcongr
  refine ⟨?_, ?_, fun odd => ⟨?_, ?_⟩⟩
  · rw [le_div_iff₀ unit]
    exact lower.trans near.above
  · rw [div_le_iff₀ unit]
    exact near.below
  · rw [lt_div_iff₀ unit]
    exact lower.trans_lt (near.ends odd).1
  · rw [div_lt_iff₀ unit]
    exact (near.ends odd).2

/-- Only below a power of two does the interval begin in the lower half of a place. -/
theorem power_of_low (written : Significand m q powerOfTwo) (near : Near v m q powerOfTwo)
    (normal : q ≠ -1074) (low : v < 4503599627370496 * 2 ^ q) : powerOfTwo = true := by
  have unit := two_pos q
  by_contra other
  rw [Bool.not_eq_true] at other
  have more : 4503599627370497 ≤ m := by
    have full := written.normal
    have power := written.power
    have least := written.least
    rw [other] at power
    simp only [Bool.false_eq_true, false_iff] at power
    omega
  have many : (4503599627370497 : ℚ) ≤ m := by exact_mod_cast more
  have above := near.above
  rw [other, reachBelow] at above
  simp only [Bool.false_eq_true, if_false] at above
  nlinarith

theorem rounded_up (above : (4503599627370496 - 1 / 4) * 2 ^ q ≤ v) (low : v < 4503599627370496 * 2 ^ q) :
    Rounded (v / 2 ^ (q - 1)) 9007199254740992 := by
  have unit := two_pos q
  have half : (2 : ℚ) ^ (q - 1) = 2 ^ q / 2 := by
    rw [zpow_sub₀ (by norm_num), zpow_one]
  refine ⟨?_, ?_, fun odd => absurd odd (by decide)⟩
  · rw [half, le_div_iff₀ (by linarith)]
    push_cast
    linarith
  · rw [half, div_le_iff₀ (by linarith)]
    push_cast
    linarith

/-- A fraction near a number has the same last place, or it lies below a power of two and
is rounded up to it. -/
theorem near_place {k : ℤ} (written : Significand m q powerOfTwo) (near : Near v m q powerOfTwo)
    (low : (2 : ℚ) ^ k ≤ v) (high : v < 2 ^ (k + 1)) :
    max (k - 52) (-1074) = q ∨
      max (k - 52) (-1074) = q - 1 ∧ m = 4503599627370496 ∧ Rounded (v / 2 ^ (q - 1)) 9007199254740992 := by
  have unit := two_pos q
  have least := written.least
  have top := zpow_apart (by norm_num) low (near_lt written near)
  by_cases normal : (2 : ℚ) ^ (q + 52) ≤ v
  · have bottom := zpow_apart (by norm_num) normal high
    exact .inl (by omega)
  · by_cases last : q = -1074
    · exact .inl (by omega)
    · have below : v < 4503599627370496 * 2 ^ q := by
        rw [zpow_add₀ (by norm_num), mul_comm] at normal
        exact lt_of_not_ge (by norm_num at normal ⊢; exact normal)
      have power := power_of_low written near last below
      obtain ⟨lowest, -⟩ := written.power.mp power
      have above := near.above
      rw [power, reachBelow, lowest] at above
      simp only [if_true] at above
      push_cast at above
      have bottom : (2 : ℚ) ^ (q + 51) ≤ v := by
        rw [zpow_add₀ (by norm_num)]
        norm_num
        linarith
      have reached := zpow_apart (by norm_num) bottom high
      have short := zpow_apart (by norm_num) low (not_le.mp normal)
      exact .inr ⟨by omega, lowest, rounded_up above below⟩

theorem scaled_ratio (n d : ℕ) (e : ℤ) :
    ((n * Nat.pow 2 (-e).toNat : ℕ) : ℚ) / (d * Nat.pow 2 e.toNat : ℕ) = n / d / 2 ^ e := by
  rw [zpow_split (by norm_num), div_div_eq_mul_div, div_mul_eq_mul_div, div_div]
  simp only [Nat.pow_eq]
  push_cast
  rfl

theorem magnitude_lt (written : Significand m q powerOfTwo) : magnitude m q < infinityBits := by
  have short := written.short
  have most := written.most
  have least := written.least
  simp only [magnitude, infinityBits, leastExponent, Nat.pow_eq]
  omega

/-- A fraction near a number is read as that number. -/
theorem nearestBits_eq {n d : ℕ} (positive : 0 < d) (written : Significand m q powerOfTwo)
    (near : Near (n / d) m q powerOfTwo) : nearestBits n d = magnitude m q := by
  have bounded := magnitude_lt written
  obtain ⟨low, high⟩ := binaryExponent_spec (near_numerator written near) positive
  have place := near_place written near low high
  have rounds : ∀ {e : ℤ} {k : ℕ}, Rounded (n / d / 2 ^ e) k →
      roundHalfEven (n * Nat.pow 2 (-e).toNat) (d * Nat.pow 2 e.toNat) = k := by
    intro e k rounded
    exact roundHalfEven_eq (Nat.mul_pos positive (Nat.pow_pos (by decide))) (by rwa [scaled_ratio])
  unfold nearestBits
  simp only [leastExponent] at bounded ⊢
  obtain same | ⟨lower, power, rounded⟩ := place
  · rw [same, rounds (near_rounded near)]
    exact Nat.min_eq_left bounded.le
  · rw [lower, rounds rounded]
    -- the carry out of the fraction counts as one more in the exponent
    have carried : (q - 1 - -1074).toNat * Nat.pow 2 52 + 9007199254740992 = magnitude m q := by
      simp only [magnitude, leastExponent, power, Nat.pow_eq]
      omega
    rw [carried]
    exact Nat.min_eq_left bounded.le

/-! ## Decimals -/

theorem least_decimal : (10 : ℚ) ^ (-324 : ℤ) ≤ 2 ^ (-1075 : ℤ) := by
  have powers : 2 ^ 1075 ≤ 10 ^ 324 := by decide +kernel
  have cast : (2 : ℚ) ^ 1075 ≤ 10 ^ 324 := by exact_mod_cast powers
  exact inv_anti₀ (by positivity) cast

theorem greatest_decimal : (2 : ℚ) ^ (1024 : ℤ) < 10 ^ (309 : ℤ) := by
  have powers : 2 ^ 1024 < 10 ^ 309 := by decide +kernel
  exact_mod_cast powers

/-- No decimal near a number needs an exponent beyond these. -/
theorem near_bounds (written : Significand m q powerOfTwo) (near : Near v m q powerOfTwo) :
    (10 : ℚ) ^ (-324 : ℤ) ≤ v ∧ v < 10 ^ (309 : ℤ) := by
  have unit := two_pos q
  have some : (1 : ℚ) ≤ m := by exact_mod_cast written.positive
  have reach := reachBelow_le powerOfTwo
  constructor
  · calc (10 : ℚ) ^ (-324 : ℤ) ≤ 2 ^ (-1 + -1074 : ℤ) := least_decimal
      _ = 1 / 2 * 2 ^ (-1074 : ℤ) := by
        rw [zpow_add₀ (by norm_num), zpow_neg_one, one_div]
      _ ≤ 1 / 2 * 2 ^ q := by
        gcongr
        · norm_num
        · exact written.least
      _ ≤ (m - reachBelow powerOfTwo) * 2 ^ q := by gcongr; linarith
      _ ≤ v := near.above
  · calc v < 2 ^ (q + 53) := near_lt written near
      _ ≤ (2 : ℚ) ^ (1024 : ℤ) := by
        have most := written.most
        gcongr
        · norm_num
        · omega
      _ < 10 ^ (309 : ℤ) := greatest_decimal

/-- A decimal near a number is read as that number. -/
theorem scaledBits_eq {n size : ℕ} {exponent : ℤ} (digits : n < 10 ^ size)
    (written : Significand m q powerOfTwo) (near : Near (n * 10 ^ exponent) m q powerOfTwo) :
    scaledBits n size exponent = magnitude m q := by
  obtain ⟨low, high⟩ := near_bounds written near
  have power : (0 : ℚ) < 10 ^ exponent := zpow_pos (by norm_num) _
  have some : 0 < n := by
    rw [← multiple] at near
    exact Nat.pos_of_mul_pos_right (near_numerator written near)
  have atLeast : (10 : ℚ) ^ exponent ≤ n * 10 ^ exponent := by
    have one : (1 : ℚ) ≤ n := by exact_mod_cast some
    nlinarith
  have atMost : (n : ℚ) * 10 ^ exponent < 10 ^ (size + exponent : ℤ) := by
    rw [zpow_add₀ (by norm_num), zpow_natCast]
    gcongr
    exact_mod_cast digits
  have notSmall := zpow_apart (by norm_num) low atMost
  have notGreat := zpow_apart (by norm_num) atLeast high
  unfold scaledBits
  rw [if_neg (by omega), if_neg (by omega)]
  exact nearestBits_eq (Nat.pow_pos (by decide)) written (by rwa [multiple])

end MethodLint.NearestNumbers
