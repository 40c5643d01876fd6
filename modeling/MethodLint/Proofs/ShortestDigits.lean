import MethodLint.Proofs.NearestNumbers

/-! The shortest digits of a number read back. A decimal that is found lies in the
interval of the number, whatever the count of its digits; and seventeen digits are
enough, since then the steps of the grid are narrower than the interval. -/
namespace MethodLint.ShortestDigits
open Decimal Binary64 NearestNumbers

/-! ## Lengths of numerals -/

theorem length_le_iff {n k : ℕ} (some : 0 < k) : numeralLength n ≤ k ↔ n < 10 ^ k :=
  Nat.length_toDigits_le_iff (by decide) some

theorem length_pos (n : ℕ) : 0 < numeralLength n := Nat.length_toDigits_pos

theorem length_eq {n k : ℕ} (low : 10 ^ k ≤ n) (high : n < 10 ^ (k + 1)) : numeralLength n = k + 1 := by
  have most := (length_le_iff (Nat.succ_pos k)).mpr high
  have least : ¬ numeralLength n ≤ k := by
    intro short
    have some := (length_pos n).trans_le short
    exact absurd ((length_le_iff some).mp short) (not_lt.mpr low)
  omega

theorem lt_length (n : ℕ) : n < 10 ^ numeralLength n := (length_le_iff (length_pos n)).mp le_rfl

theorem length_reached {n : ℕ} (some : 0 < n) : 10 ^ (numeralLength n - 1) ≤ n := by
  have positive := length_pos n
  by_contra less
  rcases Nat.eq_zero_or_pos (numeralLength n - 1) with one | more
  · rw [one] at less
    omega
  · have shorter := (length_le_iff more).mpr (not_le.mp less)
    omega

/-- The number that digits stand for. -/
def amount (d : Digits) : ℚ := d.digits * 10 ^ (d.point - numeralLength d.digits)

/-- A number of digits for which the point is right, whatever their count was. -/
theorem amount_of_length {n k : ℕ} {point : ℤ} (low : 10 ^ k ≤ n) (high : n < 10 ^ (k + 1)) :
    amount ⟨n, point⟩ = n * 10 ^ (point - (k + 1 : ℕ)) := by
  rw [amount, length_eq low high]

theorem amount_zeros {n : ℕ} {point : ℤ} (some : 0 < n) : amount ⟨n * 10, point⟩ = amount ⟨n, point⟩ := by
  have positive := length_pos n
  have longer : numeralLength (n * 10) = numeralLength n + 1 := by
    apply length_eq
    · have low := length_reached some
      calc 10 ^ numeralLength n = 10 ^ (numeralLength n - 1) * 10 := by
            rw [← pow_succ, Nat.sub_add_cancel positive]
        _ ≤ n * 10 := by gcongr
    · rw [pow_succ]
      have high := lt_length n
      omega
  simp only [amount, longer]
  rw [Nat.cast_mul, mul_assoc]
  congr 1
  rw [Nat.cast_add, Nat.cast_one, ← sub_sub, zpow_sub_one₀ (by norm_num)]
  push_cast
  field_simp

theorem dropZeros_spec (steps : ℕ) (point : ℤ) {n : ℕ} (some : 0 < n) :
    0 < dropZeros steps n ∧ amount ⟨dropZeros steps n, point⟩ = amount ⟨n, point⟩ := by
  induction steps generalizing n with
  | zero => exact ⟨some, rfl⟩
  | succ steps ih =>
    rw [dropZeros]
    split
    · rename_i round
      have positive : 0 < n / 10 := by omega
      obtain ⟨kept, same⟩ := ih positive
      refine ⟨kept, same.trans ?_⟩
      rw [← amount_zeros positive]
      congr 2
      omega
    · exact ⟨some, rfl⟩

/-! ## The interval of a number -/

variable {m : ℕ} {q : ℤ} {powerOfTwo : Bool}

theorem denominator_pos (m : ℕ) (q : ℤ) (powerOfTwo : Bool) : 0 < (Interval.of m q powerOfTwo).denominator :=
  Nat.pow_pos (by decide)

/-- The scale and the denominator of an interval make a quarter of the last place. -/
theorem quarter : ((Nat.pow 2 (q - 2).toNat : ℕ) : ℚ) / (Nat.pow 2 (2 - q).toNat : ℕ) = 2 ^ q / 4 := by
  have split := zpow_split (two_ne_zero : (2 : ℚ) ≠ 0) (q - 2)
  rw [neg_sub] at split
  simp only [Nat.pow_eq]
  push_cast
  rw [← split, zpow_sub₀ (by norm_num)]
  norm_num

theorem interval_value (m : ℕ) (q : ℤ) (powerOfTwo : Bool) :
    ((Interval.of m q powerOfTwo).value : ℚ) / (Interval.of m q powerOfTwo).denominator = m * 2 ^ q := by
  simp only [Interval.of, Nat.cast_mul, mul_div_assoc, quarter]
  push_cast
  ring

theorem interval_low (q : ℤ) (powerOfTwo : Bool) (positive : 0 < m) :
    ((Interval.of m q powerOfTwo).low : ℚ) / (Interval.of m q powerOfTwo).denominator =
      (m - reachBelow powerOfTwo) * 2 ^ q := by
  have enough : (if powerOfTwo then 1 else 2) ≤ 4 * m := by split <;> omega
  simp only [Interval.of, Nat.cast_mul, mul_div_assoc, quarter, Nat.cast_sub enough]
  cases powerOfTwo
  · simp only [reachBelow, Bool.false_eq_true, if_false]
    push_cast
    ring
  · simp only [reachBelow, if_true]
    push_cast
    ring

theorem interval_high (m : ℕ) (q : ℤ) (powerOfTwo : Bool) :
    ((Interval.of m q powerOfTwo).high : ℚ) / (Interval.of m q powerOfTwo).denominator = (m + 1 / 2) * 2 ^ q := by
  simp only [Interval.of, Nat.cast_mul, mul_div_assoc, quarter]
  push_cast
  ring

/-- The interval has exactly the fractions near its number. -/
theorem holds_iff {n : ℕ} {power : ℤ} (positive : 0 < m) :
    (Interval.of m q powerOfTwo).holds n (Nat.pow 10 power.toNat) (Nat.pow 10 (-power).toNat) = true ↔
      Near (n * 10 ^ power) m q powerOfTwo := by
  have low := interval_low q powerOfTwo positive
  have high := interval_high m q powerOfTwo
  have closed : (Interval.of m q powerOfTwo).closed = (m % 2 == 0) := rfl
  have denominator : (0 : ℚ) < (Interval.of m q powerOfTwo).denominator := by
    exact_mod_cast denominator_pos m q powerOfTwo
  have scaled := multiple n power
  have divisor : (0 : ℚ) < (Nat.pow 10 (-power).toNat : ℕ) := by
    exact_mod_cast Nat.pow_pos (n := (-power).toNat) (by decide : 0 < 10)
  unfold Interval.holds
  generalize Interval.of m q powerOfTwo = i at low high closed denominator
  generalize n * Nat.pow 10 power.toNat = x at scaled
  generalize Nat.pow 10 (-power).toNat = d at scaled divisor
  rw [← scaled, closed]
  have above : i.low * d ≤ x * i.denominator ↔ (m - reachBelow powerOfTwo) * 2 ^ q ≤ (x / d : ℚ) := by
    rw [← low, div_le_div_iff₀ denominator divisor]
    norm_cast
  have below : x * i.denominator ≤ i.high * d ↔ (x / d : ℚ) ≤ (m + 1 / 2) * 2 ^ q := by
    rw [← high, div_le_div_iff₀ divisor denominator]
    norm_cast
  have inside : i.low * d < x * i.denominator ↔ (m - reachBelow powerOfTwo) * 2 ^ q < (x / d : ℚ) := by
    rw [← low, div_lt_div_iff₀ denominator divisor]
    norm_cast
  have within : x * i.denominator < i.high * d ↔ (x / d : ℚ) < (m + 1 / 2) * 2 ^ q := by
    rw [← high, div_lt_div_iff₀ divisor denominator]
    norm_cast
  by_cases even : m % 2 = 0
  · simp only [even, beq_self_eq_true, if_true, Bool.and_eq_true, decide_eq_true_eq, above, below]
    exact ⟨fun bounds => ⟨bounds.1, bounds.2, by omega⟩, fun near => ⟨near.above, near.below⟩⟩
  · have odd : m % 2 = 1 := by omega
    simp only [odd, Nat.reduceBEq, Bool.false_eq_true, if_false, Bool.and_eq_true, decide_eq_true_eq,
      inside, within]
    exact ⟨fun bounds => ⟨bounds.1.le, bounds.2.le, fun _ => bounds⟩, fun near => near.ends odd⟩

/-! ## The place of the leading digit -/

theorem floor_bounds {n d : ℕ} (positive : 0 < d) :
    ((n / d : ℕ) : ℚ) ≤ n / d ∧ (n / d : ℚ) < (n / d : ℕ) + 1 := by
  have fraction : (0 : ℚ) < d := by exact_mod_cast positive
  rw [le_div_iff₀ fraction, div_lt_iff₀ fraction]
  constructor
  · exact_mod_cast Nat.div_mul_le_self n d
  · have next := Nat.lt_mul_div_succ n positive
    rw [mul_comm] at next
    exact_mod_cast next

theorem length_bounds {n : ℕ} (some : 0 < n) :
    (10 : ℚ) ^ (numeralLength n - 1 : ℤ) ≤ n ∧ (n : ℚ) + 1 ≤ 10 ^ (numeralLength n : ℤ) := by
  have low := length_reached some
  have high := lt_length n
  have positive := length_pos n
  constructor
  · rw [← Nat.cast_pred positive, zpow_natCast]
    exact_mod_cast low
  · rw [zpow_natCast]
    exact_mod_cast high

/-- The lengths of two numerals leave two places for the leading digit of a quotient. -/
theorem quotient_bounds {n d k : ℕ} (some : 0 < n) (positive : 0 < d)
    (lengths : (k : ℤ) = numeralLength d - numeralLength n) :
    (10 : ℚ) ^ (-(k : ℤ) - 1) ≤ n / d ∧ (n / d : ℚ) < 10 ^ (1 - (k : ℤ)) := by
  have denominator : (0 : ℚ) < d := by exact_mod_cast positive
  obtain ⟨lowD, highD⟩ := length_bounds positive
  obtain ⟨lowN, highN⟩ := length_bounds some
  rw [le_div_iff₀ denominator, div_lt_iff₀ denominator]
  constructor
  · calc (10 : ℚ) ^ (-(k : ℤ) - 1) * d ≤ 10 ^ (-(k : ℤ) - 1) * 10 ^ (numeralLength d : ℤ) := by gcongr; linarith
      _ = 10 ^ (numeralLength n - 1 : ℤ) := zpow_join (by norm_num) (by omega)
      _ ≤ n := lowN
  · calc (n : ℚ) < 10 ^ (numeralLength n : ℤ) := by linarith
      _ = 10 ^ (1 - (k : ℤ)) * 10 ^ (numeralLength d - 1 : ℤ) := (zpow_join (by norm_num) (by omega)).symm
      _ ≤ 10 ^ (1 - (k : ℤ)) * d := by gcongr

/-- The point stands in front of the leading digit. -/
theorem point_spec (q : ℤ) (powerOfTwo : Bool) (positive : 0 < m) :
    (10 : ℚ) ^ ((Interval.of m q powerOfTwo).point - 1) ≤ m * 2 ^ q ∧
      (m * 2 ^ q : ℚ) < 10 ^ (Interval.of m q powerOfTwo).point := by
  have value := interval_value m q powerOfTwo
  have denominated := denominator_pos m q powerOfTwo
  have some : 0 < (Interval.of m q powerOfTwo).value :=
    Nat.mul_pos (Nat.mul_pos (by decide) positive) (Nat.pow_pos (by decide))
  rw [← value]
  unfold Interval.point
  generalize Interval.of m q powerOfTwo = i at denominated some
  have denominator : (0 : ℚ) < i.denominator := by exact_mod_cast denominated
  by_cases whole : i.denominator ≤ i.value
  · rw [if_pos whole]
    obtain ⟨below, above⟩ := floor_bounds (n := i.value) denominated
    obtain ⟨low, high⟩ := length_bounds (Nat.div_pos whole denominated)
    exact ⟨low.trans below, above.trans_le high⟩
  · rw [if_neg whole]
    have shorter : numeralLength i.value ≤ numeralLength i.denominator := by
      rw [length_le_iff (length_pos _)]
      exact (not_le.mp whole).trans (lt_length _)
    have difference := Nat.cast_sub (R := ℤ) shorter
    generalize numeralLength i.denominator - numeralLength i.value = k at difference
    obtain ⟨least, most⟩ := quotient_bounds some denominated difference
    have reached : i.denominator ≤ i.value * Nat.pow 10 k ↔ (10 : ℚ) ^ (-(k : ℤ)) ≤ i.value / i.denominator := by
      rw [le_div_iff₀ denominator, zpow_neg, inv_mul_le_iff₀ (by positivity), zpow_natCast, mul_comm]
      simp only [Nat.pow_eq]
      norm_cast
    by_cases atLeast : i.denominator ≤ i.value * Nat.pow 10 k
    · rw [if_pos atLeast, show 1 - (k : ℤ) - 1 = -k by omega]
      exact ⟨reached.mp atLeast, most⟩
    · rw [if_neg atLeast]
      exact ⟨least, not_le.mp (mt reached.mpr atLeast)⟩

/-! ## Grids -/

/-- The multiple of a power of ten at or below a number. -/
def under (m : ℕ) (q power : ℤ) (powerOfTwo : Bool) : ℕ :=
  (Interval.of m q powerOfTwo).value * Nat.pow 10 (-power).toNat /
    (Nat.pow 10 power.toNat * (Interval.of m q powerOfTwo).denominator)

theorem under_bounds (m : ℕ) (q power : ℤ) (powerOfTwo : Bool) :
    (under m q power powerOfTwo : ℚ) * 10 ^ power ≤ m * 2 ^ q ∧
      (m * 2 ^ q : ℚ) < (under m q power powerOfTwo + 1) * 10 ^ power := by
  have denominator : 0 < Nat.pow 10 power.toNat * (Interval.of m q powerOfTwo).denominator :=
    Nat.mul_pos (Nat.pow_pos (by decide)) (denominator_pos m q powerOfTwo)
  have step : (0 : ℚ) < 10 ^ power := zpow_pos (by norm_num) _
  obtain ⟨below, above⟩ := floor_bounds
    (n := (Interval.of m q powerOfTwo).value * Nat.pow 10 (-power).toNat) denominator
  have ratio : (((Interval.of m q powerOfTwo).value * Nat.pow 10 (-power).toNat : ℕ) : ℚ) /
      (Nat.pow 10 power.toNat * (Interval.of m q powerOfTwo).denominator : ℕ) = m * 2 ^ q / 10 ^ power := by
    rw [← interval_value m q powerOfTwo, zpow_split (by norm_num) power,
      div_div_div_eq]
    simp only [Nat.pow_eq]
    push_cast
    rw [mul_comm ((Interval.of m q powerOfTwo).denominator : ℚ)]
  rw [ratio] at below above
  exact ⟨(le_div_iff₀ step).mp below, (div_lt_iff₀ step).mp above⟩

/-- A neighbour that a grid gives is near the number. -/
theorem onGrid_some {power : ℤ} {n : ℕ} (positive : 0 < m)
    (given : (Interval.of m q powerOfTwo).onGrid? (Nat.pow 10 power.toNat) (Nat.pow 10 (-power).toNat) = some n) :
    (n = under m q power powerOfTwo ∨ n = under m q power powerOfTwo + 1) ∧
      Near (n * 10 ^ power) m q powerOfTwo := by
  rw [← holds_iff positive]
  simp only [Interval.onGrid?, ← under.eq_1] at given
  split at given
  · rename_i low high
    split_ifs at given <;> cases given
    · exact ⟨.inl rfl, low⟩
    · exact ⟨.inr rfl, high⟩
    · exact ⟨.inl rfl, low⟩
    · exact ⟨.inr rfl, high⟩
  · rename_i low _
    cases given
    exact ⟨.inl rfl, low⟩
  · rename_i _ high
    cases given
    exact ⟨.inr rfl, high⟩
  · cases given

/-- A grid gives none only if neither neighbour is near. -/
theorem onGrid_none {power : ℤ} (positive : 0 < m)
    (given : (Interval.of m q powerOfTwo).onGrid? (Nat.pow 10 power.toNat) (Nat.pow 10 (-power).toNat) = none) :
    ¬ Near (under m q power powerOfTwo * 10 ^ power) m q powerOfTwo ∧
      ¬ Near ((under m q power powerOfTwo + 1 : ℕ) * 10 ^ power) m q powerOfTwo := by
  rw [← holds_iff positive, ← holds_iff positive]
  simp only [Interval.onGrid?, ← under.eq_1] at given
  split at given
  · split_ifs at given
  · cases given
  · cases given
  · rename_i low high
    rw [low, high]
    exact ⟨Bool.false_ne_true, Bool.false_ne_true⟩

/-- On a grid of seventeen digits the steps are narrower than the interval. -/
theorem step_narrow {step : ℚ} (written : Significand m q powerOfTwo) (fine : step * 10 ^ 16 ≤ m * 2 ^ q) :
    step < (reachBelow powerOfTwo + 1 / 2) * 2 ^ q := by
  have unit := two_pos q
  have short : (m : ℚ) ≤ 9007199254740991 := by exact_mod_cast Nat.le_of_lt_succ written.short
  cases powerOfTwo with
  | false =>
    simp only [reachBelow, Bool.false_eq_true, if_false]
    nlinarith
  | true =>
    have exact : (m : ℚ) = 4503599627370496 := by exact_mod_cast (written.power.mp rfl).1
    rw [exact] at fine
    simp only [reachBelow, if_true]
    nlinarith

/-- So one of both neighbours is near. -/
theorem seventeen_suffice {power : ℤ} (written : Significand m q powerOfTwo)
    (fine : (10 : ℚ) ^ power * 10 ^ 16 ≤ m * 2 ^ q) :
    Near (under m q power powerOfTwo * 10 ^ power) m q powerOfTwo ∨
      Near ((under m q power powerOfTwo + 1 : ℕ) * 10 ^ power) m q powerOfTwo := by
  have unit := two_pos q
  have step : (0 : ℚ) < 10 ^ power := zpow_pos (by norm_num) _
  have narrow := step_narrow written fine
  have reach : (0 : ℚ) < reachBelow powerOfTwo := by cases powerOfTwo <;> norm_num [reachBelow]
  obtain ⟨below, above⟩ := under_bounds m q power powerOfTwo
  push_cast
  generalize (under m q power powerOfTwo : ℚ) = n at below above
  by_cases close : (m - reachBelow powerOfTwo) * 2 ^ q < n * 10 ^ power
  · have inside : n * 10 ^ power < ((m : ℚ) + 1 / 2) * 2 ^ q := by linarith
    exact .inl ⟨close.le, inside.le, fun _ => ⟨close, inside⟩⟩
  · have reached : 0 < reachBelow powerOfTwo * 2 ^ q := mul_pos reach unit
    have low : (m - reachBelow powerOfTwo) * 2 ^ q < (n + 1) * 10 ^ power := by linarith
    have high : (n + 1) * 10 ^ power < ((m : ℚ) + 1 / 2) * 2 ^ q := by linarith
    exact .inr ⟨low.le, high.le, fun _ => ⟨low, high⟩⟩

/-! ## The search -/

/-- Digits that stand for a fraction near a number. -/
structure Found (d : Digits) (m : ℕ) (q : ℤ) (powerOfTwo : Bool) : Prop where
  positive : 0 < d.digits
  near : Near (amount d) m q powerOfTwo

/-- On the grid of a count of digits, the neighbour below a number has that many. -/
theorem under_digits (q : ℤ) (powerOfTwo : Bool) (k : ℕ) (positive : 0 < m) :
    10 ^ k ≤ under m q ((Interval.of m q powerOfTwo).point - (k + 1 : ℕ)) powerOfTwo ∧
      under m q ((Interval.of m q powerOfTwo).point - (k + 1 : ℕ)) powerOfTwo < 10 ^ (k + 1) := by
  obtain ⟨low, high⟩ := point_spec q powerOfTwo positive
  obtain ⟨below, above⟩ := under_bounds m q
    ((Interval.of m q powerOfTwo).point - (k + 1 : ℕ)) powerOfTwo
  generalize under m q ((Interval.of m q powerOfTwo).point - (k + 1 : ℕ)) powerOfTwo = n at below above
  generalize (Interval.of m q powerOfTwo).point = point at low high below above
  have step : (0 : ℚ) < 10 ^ (point - (k + 1 : ℕ)) := zpow_pos (by norm_num) _
  have least : (10 : ℚ) ^ (point - 1) = 10 ^ k * 10 ^ (point - (k + 1 : ℕ)) := by
    rw [← zpow_natCast]
    exact (zpow_join (by norm_num) (by omega)).symm
  have most : (10 : ℚ) ^ point = 10 ^ (k + 1) * 10 ^ (point - (k + 1 : ℕ)) := by
    rw [← zpow_natCast]
    exact (zpow_join (by norm_num) (by omega)).symm
  constructor
  · have bound : (10 : ℚ) ^ k < n + 1 := by
      rw [← mul_lt_mul_iff_of_pos_right step, ← least]
      exact low.trans_lt above
    exact Nat.lt_succ_iff.mp (by exact_mod_cast bound)
  · have bound : (n : ℚ) < 10 ^ (k + 1) := by
      rw [← mul_lt_mul_iff_of_pos_right step, ← most]
      exact below.trans_lt high
    exact_mod_cast bound

/-- What a grid gives stands for what it says, also where the neighbour above a number
has a digit more. -/
theorem grid_found (k : ℕ) {n : ℕ} (positive : 0 < m)
    (given : (Interval.of m q powerOfTwo).onGrid?
      (Nat.pow 10 ((Interval.of m q powerOfTwo).point - (k + 1 : ℕ)).toNat)
      (Nat.pow 10 (-((Interval.of m q powerOfTwo).point - (k + 1 : ℕ))).toNat) = some n) :
    Found (if n = Nat.pow 10 (k + 1) then ⟨1, (Interval.of m q powerOfTwo).point + 1⟩
      else ⟨n, (Interval.of m q powerOfTwo).point⟩) m q powerOfTwo := by
  obtain ⟨low, high⟩ := under_digits q powerOfTwo k positive
  obtain ⟨neighbour, near⟩ := onGrid_some positive given
  generalize (Interval.of m q powerOfTwo).point = point at *
  have least : 10 ^ k ≤ n := by omega
  have most : n ≤ 10 ^ (k + 1) := by omega
  by_cases carried : n = Nat.pow 10 (k + 1)
  · rw [if_pos carried]
    refine ⟨Nat.one_pos, ?_⟩
    rw [carried] at near
    have same : amount ⟨1, point + 1⟩ = (Nat.pow 10 (k + 1) : ℕ) * 10 ^ (point - (k + 1 : ℕ)) := by
      rw [amount_of_length (k := 0) (by norm_num) (by norm_num), Nat.pow_eq, Nat.cast_pow, ← zpow_natCast,
        Nat.cast_one, one_mul, Nat.cast_ofNat]
      exact (zpow_join (by norm_num) (by omega)).symm
    rw [same]
    exact near
  · rw [if_neg carried]
    refine ⟨(Nat.pow_pos (by decide)).trans_le least, ?_⟩
    rw [amount_of_length least (lt_of_le_of_ne most carried)]
    exact near

/-- The search finds digits, since it goes up to seventeen of them. -/
theorem search_found (written : Significand m q powerOfTwo) (steps k : ℕ) (room : k < 17)
    (enough : 17 ≤ steps + k) :
    Found ((Interval.of m q powerOfTwo).search (Interval.of m q powerOfTwo).point steps (k + 1)) m q powerOfTwo := by
  induction steps generalizing k with
  | zero => omega
  | succ steps ih =>
    simp only [Interval.search]
    split
    · rename_i n given
      exact grid_found k written.positive given
    · rename_i given
      by_cases last : k = 16
      · -- the last grid cannot be without a neighbour
        obtain ⟨low, -⟩ := point_spec q powerOfTwo written.positive
        obtain ⟨notBelow, notAbove⟩ := onGrid_none written.positive given
        have fine : (10 : ℚ) ^ ((Interval.of m q powerOfTwo).point - (k + 1 : ℕ)) * 10 ^ 16 ≤ m * 2 ^ q := by
          refine le_trans (le_of_eq ?_) low
          rw [last, ← zpow_natCast]
          exact zpow_join (by norm_num) (by omega)
        rcases seventeen_suffice written fine with near | near
        · exact absurd near notBelow
        · exact absurd near notAbove
      · exact ih (k + 1) (by omega) (by omega)

/-- The shortest digits of a number stand for a fraction near it. -/
theorem shortest_found (written : Significand m q powerOfTwo) :
    Found (shortest m q powerOfTwo) m q powerOfTwo := by
  have found := search_found written 17 0 (by decide) (by decide)
  unfold shortest
  obtain ⟨kept, same⟩ := dropZeros_spec 20
    ((Interval.of m q powerOfTwo).search (Interval.of m q powerOfTwo).point 17 1).point found.positive
  refine ⟨kept, ?_⟩
  rw [same]
  exact found.near

end MethodLint.ShortestDigits
