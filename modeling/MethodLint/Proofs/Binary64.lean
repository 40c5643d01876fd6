import Mathlib
import MethodLint.Decimal.Float
import MethodLint.Decimal.Nearest

/-! Binary numbers and their bits. The patterns of no number count as one, so a
number is determined by its bits; and apart from that one, it is determined by its
parts: its sign and, if it is finite, a whole number of units of its last place. -/
namespace MethodLint.Binary64
open Decimal Float.Model Float.Model.UnpackedFloat

/-! ## Fields -/

section

variable (b : BitVec Format.binary64.numBits)

theorem exponent_toNat : (unpackExponent b).toNat = b.toNat / Nat.pow 2 52 % 2048 := by
  simp [unpackExponent, BitVec.extractLsb_toNat, Nat.shiftRight_eq_div_pow]

theorem fraction_toNat : (unpackMantissa b).toNat = b.toNat % Nat.pow 2 52 := by
  simp [unpackMantissa, BitVec.extractLsb_toNat]

end

/-! ## Numbers -/

/-- The number that is none. -/
theorem bits_of_no_number {x : Float} (top : x.toBits.toNat / Nat.pow 2 52 % 2048 = 2047)
    (marked : x.toBits.toNat % Nat.pow 2 52 ≠ 0) : x = 0.0 / 0.0 := by
  obtain ⟨bits, valid⟩ := x
  have canonical := valid.eq_packedNaN (BitVec.eq_of_toNat_eq (by rw [exponent_toNat]; exact top))
    fun plain => marked (by
      have zero := congrArg BitVec.toNat plain
      rw [fraction_toNat] at zero
      exact zero)
  have none : (0.0 / 0.0 : Float).toBits = 0x7ff8000000000000 := by decide +kernel
  rw [← Float.ofBits_toBits (0.0 / 0.0), none, ← Float.ofBits_toBits ⟨⟨bits, valid⟩⟩]
  exact congrArg Float.ofBits (UInt64.toBitVec_inj.mp (canonical.trans (by decide)))

/-- The number with these bits behind its sign, if these are its bits. -/
theorem eq_signedFloat {x : Float} {negative : Bool} {bits : Nat}
    (fields : x.toBits.toNat = (if negative then Nat.pow 2 63 + bits else bits)) :
    x = signedFloat negative bits := by
  rw [signedFloat, ← fields, UInt64.ofNat_toNat, Float.ofBits_toBits]

/-- `m · 2^q` is a number of the format, in the only way in which it is written so: the
unit of its last place is as great as `m` allows. -/
structure Significand (m : Nat) (q : Int) (powerOfTwo : Bool) : Prop where
  positive : 0 < m
  short : m < 9007199254740992
  least : -1074 ≤ q
  most : q ≤ 971
  normal : m < 4503599627370496 → q = -1074
  power : powerOfTwo = true ↔ m = 4503599627370496 ∧ -1074 < q

/-- The bits of `m · 2^q` behind its sign. -/
def magnitude (m : Nat) (q : Int) : Nat := (q - leastExponent).toNat * Nat.pow 2 52 + m

/-- The number that parts denote. -/
inductive Denotes (x : Float) : Parts → Prop where
  | nan (is : x = 0.0 / 0.0) : Denotes x .nan
  | infinity (is : x = signedFloat negative infinityBits) : Denotes x (.infinity negative)
  | zero (is : x = signedFloat negative 0) : Denotes x (.zero negative)
  | finite (written : Significand m q powerOfTwo) (is : x = signedFloat negative (magnitude m q)) :
    Denotes x (.finite negative m q powerOfTwo)

/-- A number is determined by its parts. -/
theorem parts_denote (x : Float) : Denotes x (Parts.of x) := by
  have bound : x.toBits.toNat < 18446744073709551616 := x.toBits.toNat_lt
  simp only [Parts.of, Parts.ofBits]
  generalize negates : (x.toBits.toNat / Nat.pow 2 63 == 1) = negative
  generalize exponent : x.toBits.toNat / Nat.pow 2 52 % 2048 = e
  generalize fraction : x.toBits.toNat % Nat.pow 2 52 = f
  have signed : x = signedFloat negative (e * 4503599627370496 + f) := by
    apply eq_signedFloat
    rw [← negates]
    simp only [Nat.pow_eq, Nat.reducePow, beq_iff_eq] at exponent fraction ⊢
    split <;> omega
  have few : f < 4503599627370496 := fraction ▸ Nat.mod_lt _ (by decide)
  have small : e < 2048 := exponent ▸ Nat.mod_lt _ (by decide)
  by_cases top : e = 2047
  · rw [if_pos top]
    by_cases plain : f = 0
    · rw [if_pos plain]
      exact .infinity (by rw [signed, top, plain]; rfl)
    · rw [if_neg plain]
      exact .nan (bits_of_no_number (exponent.trans top) (fraction ▸ plain))
  · rw [if_neg top]
    by_cases bottom : e = 0
    · rw [if_pos bottom]
      by_cases plain : f = 0
      · rw [if_pos plain]
        exact .zero (by rw [signed, bottom, plain])
      · rw [if_neg plain]
        refine .finite ⟨by omega, by omega, by omega, by omega, fun _ => rfl, by simp⟩ ?_
        rw [signed, bottom]
        simp [magnitude, leastExponent]
    · rw [if_neg bottom]
      simp only [Nat.pow_eq, Nat.reducePow]
      refine .finite ⟨by omega, by omega, by omega, by omega, by omega, ?_⟩ ?_
      · simp only [Bool.and_eq_true, decide_eq_true_eq]
        omega
      · refine signed.trans (congrArg (signedFloat negative) ?_)
        simp only [magnitude, leastExponent, Nat.pow_eq, Nat.reducePow]
        omega

end MethodLint.Binary64
