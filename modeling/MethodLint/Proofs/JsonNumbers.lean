import Mathlib.Data.List.Induction
import MethodLint.Json.Reader
import MethodLint.Json.Writer
import MethodLint.Proofs.ShortestDigits

/-! Numbers in documents. What is written for a number is a numeral of the grammar
that denotes it, so the number is read from it again: a whole number as it is, and a
binary one since its digits are near it. -/
namespace MethodLint.JsonNumbers
open Decimal Json Binary64 NearestNumbers ShortestDigits

/-! ## Digits -/

theorem isDigit_iff (c : Char) : isDigit c = c.isDigit := by
  simp only [isDigit, Char.isDigit]
  rfl

theorem numeral_digits (n : ℕ) : ∀ c ∈ Nat.toDigits 10 n, isDigit c = true := by
  intro c member
  rw [isDigit_iff]
  exact Nat.isDigit_of_mem_toDigits (by decide) (by decide) member

theorem ofDigits_eq (digits : List Char) : ofDigits digits = Nat.ofDigitChars 10 digits 0 := by
  rw [Nat.ofDigitChars_eq_foldl]
  simp only [ofDigits, mul_comm]

theorem ofDigits_numeral (n : ℕ) : ofDigits (Nat.toDigits 10 n) = n := by
  rw [ofDigits_eq, Nat.ofDigitChars_ten_toDigits]

theorem ofDigits_append (first last : List Char) :
    ofDigits (first ++ last) = ofDigits first * 10 ^ last.length + ofDigits last := by
  simp only [ofDigits_eq]
  rw [Nat.ofDigitChars_append, Nat.ofDigitChars_eq_ofDigitChars_zero, mul_comm]

theorem ofDigits_zeros (k : ℕ) : ofDigits (List.replicate k '0') = 0 := by
  rw [ofDigits_eq, Nat.ofDigitChars_replicate_zero, mul_zero]

theorem ofDigits_lt (digits : List Char) (each : ∀ c ∈ digits, isDigit c = true) :
    ofDigits digits < 10 ^ digits.length := by
  induction digits using List.reverseRecOn with
  | nil => decide
  | append_singleton digits c ih =>
    have before := ih fun d member => each d (List.mem_append_left _ member)
    have last : ofDigits [c] < 10 := by
      have digit := each c (by simp)
      simp only [isDigit, Bool.and_eq_true, decide_eq_true_eq] at digit
      have most : c.toNat ≤ '9'.toNat := digit.2
      simp only [ofDigits, List.foldl_cons, List.foldl_nil]
      change 0 * 10 + (c.toNat - 48) < 10
      change c.toNat ≤ 57 at most
      omega
    rw [ofDigits_append, List.length_append, pow_add]
    simp only [List.length_singleton, pow_one]
    omega

/-! ## Whole parts -/

/-- A whole part of the grammar: zero, or digits of which the first is another one. -/
inductive Whole : List Char → Prop where
  | zero : Whole ['0']
  | digits (first : c ≠ '0') (each : ∀ d ∈ c :: rest, isDigit d = true) : Whole (c :: rest)

theorem whole_digits {w : List Char} (whole : Whole w) : ∀ c ∈ w, isDigit c = true := by
  cases whole with
  | zero => exact List.forall_mem_singleton.mpr rfl
  | digits _ each => exact each

theorem numeral_leading {n : ℕ} (some : 0 < n) : ∃ c rest, Nat.toDigits 10 n = c :: rest ∧ c ≠ '0' := by
  induction n using Nat.strong_induction_on with
  | _ n ih =>
    rw [Nat.toDigits_eq_if (by decide)]
    split
    · refine ⟨_, [], rfl, ?_⟩
      rw [Ne, Nat.digitChar_eq_zero]
      omega
    · obtain ⟨c, rest, digits, other⟩ := ih (n / 10) (by omega) (by omega)
      exact ⟨c, _, by rw [digits, List.cons_append], other⟩

theorem numeral_whole (n : ℕ) : Whole (Nat.toDigits 10 n) := by
  rcases Nat.eq_zero_or_pos n with rfl | some
  · exact .zero
  · obtain ⟨c, rest, digits, other⟩ := numeral_leading some
    have each := numeral_digits n
    rw [digits] at each ⊢
    exact .digits other each

theorem whole_some {w : List Char} (whole : Whole w) : w.isEmpty = false := by cases whole <;> rfl

/-- No digit stands at the front of a text. -/
def NoDigit (rest : List Char) : Prop := ∀ c ∈ rest.head?, isDigit c = false

theorem digits_taken {digits rest : List Char} (each : ∀ c ∈ digits, isDigit c = true)
    (behind : NoDigit rest) : (digits ++ rest).takeWhile isDigit = digits := by
  rw [List.takeWhile_append_of_pos each]
  cases rest with
  | nil => simp
  | cons c rest => simp [behind c rfl]

/-- The reader takes a whole part as far as it goes. -/
theorem whole_taken {w rest : List Char} (whole : Whole w) (behind : NoDigit rest) :
    wholePart (w ++ rest) = w := by
  cases whole with
  | zero => rfl
  | @digits c others first each =>
    rw [List.cons_append, wholePart, ← List.cons_append, digits_taken each behind]
    rintro tail same
    exact first (List.cons.inj same).1

/-! ## Fractions and exponents -/

theorem fraction_taken {digits rest : List Char} (some : digits ≠ [])
    (each : ∀ c ∈ digits, isDigit c = true) (behind : NoDigit rest) :
    fraction? ('.' :: digits ++ rest) = .some (digits, rest) := by
  simp only [fraction?, List.cons_append]
  rw [digits_taken each behind, if_neg (by simpa using some), List.drop_left]

theorem fraction_absent {rest : List Char} (behind : ∀ c ∈ rest.head?, c ≠ '.') : fraction? rest = none := by
  unfold fraction?
  split
  · exact absurd rfl (behind _ rfl)
  · rfl

/-- The sign of an exponent. -/
def signChar (negative : Bool) : Char := if negative then '-' else '+'

theorem exponent_taken {negative : Bool} {digits rest : List Char} (some : digits ≠ []) (few : digits.length ≤ 12)
    (each : ∀ c ∈ digits, isDigit c = true) (behind : NoDigit rest) :
    exponent? ('e' :: signChar negative :: digits ++ rest) =
      .some (2 + digits.length, if negative then -(ofDigits digits : ℤ) else ofDigits digits, rest) := by
  have notEmpty : digits.isEmpty = false := by simpa using some
  cases negative
  · simp [exponent?, signChar, digits_taken each behind, notEmpty, List.take_of_length_le few]
  · simp [exponent?, signChar, digits_taken each behind, notEmpty, List.take_of_length_le few]

theorem exponent_absent {rest : List Char} (behind : ∀ c ∈ rest.head?, c ≠ 'e' ∧ c ≠ 'E') :
    exponent? rest = none := by
  cases rest with
  | nil => rfl
  | cons c rest =>
    obtain ⟨small, capital⟩ := behind c rfl
    simp [exponent?, small, capital]

/-! ## Numerals -/

/-- The reader gives a value and stops in front of a text. -/
def Gives {α : Type} (reading : Reading α) (a : α) (rest : List Char) : Prop :=
  ∃ index, reading = .ok (a, ⟨rest, index⟩)

/-- Nothing that could belong to a number stands at the front of a text. -/
def Apart (rest : List Char) : Prop :=
  ∀ c ∈ rest.head?, isDigit c = false ∧ c ≠ '.' ∧ c ≠ 'e' ∧ c ≠ 'E'

variable {negative : Bool} {start : Cursor} {w rest : List Char} {index : ℕ}

theorem readNumber_whole (negative : Bool) (start : Cursor) (index : ℕ) (whole : Whole w)
    (few : w.length ≤ numeralLimit) (apart : Apart rest) :
    Gives (readNumber negative start ⟨w ++ rest, index⟩)
      (.int (if negative then -(ofDigits w : ℤ) else ofDigits w)) rest := by
  have taken := whole_taken whole fun c front => (apart c front).1
  refine ⟨index + w.length, ?_⟩
  simp only [readNumber]
  rw [taken, whole_some whole]
  simp only [Cursor.drop, List.drop_left, fraction_absent fun c front => (apart c front).2.1,
    exponent_absent fun c front => (apart c front).2.2, Option.elim, intOfDigits, if_neg (not_lt.mpr few)]
  rfl

/-- A numeral with a fraction or an exponent. -/
structure Numeral where
  whole : List Char
  fraction : List Char
  exponent : Option (Bool × List Char)

namespace Numeral

/-- The point and what is behind it. -/
def pointed (n : Numeral) : List Char := if n.fraction = [] then [] else '.' :: n.fraction

/-- The exponent with its letter and sign. -/
def lettered (n : Numeral) : List Char :=
  match n.exponent with
  | none => []
  | some (negative, digits) => 'e' :: signChar negative :: digits

/-- The characters of a numeral. -/
def chars (n : Numeral) : List Char := n.whole ++ (n.pointed ++ n.lettered)

/-- The exponent as a number. -/
def power (n : Numeral) : ℤ :=
  match n.exponent with
  | none => 0
  | some (negative, digits) => if negative then -(ofDigits digits : ℤ) else ofDigits digits

/-- A numeral of the grammar that is no whole number. -/
structure Valid (n : Numeral) : Prop where
  whole : Whole n.whole
  fraction : ∀ c ∈ n.fraction, isDigit c = true
  exponent : ∀ e ∈ n.exponent, e.2 ≠ [] ∧ e.2.length ≤ 12 ∧ ∀ c ∈ e.2, isDigit c = true
  binary : n.fraction ≠ [] ∨ n.exponent.isSome

end Numeral

theorem lettered_front {n : Numeral} (apart : Apart rest) :
    ∀ c ∈ (n.lettered ++ rest).head?, isDigit c = false ∧ c ≠ '.' := by
  intro c front
  unfold Numeral.lettered at front
  split at front
  · exact ⟨(apart c front).1, (apart c front).2.1⟩
  · cases front
    decide

theorem pointed_front {n : Numeral} (apart : Apart rest) : NoDigit (n.pointed ++ (n.lettered ++ rest)) := by
  intro c front
  unfold Numeral.pointed at front
  split at front
  · exact (lettered_front apart c front).1
  · cases front
    decide

theorem lettered_taken {n : Numeral} (valid : n.Valid) (apart : Apart rest) :
    exponent? (n.lettered ++ rest) = n.exponent.map fun e =>
      (2 + e.2.length, if e.1 then -(ofDigits e.2 : ℤ) else ofDigits e.2, rest) := by
  have known := valid.exponent
  unfold Numeral.lettered
  cases exponent : n.exponent with
  | none => exact exponent_absent fun c front => (apart c front).2.2
  | some e =>
    obtain ⟨some, few, each⟩ := known e exponent
    exact exponent_taken some few each fun c front => (apart c front).1

theorem pointed_taken {n : Numeral} (valid : n.Valid) (apart : Apart rest) :
    fraction? (n.pointed ++ (n.lettered ++ rest)) =
      if n.fraction = [] then none else some (n.fraction, n.lettered ++ rest) := by
  unfold Numeral.pointed
  by_cases none : n.fraction = []
  · rw [if_pos none, if_pos none]
    exact fraction_absent fun c front => (lettered_front apart c front).2
  · rw [if_neg none, if_neg none]
    exact fraction_taken none valid.fraction fun c front => (lettered_front apart c front).1

/-- A number with a fraction or an exponent is binary. -/
theorem readNumber_binary (negative : Bool) (start : Cursor) (index : ℕ) {f : Option (List Char × List Char)}
    {e : Option (ℕ × ℤ × List Char)} (whole : Whole w) (behind : NoDigit rest) (fraction : fraction? rest = f)
    (exponent : exponent? (f.elim rest Prod.snd) = e)
    (binary : f ≠ none ∨ e ≠ none) :
    Gives (readNumber negative start ⟨w ++ rest, index⟩)
      (.float (floatOfDigits negative w (f.elim [] Prod.fst) (e.elim 0 fun e => e.2.1)))
      (rest.drop (f.elim 0 (fun f => f.1.length + 1) + e.elim 0 Prod.fst)) := by
  unfold Gives
  simp only [readNumber, whole_taken whole behind, whole_some whole, Cursor.drop, List.drop_left, fraction, exponent]
  cases f with
  | none =>
    cases e with
    | none => simp at binary
    | some e => exact ⟨_, by simp; rfl⟩
  | some f =>
    cases e with
    | none => exact ⟨_, by simp; rfl⟩
    | some e => exact ⟨_, by simp; rfl⟩

theorem readNumber_numeral {n : Numeral} (valid : n.Valid) (apart : Apart rest) :
    Gives (readNumber negative start ⟨n.chars ++ rest, index⟩)
      (.float (floatOfDigits negative n.whole n.fraction n.power)) rest := by
  have behind := pointed_front (n := n) apart
  have fraction := pointed_taken valid apart
  have exponent := lettered_taken valid apart
  have binary := valid.binary
  rw [Numeral.chars, List.append_assoc, List.append_assoc]
  obtain ⟨w, digits, power⟩ := n
  simp only [Numeral.pointed, Numeral.lettered, Numeral.power] at *
  cases power with
  | none =>
    have some := binary.resolve_right (by simp)
    simp only [if_neg some] at behind fraction ⊢
    have read := readNumber_binary negative start index valid.whole behind
      fraction exponent (.inl (by simp))
    simpa using read
  | some e =>
    by_cases absent : digits = []
    · simp only [if_pos absent] at behind fraction ⊢
      have read := readNumber_binary negative start index valid.whole behind
        fraction exponent (.inr (by simp))
      rw [absent]
      simpa [Nat.add_comm] using read
    · simp only [if_neg absent] at behind fraction ⊢
      have read := readNumber_binary negative start index valid.whole behind
        fraction exponent (.inl (by simp))
      simpa [Nat.add_comm, ← List.drop_drop] using read

/-! ## Layouts of decimals -/

/-- The digits of an exponent, at least two. -/
def places (n : ℕ) : List Char :=
  let digits := Nat.toDigits 10 n
  if digits.length < 2 then '0' :: digits else digits

/-- The numeral of a decimal. -/
def layout (d : Digits) : Numeral :=
  let digits := Nat.toDigits 10 d.digits
  if -4 < d.point ∧ d.point ≤ 16 then
    if d.point ≤ 0 then ⟨['0'], List.replicate (-d.point).toNat '0' ++ digits, none⟩
    else if (digits.length : ℤ) ≤ d.point then
      ⟨digits ++ List.replicate (d.point - digits.length).toNat '0', ['0'], none⟩
    else ⟨digits.take d.point.toNat, digits.drop d.point.toNat, none⟩
  else ⟨digits.take 1, digits.drop 1, some (decide (d.point - 1 < 0), places (d.point - 1).natAbs)⟩

theorem places_text (n : ℕ) :
    (if (toString n).length < 2 then "0" ++ toString n else toString n).toList = places n := by
  have length : (toString n).length = (Nat.toDigits 10 n).length := by
    rw [Nat.toString_eq_ofList_toDigits, String.length_ofList]
  by_cases short : (Nat.toDigits 10 n).length < 2
  · simp only [places, if_pos short]
    rw [length, if_pos short, String.toList_append, Nat.toString_eq_ofList_toDigits,
      String.toList_ofList (l := Nat.toDigits 10 n)]
    rfl
  · rw [length, if_neg short, Nat.toString_eq_ofList_toDigits, String.toList_ofList]
    simp only [places, if_neg short]

theorem layout_text (d : Digits) : d.text.toList = (layout d).chars := by
  have some : Nat.toDigits 10 d.digits ≠ [] := Nat.toDigits_ne_nil
  have written : (toString d.digits).toList = Nat.toDigits 10 d.digits := by
    rw [Nat.toString_eq_ofList_toDigits, String.toList_ofList]
  unfold Digits.text layout
  rw [written]
  generalize Nat.toDigits 10 d.digits = digits at some
  by_cases near : -4 < d.point ∧ d.point ≤ 16
  · simp only [if_pos near]
    by_cases below : d.point ≤ 0
    · simp only [if_pos below, String.toList_ofList]
      simp [Numeral.chars, Numeral.pointed, Numeral.lettered, some]
    · simp only [if_neg below]
      by_cases whole : (digits.length : ℤ) ≤ d.point
      · simp only [if_pos whole, String.toList_ofList]
        simp [Numeral.chars, Numeral.pointed, Numeral.lettered]
      · have cut : ¬ digits.length ≤ d.point.toNat := by omega
        simp only [if_neg whole, String.toList_ofList]
        simp [Numeral.chars, Numeral.pointed, Numeral.lettered, cut]
  · simp only [if_neg near, String.toList_append, places_text]
    have sign : (if d.point - 1 < 0 then "-" else "+").toList = [signChar (decide (d.point - 1 < 0))] := by
      unfold signChar
      split <;> simp_all
    rw [sign]
    cases digits with
    | nil => exact absurd rfl some
    | cons c rest => cases rest <;> simp [Numeral.chars, Numeral.pointed, Numeral.lettered]

theorem places_digits (n : ℕ) : ∀ c ∈ places n, isDigit c = true := by
  intro c member
  unfold places at member
  by_cases short : (Nat.toDigits 10 n).length < 2
  · simp only [if_pos short, List.mem_cons] at member
    rcases member with rfl | member
    · rfl
    · exact numeral_digits n c member
  · simp only [if_neg short] at member
    exact numeral_digits n c member

theorem ofDigits_places (n : ℕ) : ofDigits (places n) = n := by
  unfold places
  by_cases short : (Nat.toDigits 10 n).length < 2
  · simp only [if_pos short]
    exact ofDigits_numeral n
  · simp only [if_neg short]
    exact ofDigits_numeral n

theorem places_few {n : ℕ} (few : n < 1000) : places n ≠ [] ∧ (places n).length ≤ 12 := by
  have some : Nat.toDigits 10 n ≠ [] := Nat.toDigits_ne_nil
  have length : (Nat.toDigits 10 n).length ≤ 3 := (Nat.length_toDigits_le_iff (by decide) (by decide)).mpr few
  unfold places
  by_cases short : (Nat.toDigits 10 n).length < 2
  · simp only [if_pos short, List.length_cons]
    exact ⟨List.cons_ne_nil _ _, by omega⟩
  · simp only [if_neg short]
    exact ⟨some, by omega⟩

theorem whole_append {w more : List Char} {c : Char} {rest : List Char} (same : w = c :: rest) (other : c ≠ '0')
    (first : ∀ d ∈ w, isDigit d = true) (last : ∀ d ∈ more, isDigit d = true) : Whole (w ++ more) := by
  rw [same] at first ⊢
  refine .digits other fun d member => ?_
  have within : d ∈ (c :: rest) ++ more := member
  exact (List.mem_append.mp within).elim (first d) (last d)

theorem zeros_digits (k : ℕ) : ∀ c ∈ List.replicate k '0', isDigit c = true := by
  intro c member
  rw [List.eq_of_mem_replicate member]
  rfl

/-- The layouts of a decimal, by where its point stands. -/
inductive Laid (d : Digits) : Numeral → Prop where
  | before (high : d.point ≤ 0) :
    Laid d ⟨['0'], List.replicate (-d.point).toNat '0' ++ Nat.toDigits 10 d.digits, none⟩
  | behind (low : numeralLength d.digits ≤ d.point) :
    Laid d ⟨Nat.toDigits 10 d.digits ++ List.replicate (d.point - numeralLength d.digits).toNat '0', ['0'], none⟩
  | within (low : 0 < d.point) (high : d.point < numeralLength d.digits) :
    Laid d ⟨(Nat.toDigits 10 d.digits).take d.point.toNat, (Nat.toDigits 10 d.digits).drop d.point.toNat, none⟩
  | scientific :
    Laid d ⟨(Nat.toDigits 10 d.digits).take 1, (Nat.toDigits 10 d.digits).drop 1,
      some (decide (d.point - 1 < 0), places (d.point - 1).natAbs)⟩

theorem layout_laid (d : Digits) : Laid d (layout d) := by
  unfold layout
  by_cases plain : -4 < d.point ∧ d.point ≤ 16
  · simp only [if_pos plain]
    by_cases below : d.point ≤ 0
    · simp only [if_pos below]
      exact .before below
    · simp only [if_neg below]
      by_cases whole : ((Nat.toDigits 10 d.digits).length : ℤ) ≤ d.point
      · simp only [if_pos whole]
        exact .behind whole
      · simp only [if_neg whole]
        exact .within (not_le.mp below) (not_le.mp whole)
  · simp only [if_neg plain]
    exact .scientific

theorem layout_valid {d : Digits} (positive : 0 < d.digits) (near : d.point.natAbs < 999) : (layout d).Valid := by
  obtain ⟨c, rest, same, other⟩ := numeral_leading positive
  have each := numeral_digits d.digits
  have dropped (k : ℕ) : ∀ c ∈ (Nat.toDigits 10 d.digits).drop k, isDigit c = true :=
    fun c member => each c (List.mem_of_mem_drop member)
  -- the digits up to a place begin with the leading one
  have front {k : ℕ} (some : 0 < k) : Whole ((Nat.toDigits 10 d.digits).take k) := by
    have taken : (Nat.toDigits 10 d.digits).take k = c :: rest.take (k - 1) := by
      rw [same, List.take_cons some]
    have whole := whole_append taken other (fun c member => each c (List.mem_of_mem_take member)) (zeros_digits 0)
    rwa [List.replicate_zero, List.append_nil] at whole
  have laid := layout_laid d
  generalize layout d = n at laid
  cases laid with
  | before _ =>
    refine ⟨.zero, fun c member => ?_, by simp, .inl (by simp [same])⟩
    exact (List.mem_append.mp member).elim (zeros_digits _ c) (each c)
  | behind _ => exact ⟨whole_append same other each (zeros_digits _), zeros_digits 1, by simp, .inl (by simp)⟩
  | within low high =>
    refine ⟨front (by omega), dropped _, by simp, .inl ?_⟩
    rw [Ne, List.drop_eq_nil_iff]
    change ¬ numeralLength d.digits ≤ d.point.toNat
    omega
  | scientific =>
    have few := places_few (n := (d.point - 1).natAbs) (by omega)
    refine ⟨front Nat.one_pos, dropped 1, fun e known => ?_, .inr rfl⟩
    cases known
    exact ⟨few.1, few.2, places_digits _⟩

/-- The numeral of a decimal denotes it. -/
theorem layout_amount (d : Digits) :
    (ofDigits ((layout d).whole ++ (layout d).fraction) : ℚ) * 10 ^ ((layout d).power - (layout d).fraction.length) =
      amount d := by
  have length : (Nat.toDigits 10 d.digits).length = numeralLength d.digits := rfl
  have zero : ofDigits ['0'] = 0 := rfl
  have some := length_pos d.digits
  unfold amount
  have laid := layout_laid d
  generalize layout d = n at laid
  cases laid with
  | before high =>
    simp only [Numeral.power, List.length_append, List.length_replicate, length]
    rw [ofDigits_append, ofDigits_append, ofDigits_zeros, ofDigits_numeral, zero, zero_mul, zero_mul, zero_add,
      zero_add]
    congr 2
    omega
  | behind low =>
    have zeros : (10 : ℚ) ^ (d.point - numeralLength d.digits) = 10 ^ (d.point - numeralLength d.digits).toNat := by
      rw [← zpow_natCast, Int.toNat_of_nonneg (sub_nonneg.mpr low)]
    simp only [Numeral.power]
    rw [zeros, ofDigits_append, ofDigits_append, ofDigits_zeros, ofDigits_numeral, zero, List.length_replicate,
      List.length_singleton, add_zero, add_zero]
    push_cast
    rw [zpow_neg_one, mul_inv_cancel_right₀ (by norm_num)]
  | within low high =>
    simp only [Numeral.power, List.take_append_drop, ofDigits_numeral, List.length_drop, length]
    congr 2
    omega
  | scientific =>
    simp only [Numeral.power, List.take_append_drop, ofDigits_numeral, ofDigits_places, List.length_drop, length,
      decide_eq_true_eq]
    congr 2
    omega

/-! ## Numbers -/

theorem amount_bounds {d : Digits} (positive : 0 < d.digits) :
    (10 : ℚ) ^ (d.point - 1) ≤ amount d ∧ amount d < 10 ^ d.point := by
  obtain ⟨low, high⟩ := length_bounds positive
  have power : (0 : ℚ) < 10 ^ (d.point - numeralLength d.digits) := zpow_pos (by norm_num) _
  unfold amount
  constructor
  · calc (10 : ℚ) ^ (d.point - 1)
        = 10 ^ (numeralLength d.digits - 1 : ℤ) * 10 ^ (d.point - numeralLength d.digits) :=
          (zpow_join (by norm_num) (by omega)).symm
      _ ≤ d.digits * 10 ^ (d.point - numeralLength d.digits) := by gcongr
  · calc (d.digits : ℚ) * 10 ^ (d.point - numeralLength d.digits)
        < 10 ^ (numeralLength d.digits : ℤ) * 10 ^ (d.point - numeralLength d.digits) := by
          gcongr
          linarith
      _ = 10 ^ d.point := zpow_join (by norm_num) (by omega)

variable {m : ℕ} {q : ℤ} {powerOfTwo : Bool}

/-- No point is far from the digits of a number. -/
theorem point_few {d : Digits} (written : Significand m q powerOfTwo) (found : Found d m q powerOfTwo) :
    d.point.natAbs < 999 := by
  obtain ⟨low, high⟩ := amount_bounds found.positive
  obtain ⟨least, most⟩ := near_bounds written found.near
  have above := zpow_apart (by norm_num) least high
  have below := zpow_apart (by norm_num) low most
  omega

/-- The digits of a number are read as that number. -/
theorem digits_float {d : Digits} (negative : Bool) (written : Significand m q powerOfTwo)
    (found : Found d m q powerOfTwo) :
    floatOfDigits negative (layout d).whole (layout d).fraction (layout d).power =
      signedFloat negative (magnitude m q) := by
  have valid := layout_valid found.positive (point_few written found)
  have digits : ∀ c ∈ (layout d).whole ++ (layout d).fraction, isDigit c = true := by
    intro c member
    exact (List.mem_append.mp member).elim (whole_digits valid.whole c) (valid.fraction c)
  have near := found.near
  rw [← layout_amount] at near
  unfold floatOfDigits
  exact congrArg (signedFloat negative) (scaledBits_eq (ofDigits_lt _ digits) written near)

theorem digit_ne {c d : Char} (digit : isDigit c = true) (other : isDigit d = false) : d ≠ c := by
  rintro rfl
  exact Bool.false_ne_true (other.symm.trans digit)

/-- No keyword begins with a digit, and none with a sign and a digit. -/
theorem keyword_digit {c : Char} (digit : isDigit c = true) (rest : List Char) : keyword? (c :: rest) = none := by
  have n := digit_ne digit (d := 'n') rfl
  have t := digit_ne digit (d := 't') rfl
  have f := digit_ne digit (d := 'f') rfl
  have notNumber := digit_ne digit (d := 'N') rfl
  have infinity := digit_ne digit (d := 'I') rfl
  have sign := digit_ne digit (d := '-') rfl
  simp [keyword?, List.isPrefixOf, n, t, f, notNumber, infinity, sign]

theorem keyword_negative {c : Char} (digit : isDigit c = true) (rest : List Char) :
    keyword? ('-' :: c :: rest) = none := by
  have infinity := digit_ne digit (d := 'I') rfl
  simp [keyword?, List.isPrefixOf, infinity]

/-- The sign of a number. -/
def sign (negative : Bool) : List Char := if negative then ['-'] else []

/-- A number is read behind its sign, if it has one. -/
theorem readAtom_number {negative : Bool} {c : Char} {chars rest : List Char} {index : ℕ} (digit : isDigit c = true)
    (front : chars.head? = some c) :
    readAtom ⟨sign negative ++ (chars ++ rest), index⟩ =
      readNumber negative ⟨sign negative ++ (chars ++ rest), index⟩
        ⟨chars ++ rest, index + (sign negative).length⟩ := by
  cases chars with
  | nil => cases front
  | cons d others =>
    cases front
    cases negative
    · simp only [readAtom, sign, Bool.false_eq_true, if_false, List.nil_append, List.cons_append, keyword_digit digit]
      split
      · exact absurd (List.cons.inj ‹_›).1 (digit_ne digit (d := '-') rfl).symm
      · rfl
    · simp only [readAtom, sign, if_true, List.cons_append, List.nil_append, keyword_negative digit]
      rfl

theorem whole_front {w : List Char} (whole : Whole w) : ∃ c, w.head? = some c ∧ isDigit c = true := by
  cases whole with
  | zero => exact ⟨'0', rfl, rfl⟩
  | digits _ each => exact ⟨_, rfl, each _ List.mem_cons_self⟩

theorem intText (n : ℤ) : (toString n).toList = sign (decide (n < 0)) ++ Nat.toDigits 10 n.natAbs := by
  rw [Int.toString_eq_repr, Int.repr_eq_if]
  by_cases positive : 0 ≤ n
  · rw [if_pos positive, Nat.toList_repr, show n.toNat = n.natAbs by omega]
    simp [sign, positive]
  · rw [if_neg positive, String.toList_append, Nat.toList_repr, show (-n).toNat = n.natAbs by omega]
    simp [sign, not_le.mp positive]

/-- A character with which a number may begin. -/
def Begins (c : Char) : Prop := isDigit c = true ∨ c ∈ ['-', 'N', 'I']

theorem signed_front {negative : Bool} {chars : List Char} {c : Char} (front : chars.head? = some c)
    (digit : isDigit c = true) : ∃ d rest, sign negative ++ chars = d :: rest ∧ Begins d := by
  cases chars with
  | nil => cases front
  | cons d rest =>
    cases front
    cases negative
    · exact ⟨c, rest, rfl, .inl digit⟩
    · exact ⟨'-', c :: rest, rfl, .inr (by decide)⟩

theorem int_front {n : ℤ} {text : String} (written : intNumeral n = .ok text) :
    ∃ c rest, text.toList = c :: rest ∧ Begins c := by
  unfold intNumeral at written
  split at written
  · cases written
    obtain ⟨c, front, digit⟩ := whole_front (numeral_whole n.natAbs)
    rw [intText]
    exact signed_front front digit
  · cases written

/-- A whole number that is written is read again. -/
theorem int_read {n : ℤ} {text : String} {rest : List Char} {index : ℕ} (written : intNumeral n = .ok text)
    (apart : Apart rest) : Gives (readAtom ⟨text.toList ++ rest, index⟩) (.int n) rest := by
  unfold intNumeral at written
  split at written
  · rename_i few
    cases written
    rw [Nat.pow_eq] at few
    have whole := numeral_whole n.natAbs
    have length := (Nat.length_toDigits_le_iff (by decide) (by decide)).mpr few
    obtain ⟨c, front, digit⟩ := whole_front whole
    have value : (if decide (n < 0) = true then -(ofDigits (Nat.toDigits 10 n.natAbs) : ℤ)
        else ofDigits (Nat.toDigits 10 n.natAbs)) = n := by
      rw [ofDigits_numeral]
      simp only [decide_eq_true_eq]
      omega
    rw [intText, List.append_assoc, readAtom_number digit front]
    have read := readNumber_whole (decide (n < 0))
      ⟨sign (decide (n < 0)) ++ (Nat.toDigits 10 n.natAbs ++ rest), index⟩
      (index + (sign (decide (n < 0))).length) whole length apart
    rwa [value] at read
  · cases written

theorem chars_front {n : Numeral} (valid : n.Valid) : ∃ c, n.chars.head? = some c ∧ isDigit c = true := by
  obtain ⟨c, front, digit⟩ := whole_front valid.whole
  refine ⟨c, ?_, digit⟩
  rw [Numeral.chars, List.head?_append, front]
  rfl

/-- A numeral behind a sign is read as the binary number it denotes. -/
theorem numeral_read {n : Numeral} (negative : Bool) {rest : List Char} (index : ℕ) (valid : n.Valid)
    (apart : Apart rest) : Gives (readAtom ⟨sign negative ++ (n.chars ++ rest), index⟩)
      (.float (floatOfDigits negative n.whole n.fraction n.power)) rest := by
  obtain ⟨c, front, digit⟩ := chars_front valid
  rw [readAtom_number digit front]
  exact readNumber_numeral valid apart

theorem finite_text (negative : Bool) (m : ℕ) (q : ℤ) (powerOfTwo : Bool) :
    (Parts.text (.finite negative m q powerOfTwo)).toList =
      sign negative ++ (layout (shortest m q powerOfTwo)).chars := by
  rw [Parts.text, String.toList_append, layout_text]
  cases negative <;> rfl

theorem float_front (x : Float) : ∃ c rest, (floatNumeral x).toList = c :: rest ∧ Begins c := by
  have denotes := parts_denote x
  unfold floatNumeral floatText
  generalize Parts.of x = parts at denotes
  cases denotes with
  | nan _ => exact ⟨'N', _, rfl, .inr (by decide)⟩
  | @infinity negative _ =>
    cases negative
    · exact ⟨'I', _, rfl, .inr (by decide)⟩
    · exact ⟨'-', _, rfl, .inr (by decide)⟩
  | @zero negative _ =>
    cases negative
    · exact ⟨'0', _, rfl, .inl rfl⟩
    · exact ⟨'-', _, rfl, .inr (by decide)⟩
  | @finite m q powerOfTwo negative written _ =>
    have found := shortest_found written
    obtain ⟨c, front, digit⟩ := chars_front (layout_valid found.positive (point_few written found))
    simp only [finite_text]
    exact signed_front front digit

/-- A binary number is read again from what is written for it. -/
theorem float_read {rest : List Char} (x : Float) (index : ℕ) (apart : Apart rest) :
    Gives (readAtom ⟨(floatNumeral x).toList ++ rest, index⟩) (.float x) rest := by
  have denotes := parts_denote x
  unfold floatNumeral floatText
  generalize Parts.of x = parts at denotes
  cases denotes with
  | nan is =>
    rw [is]
    exact ⟨_, rfl⟩
  | @infinity negative is =>
    rw [is]
    cases negative
    · have value : (1.0 / 0.0 : Float) = signedFloat false infinityBits := by decide +kernel
      rw [← value]
      exact ⟨_, rfl⟩
    · have value : (-1.0 / 0.0 : Float) = signedFloat true infinityBits := by decide +kernel
      rw [← value]
      exact ⟨_, rfl⟩
  | @zero negative is =>
    have valid : Numeral.Valid ⟨['0'], ['0'], none⟩ := ⟨.zero, zeros_digits 1, nofun, .inl (by simp)⟩
    have read := numeral_read negative index valid apart
    have value : floatOfDigits negative ['0'] ['0'] 0 = signedFloat negative 0 := rfl
    rw [is, ← value]
    cases negative <;> exact read
  | @finite m q powerOfTwo negative written is =>
    have found := shortest_found written
    have valid := layout_valid found.positive (point_few written found)
    have read := numeral_read negative index valid apart
    rw [digits_float negative written found, ← is] at read
    simp only [finite_text, List.append_assoc]
    exact read

end MethodLint.JsonNumbers
