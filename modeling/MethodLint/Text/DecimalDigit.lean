import MethodLint.Text.CodePointSet

/-!
Decimal digits of every script of Unicode 14. Each interval holds whole decades, so the value of a
digit is its distance from the start of the interval, modulo ten.
-/
namespace MethodLint.Text

/-- The decimal digits; every interval starts with a zero. -/
def decimalDigits : CodePointSet := ⟨#[
  (48, 57), (1632, 1641), (1776, 1785), (1984, 1993), (2406, 2415), (2534, 2543), (2662, 2671),
  (2790, 2799), (2918, 2927), (3046, 3055), (3174, 3183), (3302, 3311), (3430, 3439), (3558, 3567),
  (3664, 3673), (3792, 3801), (3872, 3881), (4160, 4169), (4240, 4249), (6112, 6121), (6160, 6169),
  (6470, 6479), (6608, 6617), (6784, 6793), (6800, 6809), (6992, 7001), (7088, 7097), (7232, 7241),
  (7248, 7257), (42528, 42537), (43216, 43225), (43264, 43273), (43472, 43481), (43504, 43513),
  (43600, 43609), (44016, 44025), (65296, 65305), (66720, 66729), (68912, 68921), (69734, 69743),
  (69872, 69881), (69942, 69951), (70096, 70105), (70384, 70393), (70736, 70745), (70864, 70873),
  (71248, 71257), (71360, 71369), (71472, 71481), (71904, 71913), (72016, 72025), (72784, 72793),
  (73040, 73049), (73120, 73129), (92768, 92777), (92864, 92873), (93008, 93017), (120782, 120831),
  (123200, 123209), (123632, 123641), (125264, 125273), (130032, 130041)]⟩

/-- The value of a decimal digit. -/
def digitValue? (c : Char) : Option Nat :=
  (decimalDigits.find? c).map fun interval => (c.toNat - interval.1) % 10

end MethodLint.Text
