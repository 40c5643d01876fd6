/-!
Binary data as text of sixty-four characters. Each character adds six bits, and a byte is written
whenever eight are there. Characters outside the alphabet are skipped; equals signs that fill up a
group of four end the data, and without them the data must end with a whole group.
-/
namespace MethodLint.Text

/-- The six bits of a character. -/
def base64Value? (c : Char) : Option Nat :=
  if 'A' ≤ c ∧ c ≤ 'Z' then some (c.toNat - 'A'.toNat)
  else if 'a' ≤ c ∧ c ≤ 'z' then some (c.toNat - 'a'.toNat + 26)
  else if '0' ≤ c ∧ c ≤ '9' then some (c.toNat - '0'.toNat + 52)
  else if c = '+' then some 62
  else if c = '/' then some 63
  else none

/-- The bytes behind a position in a group of four. `bits` holds what is left of the last character,
and `fills` counts the equals signs since. -/
def base64From (position bits fills : Nat) : List Char → Option (List UInt8)
  | [] => if position = 0 then some [] else none
  | c :: rest =>
    if c = '=' then
      if 2 ≤ position then
        if 4 ≤ position + fills + 1 then some [] else base64From position bits (fills + 1) rest
      else base64From position bits fills rest
    else match base64Value? c with
      | none => base64From position bits fills rest
      | some n =>
        match position with
        | 0 => base64From 1 n 0 rest
        | 1 => (base64From 2 (n % 16) 0 rest).map (UInt8.ofNat (bits * 4 + n / 16) :: ·)
        | 2 => (base64From 3 (n % 4) 0 rest).map (UInt8.ofNat (bits * 16 + n / 4) :: ·)
        | _ => (base64From 0 0 0 rest).map (UInt8.ofNat (bits * 64 + n) :: ·)

/-- The bytes of a text. -/
def base64Bytes (text : List Char) : Option (List UInt8) := base64From 0 0 0 text

end MethodLint.Text
