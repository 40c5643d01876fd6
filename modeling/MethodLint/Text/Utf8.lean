import MethodLint.Fault

/-!
Bytes as text. The code points below 0x80 take one byte, the others two to four: the first tells how
many, and each further one adds six bits. No code point is written longer than it must be, and the
halves of pairs have no bytes. The first byte that fits no code point is reported, together with
those before it that the same code point would have taken.
-/
namespace MethodLint.Text

/-- The bytes from a first to a last one. -/
structure ByteRange where
  first : UInt8
  last : UInt8

/-- A byte of the range. -/
def ByteRange.contains (range : ByteRange) (b : UInt8) : Bool := range.first ≤ b && b ≤ range.last

/-- Any further byte of a code point. -/
def anyTail : ByteRange := ⟨0x80, 0xBF⟩

/-- What must follow a first byte, and the bits that it holds itself. -/
def tailOf? (b : UInt8) : Option (Nat × List ByteRange) :=
  let n := b.toNat
  if n < 0x80 then some (n, [])
  else if n < 0xC2 then none
  else if n < 0xE0 then some (n - 0xC0, [anyTail])
  else if n = 0xE0 then some (0, [⟨0xA0, 0xBF⟩, anyTail])
  else if n = 0xED then some (0xD, [⟨0x80, 0x9F⟩, anyTail])
  else if n < 0xF0 then some (n - 0xE0, [anyTail, anyTail])
  else if n = 0xF0 then some (0, [⟨0x90, 0xBF⟩, anyTail, anyTail])
  else if n < 0xF4 then some (n - 0xF0, [anyTail, anyTail, anyTail])
  else if n = 0xF4 then some (4, [⟨0x80, 0x8F⟩, anyTail, anyTail])
  else none

/-- The code point whose bits so far are `bits`, or how many of the further bytes fit and what is
wrong with the next one. -/
def takeTail (bits : Nat) (fitting : Nat) : List ByteRange → List UInt8 →
    Except (Nat × ByteDefect) (Nat × List UInt8)
  | [], rest => .ok (bits, rest)
  | _ :: _, [] => .error (fitting, .truncated)
  | range :: ranges, b :: rest =>
    if range.contains b then takeTail (bits * 64 + (b.toNat - 0x80)) (fitting + 1) ranges rest
    else .error (fitting, .continuation)

/-- The text of some bytes. What was read is held backwards. -/
def decodeFrom : (steps : Nat) → (done : List Char) → (position : Nat) → List UInt8 →
    Except Fault String
  | 0, done, _, _ => .ok (String.ofList done.reverse)
  | _, done, _, [] => .ok (String.ofList done.reverse)
  | steps + 1, done, position, b :: rest =>
    match tailOf? b with
    | none => .error (.undecodable b.toNat position position .start)
    | some (bits, ranges) =>
      match takeTail bits 0 ranges rest with
      | .ok (code, rest) =>
        decodeFrom steps (Char.ofNat code :: done) (position + 1 + ranges.length) rest
      | .error (fitting, defect) =>
        .error (.undecodable b.toNat position (position + fitting) defect)

/-- The text of some bytes. -/
def decode (bytes : List UInt8) : Except Fault String := decodeFrom bytes.length [] 0 bytes

/-- The text of some bytes that come in parts of a given size. Bytes at the end of a part that may
belong to a code point are held back for the next part, and positions count from the first byte that
was held back. -/
def decodeParts (size : Nat) : (steps : Nat) → (held : List UInt8) → List UInt8 →
    Except Fault String
  | 0, held, _ => decode held
  | steps + 1, held, bytes =>
    if bytes.isEmpty then decode held
    else
      let part := held ++ bytes.take size
      match decode part with
      | .ok text => do return text ++ (← decodeParts size steps [] (bytes.drop size))
      | .error (.undecodable byte first last .truncated) =>
        match decode (part.take first) with
        | .ok text => do return text ++ (← decodeParts size steps (part.drop first) (bytes.drop size))
        | .error _ => .error (.undecodable byte first last .truncated)
      | .error e => .error e

/-- The size of the parts in which a document is read. -/
def partSize : Nat := 8192

/-- The text of some bytes that are read part by part. -/
def decodeInParts (bytes : List UInt8) : Except Fault String :=
  decodeParts partSize (bytes.length / partSize + 1) [] bytes

end MethodLint.Text
