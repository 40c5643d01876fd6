import MethodLint.Files

/-! Texts of ASCII in files. Each character is one byte, so a text without carriage returns
is read from its bytes as it is. -/
namespace MethodLint.AsciiTexts

variable {files : Files} {path : FilePath} {text : String}

theorem char_byte {c : Char} (small : c.toNat < 128) :
    ∃ b : UInt8, String.utf8EncodeChar c = [b] ∧ Text.tailOf? b = some (c.toNat, []) := by
  refine ⟨UInt8.ofNat c.toNat, ?_, ?_⟩
  · rw [String.utf8EncodeChar]
    exact if_pos (Nat.le_of_lt_succ small)
  · have value : (UInt8.ofNat c.toNat).toNat = c.toNat := by
      rw [UInt8.toNat_ofNat']
      omega
    rw [Text.tailOf?, value]
    exact if_pos small

theorem length_bytes (chars : List Char) (small : ∀ c ∈ chars, c.toNat < 128) :
    (chars.flatMap String.utf8EncodeChar).length = chars.length := by
  induction chars with
  | nil => rfl
  | cons c chars ih =>
    obtain ⟨here, others⟩ := List.forall_mem_cons.mp small
    obtain ⟨b, byte, _⟩ := char_byte here
    rw [List.flatMap_cons, byte, List.singleton_append, List.length_cons, List.length_cons, ih others]

theorem decode_ascii (chars : List Char) (small : ∀ c ∈ chars, c.toNat < 128) :
    Text.decode (chars.flatMap String.utf8EncodeChar) = .ok (String.ofList chars) := by
  have run (position : Nat) (done : List Char) :
      Text.decodeFrom chars.length done position (chars.flatMap String.utf8EncodeChar) =
        .ok (String.ofList (done.reverse ++ chars)) := by
    induction chars generalizing position done with
    | nil => simp [Text.decodeFrom]
    | cons c chars ih =>
      obtain ⟨here, others⟩ := List.forall_mem_cons.mp small
      obtain ⟨b, byte, tail⟩ := char_byte here
      have later := ih others (position + 1) (c :: done)
      rw [List.reverse_cons, List.append_assoc] at later
      rw [List.flatMap_cons, byte, List.singleton_append, List.length_cons, Text.decodeFrom, tail]
      simp only [Text.takeTail, Char.ofNat_toNat, List.length_nil, Nat.add_zero]
      exact later
  rw [Text.decode, length_bytes chars small]
  exact run 0 []

theorem unifyNewlines_same (chars : List Char) (none : ∀ c ∈ chars, c ≠ '\r') :
    Text.unifyNewlines (String.ofList chars) = String.ofList chars := by
  have run (done : List Char) : Text.unifyNewlinesFrom done chars = done.reverse ++ chars := by
    induction chars generalizing done with
    | nil => simp [Text.unifyNewlinesFrom]
    | cons c chars ih =>
      obtain ⟨other, others⟩ := List.forall_mem_cons.mp none
      rw [Text.unifyNewlinesFrom, ih others, List.reverse_cons, List.append_assoc]
      · rfl
      · exact fun rest same => absurd same other
      · exact fun same => absurd same other
  rw [Text.unifyNewlines, String.toList_ofList, run]
  rfl

/-- The bytes of a text, character by character. -/
theorem bytes_chars (text : String) : text.toUTF8.data.toList = text.toList.flatMap String.utf8EncodeChar := by
  rw [String.toUTF8_eq_toByteArray, ← String.utf8Encode_toList, List.utf8Encode]
  simp

/-- A file with the bytes of such a text has that text. -/
theorem text_ascii (small : ∀ c ∈ text.toList, c.toNat < 128) (none : ∀ c ∈ text.toList, c ≠ '\r')
    (bytes : files.bytes path = .ok text.toUTF8.data.toList) : files.text path = .ok text := by
  rw [bytes_chars] at bytes
  simp only [Files.text, bytes, bind, Except.bind, decode_ascii _ small, unifyNewlines_same _ none]
  rw [String.ofList_toList]
  rfl

end MethodLint.AsciiTexts
