import MethodLint.Proofs.JsonNumbers

/-! Texts in documents. Every character is written in a way of its own, from which
nothing but that character is read; so a text between quotes is read again, whatever
it holds. -/
namespace MethodLint.JsonTexts
open Json JsonNumbers

/-! ## Code units -/

theorem hexValue_digit {d : Nat} (small : d < 16) : Text.hexValue? d.digitChar = some d := by
  have all : ∀ d < 16, Text.hexValue? (Nat.digitChar d) = some d := by decide
  exact all d small

/-- The numeral of a code unit has four digits. -/
theorem hexNumeral_four {n : Nat} (small : n < 65536) :
    (Text.hexNumeral 4 n).toList =
      [(n / 4096).digitChar, (n / 256 % 16).digitChar, (n / 16 % 16).digitChar, (n % 16).digitChar] := by
  have longer : ∀ {n}, 16 ≤ n → Nat.toDigits 16 n = Nat.toDigits 16 (n / 16) ++ [(n % 16).digitChar] :=
    fun many => Nat.toDigits_of_base_le (by decide) many
  have single : ∀ {n}, n < 16 → Nat.toDigits 16 n = [n.digitChar] := Nat.toDigits_of_lt_base
  have padding : (0).digitChar = '0' := rfl
  simp only [Text.hexNumeral, String.toList_ofList]
  by_cases one : n < 16
  · rw [single one, show n / 4096 = 0 by omega, show n / 256 % 16 = 0 by omega, show n / 16 % 16 = 0 by omega,
      show n % 16 = n by omega, padding]
    rfl
  · rw [longer (by omega)]
    by_cases two : n < 256
    · rw [single (by omega), show n / 4096 = 0 by omega, show n / 256 % 16 = 0 by omega,
        show n / 16 % 16 = n / 16 by omega, padding]
      rfl
    · rw [longer (n := n / 16) (by omega), Nat.div_div_eq_div_mul]
      by_cases three : n < 4096
      · rw [single (by omega), show n / 4096 = 0 by omega, show n / 256 % 16 = n / (16 * 16) by omega, padding]
        rfl
      · rw [longer (n := n / (16 * 16)) (by omega), Nat.div_div_eq_div_mul, single (by omega)]
        rfl

theorem codeUnit_read {n : Nat} (small : n < 65536) {rest : List Char} (more : rest ≠ []) :
    codeUnit? ((Text.hexNumeral 4 n).toList ++ rest) = some (n, rest) := by
  cases rest with
  | nil => exact absurd rfl more
  | cons next rest =>
    rw [hexNumeral_four small]
    simp only [List.cons_append, List.nil_append, codeUnit?, hexValue_digit (show n / 4096 < 16 by omega),
      hexValue_digit (show n / 256 % 16 < 16 by omega), hexValue_digit (show n / 16 % 16 < 16 by omega),
      hexValue_digit (show n % 16 < 16 by omega)]
    simp only [bind, Option.bind, pure]
    congr 2
    omega

/-! ## Characters -/

variable {start steps index : Nat} {done rest : List Char}

theorem unit_chars (n : Nat) : (unitEscape n).toList = '\\' :: 'u' :: (Text.hexNumeral 4 n).toList := by
  rw [unitEscape, String.toList_append]
  rfl

/-- A letter behind a backslash stands for one character. -/
theorem letter_read {letter c : Char} (stands : escape? letter = some c) (other : letter ≠ 'u') :
    readString start (steps + 1) done ⟨'\\' :: letter :: rest, index⟩ =
      readString start steps (c :: done) ⟨rest, index + 2⟩ := by
  rw [readString.eq_def]
  simp only [stands]

theorem plain_read {c : Char} (quote : c ≠ '"') (backslash : c ≠ '\\') (printed : 32 ≤ c.toNat) :
    readString start (steps + 1) done ⟨c :: rest, index⟩ = readString start steps (c :: done) ⟨rest, index + 1⟩ := by
  rw [readString.eq_def]
  have visible : ¬ c.toNat < 32 := not_lt.mpr printed
  split <;> simp_all

theorem unit_read {n : Nat} (small : n < 65536) (single : n < 0xD800 ∨ 0xDFFF < n) (more : rest ≠ []) :
    readString start (steps + 1) done ⟨(unitEscape n).toList ++ rest, index⟩ =
      readString start steps (Char.ofNat n :: done) ⟨rest, index + 6⟩ := by
  rw [unit_chars, List.cons_append, List.cons_append, readString.eq_def]
  simp only [codeUnit_read small more]
  rw [if_neg (by omega), if_neg (by omega)]

theorem pair_read {high low : Nat} (first : 0xD800 ≤ high ∧ high ≤ 0xDBFF) (second : 0xDC00 ≤ low ∧ low ≤ 0xDFFF)
    (more : rest ≠ []) :
    readString start (steps + 1) done ⟨(unitEscape high).toList ++ ((unitEscape low).toList ++ rest), index⟩ =
      readString start steps (Char.ofNat (0x10000 + (high - 0xD800) * 0x400 + (low - 0xDC00)) :: done)
        ⟨rest, index + 12⟩ := by
  have half : lowHalf? ((unitEscape low).toList ++ rest) = some (low, rest) := by
    rw [unit_chars, List.cons_append, List.cons_append]
    simp only [lowHalf?, codeUnit_read (show low < 65536 by omega) more]
    simp [bind, second]
  have behind : (unitEscape low).toList ++ rest ≠ [] := by
    rw [unit_chars]
    exact List.cons_ne_nil _ _
  rw [unit_chars high, List.cons_append, List.cons_append, readString.eq_def]
  simp only [codeUnit_read (show high < 65536 by omega) behind, if_pos first, half]

/-- The ways in which a character is written. -/
inductive Written (c : Char) : List Char → Prop where
  | letter (stands : escape? letter = some c) (one : letter ∈ ['"', '\\', 'n', 'r', 't', 'f', 'b']) :
    Written c ['\\', letter]
  | plain (quote : c ≠ '"') (backslash : c ≠ '\\') (printed : 32 ≤ c.toNat ∧ c.toNat ≤ 126) : Written c [c]
  | unit (small : c.toNat < 65536) : Written c (unitEscape c.toNat).toList
  | pair (first : 0xD800 ≤ high ∧ high ≤ 0xDBFF) (second : 0xDC00 ≤ low ∧ low ≤ 0xDFFF)
    (same : 0x10000 + (high - 0xD800) * 0x400 + (low - 0xDC00) = c.toNat) :
    Written c ((unitEscape high).toList ++ (unitEscape low).toList)

theorem char_valid (c : Char) : c.toNat < 0xD800 ∨ 0xDFFF < c.toNat ∧ c.toNat < 0x110000 := c.valid

theorem escaped_written (c : Char) : Written c (escaped c).toList := by
  unfold escaped
  by_cases quote : c = '"'
  · rw [if_pos quote, quote]
    exact .letter rfl (by decide)
  rw [if_neg quote]
  by_cases backslash : c = '\\'
  · rw [if_pos backslash, backslash]
    exact .letter rfl (by decide)
  rw [if_neg backslash]
  by_cases newline : c = '\n'
  · rw [if_pos newline, newline]
    exact .letter rfl (by decide)
  rw [if_neg newline]
  by_cases back : c = '\r'
  · rw [if_pos back, back]
    exact .letter rfl (by decide)
  rw [if_neg back]
  by_cases tab : c = '\t'
  · rw [if_pos tab, tab]
    exact .letter rfl (by decide)
  rw [if_neg tab]
  by_cases page : c.toNat = 12
  · rw [if_pos page, show c = '\x0c' from Char.toNat_inj.mp page]
    exact .letter rfl (by decide)
  rw [if_neg page]
  by_cases step : c.toNat = 8
  · rw [if_pos step, show c = '\x08' from Char.toNat_inj.mp step]
    exact .letter rfl (by decide)
  rw [if_neg step]
  by_cases printed : 32 ≤ c.toNat ∧ c.toNat ≤ 126
  · rw [if_pos printed, Char.toString, String.toList_singleton]
    exact .plain quote backslash printed
  rw [if_neg printed]
  have valid := char_valid c
  by_cases small : c.toNat < 0x10000
  · rw [if_pos small]
    exact .unit small
  · rw [if_neg small, String.toList_append]
    exact .pair (by omega) (by omega) (by omega)

/-- What is written for a character is read as that character. -/
theorem written_read {c : Char} {chars : List Char} (start steps index : Nat) (done : List Char)
    (written : Written c chars) (more : rest ≠ []) :
    ∃ after, readString start (steps + 1) done ⟨chars ++ rest, index⟩ =
      readString start steps (c :: done) ⟨rest, after⟩ := by
  cases written with
  | letter stands one =>
    refine ⟨_, letter_read stands ?_⟩
    rintro rfl
    exact absurd one (by decide)
  | plain quote backslash printed => exact ⟨_, plain_read quote backslash printed.1⟩
  | unit small =>
    have valid := char_valid c
    refine ⟨index + 6, ?_⟩
    rw [unit_read small (by omega) more, Char.ofNat_toNat]
  | pair first second same =>
    refine ⟨index + 12, ?_⟩
    rw [List.append_assoc, pair_read first second more, same, Char.ofNat_toNat]

/-! ## Texts -/

/-- What is written for some characters. -/
def body (chars : List Char) : List Char := chars.flatMap fun c => (escaped c).toList

theorem foldl_body (chars : List Char) (out : String) :
    (chars.foldl (fun out c => out ++ escaped c) out).toList = out.toList ++ body chars := by
  induction chars generalizing out with
  | nil => simp [body]
  | cons c chars ih => simp [ih, body, String.toList_append]

theorem quoted_chars (s : String) : (quoted s).toList = '"' :: (body s.toList ++ ['"']) := by
  rw [quoted, String.toList_append, foldl_body]
  rfl

theorem written_some {c : Char} {chars : List Char} (written : Written c chars) : 0 < chars.length := by
  cases written with
  | letter _ _ => exact Nat.succ_pos _
  | plain _ _ _ => exact Nat.succ_pos _
  | unit _ =>
    rw [unit_chars]
    exact Nat.succ_pos _
  | pair _ _ _ =>
    rw [unit_chars]
    exact Nat.succ_pos _

theorem length_body (chars : List Char) : chars.length ≤ (body chars).length := by
  induction chars with
  | nil => exact Nat.zero_le _
  | cons c chars ih =>
    have some := written_some (escaped_written c)
    rw [body, List.flatMap_cons, List.length_append, List.length_cons]
    unfold body at ih
    omega

theorem body_read (start index : Nat) (done chars : List Char) (enough : chars.length < steps) :
    Gives (readString start steps done ⟨body chars ++ '"' :: rest, index⟩)
      (String.ofList (done.reverse ++ chars)) rest := by
  induction chars generalizing steps done index with
  | nil =>
    cases steps with
    | zero => exact absurd enough (Nat.lt_irrefl 0)
    | succ steps => exact ⟨index + 1, by simp [body, readString]⟩
  | cons c chars ih =>
    cases steps with
    | zero => exact absurd enough (Nat.not_lt_zero _)
    | succ steps =>
      have more : body chars ++ '"' :: rest ≠ [] := by simp
      obtain ⟨after, step⟩ := written_read start steps index done (escaped_written c) more
      have read := ih after (c :: done) (Nat.lt_of_succ_lt_succ enough)
      rw [body, List.flatMap_cons, List.append_assoc]
      rw [body] at step read
      rw [step]
      rwa [List.reverse_cons, List.append_assoc] at read

/-- What is written between quotes for a text is read as that text. -/
theorem string_read (s : String) (rest : List Char) (index : Nat) :
    Gives (Cursor.string ⟨body s.toList ++ '"' :: rest, index⟩) s rest := by
  have enough := length_body s.toList
  have steps : s.toList.length < (body s.toList ++ '"' :: rest).length + 1 := by
    rw [List.length_append, List.length_cons]
    omega
  obtain ⟨after, read⟩ := body_read (index - 1) index [] s.toList steps
  rw [List.reverse_nil, List.nil_append, String.ofList_toList] at read
  exact ⟨after, read⟩

theorem text_read (s : String) : Gives (readText ⟨(quoted s).toList ++ rest, index⟩) (.str s) rest := by
  obtain ⟨after, read⟩ := string_read s rest (index + 1)
  refine ⟨after, ?_⟩
  rw [quoted_chars, List.cons_append, List.append_assoc]
  simp only [readText, Cursor.drop, List.drop_succ_cons, List.drop_zero, List.cons_append, List.nil_append]
  rw [read]

/-! ## Printed characters -/

/-- A visible character of ASCII, or a blank. -/
def Printed (c : Char) : Prop := 32 ≤ c.toNat ∧ c.toNat ≤ 126

instance (c : Char) : Decidable (Printed c) := inferInstanceAs (Decidable (_ ∧ _))

/-- Characters that are told one by one. -/
theorem printed_all {chars : List Char} (all : (chars.all fun c => decide (Printed c)) = true) :
    ∀ c ∈ chars, Printed c :=
  fun c member => of_decide_eq_true (List.all_eq_true.mp all c member)

theorem unit_printed (n : Nat) (small : n < 65536) : ∀ c ∈ (unitEscape n).toList, Printed c := by
  have digits : ∀ d < 16, Printed (Nat.digitChar d) := by decide
  intro c member
  rw [unit_chars, hexNumeral_four small] at member
  simp only [List.mem_cons, List.not_mem_nil, or_false] at member
  rcases member with rfl | rfl | rfl | rfl | rfl | rfl
  · decide
  · decide
  all_goals exact digits _ (by omega)

theorem written_printed {c : Char} {chars : List Char} (written : Written c chars) : ∀ d ∈ chars, Printed d := by
  have letters : ∀ d ∈ ['"', '\\', 'n', 'r', 't', 'f', 'b'], Printed d := printed_all (by decide)
  intro d member
  cases written with
  | letter _ one =>
    rcases List.mem_cons.mp member with rfl | last
    · exact letters '\\' (by decide)
    · exact letters d (List.mem_singleton.mp last ▸ one)
  | plain _ _ printed => exact List.mem_singleton.mp member ▸ printed
  | unit small => exact unit_printed _ small d member
  | pair first second _ =>
    rcases List.mem_append.mp member with high | low
    · exact unit_printed _ (by omega) d high
    · exact unit_printed _ (by omega) d low

theorem quoted_printed (s : String) : ∀ c ∈ (quoted s).toList, Printed c := by
  have quote : Printed '"' := by decide
  intro c member
  rw [quoted_chars, List.mem_cons, List.mem_append, List.mem_singleton] at member
  rcases member with rfl | inside | rfl
  · exact quote
  · obtain ⟨d, _, among⟩ := List.mem_flatMap.mp inside
    exact written_printed (escaped_written d) c among
  · exact quote

end MethodLint.JsonTexts
