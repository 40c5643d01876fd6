import MethodLint.Proofs.JsonTexts
import MethodLint.Proofs.Outcomes

/-! Documents written. A value is written exactly if the format has it, in characters of
ASCII, the parts of a collection on lines of their own. -/
namespace MethodLint.JsonWriting
open Json JsonNumbers JsonTexts

/-! ## What the format has -/

/-- A key that has a name: a text, or a number, a truth value or null. -/
def hasName : Value → Bool
  | .str _ | .float _ | .bool _ | .null => true
  | .int n => decide (n.natAbs < Nat.pow 10 numeralLimit)
  | _ => false

mutual

/-- A value that can be written. -/
def isWritable : Value → Bool
  | .null | .bool _ | .float _ | .str _ => true
  | .int n => decide (n.natAbs < Nat.pow 10 numeralLimit)
  | .list items | .tuple items => areWritable items
  | .map entries => entriesAreWritable entries
  | .bytes _ | .date _ | .moment _ | .set _ => false

/-- Values that can be written. -/
def areWritable : List Value → Bool
  | [] => true
  | item :: rest => isWritable item && areWritable rest

/-- Entries that can be written. -/
def entriesAreWritable : List (Value × Value) → Bool
  | [] => true
  | (key, value) :: rest => hasName key && isWritable value && entriesAreWritable rest

end

/-- A fault of a value that cannot be written. -/
def Unwritable (e : Fault) : Prop :=
  e = .numberTooLong ∨ (∃ name, e = .type (.serialization name)) ∨ ∃ name, e = .type (.serializedKey name)

/-- An answer exactly if a condition holds, and the fault of a value that cannot be
written if it does not. -/
inductive Settles {α : Type} : Bool → Except Fault α → Prop where
  | ok (a : α) : Settles true (.ok a)
  | error (unwritable : Unwritable e) : Settles false (.error e)

section
variable {α β : Type} {first second : Bool} {x : Except Fault α} {f : α → Except Fault β}

theorem settles_bind (one : Settles first x) (other : ∀ a, Settles second (f a)) :
    Settles (first && second) (x >>= f) := by
  cases one with
  | ok a => exact other a
  | error unwritable => exact .error unwritable

theorem settles_map (g : α → β) (one : Settles first x) : Settles first (x >>= fun a => pure (g a)) := by
  have both := settles_bind one fun a => Settles.ok (g a)
  rwa [Bool.and_true] at both

end

theorem int_settles (n : Int) : Settles (decide (n.natAbs < Nat.pow 10 numeralLimit)) (intNumeral n) := by
  unfold intNumeral
  by_cases few : n.natAbs < Nat.pow 10 numeralLimit
  · rw [if_pos few, decide_eq_true few]
    exact .ok _
  · rw [if_neg few, decide_eq_false few]
    exact .error (.inl rfl)

theorem key_settles (key : Value) : Settles (hasName key) (keyText key) := by
  cases key with
  | str s => exact .ok s
  | float x => exact .ok _
  | bool b => exact .ok _
  | null => exact .ok _
  | int n => exact int_settles n
  | _ => exact .error (.inr (.inr ⟨_, rfl⟩))

mutual

/-- A value is written exactly if the format has it. -/
theorem value_settles (level : Nat) (v : Value) : Settles (isWritable v) (writeAt false level v) := by
  cases v with
  | null => exact .ok _
  | bool b => exact .ok _
  | float x => exact .ok _
  | str s => exact .ok _
  | int n => exact int_settles n
  | list items | tuple items =>
    rw [isWritable, writeAt]
    exact settles_map _ (items_settle (level + 1) items)
  | map entries =>
    rw [isWritable, writeAt]
    exact settles_map _ (entries_settle (level + 1) entries)
  | _ => exact .error (.inr (.inl ⟨_, rfl⟩))

theorem items_settle (level : Nat) (items : List Value) :
    Settles (areWritable items) (writeItems false level items) := by
  cases items with
  | nil => exact .ok _
  | cons item rest =>
    rw [areWritable, writeItems]
    exact settles_bind (value_settles level item) fun first => settles_map _ (items_settle level rest)

theorem entries_settle (level : Nat) (entries : List (Value × Value)) :
    Settles (entriesAreWritable entries) (writeEntries false level entries) := by
  cases entries with
  | nil => exact .ok _
  | cons entry rest =>
    obtain ⟨key, value⟩ := entry
    rw [entriesAreWritable, writeEntries, Bool.and_assoc]
    exact settles_bind (key_settles key) fun name =>
      settles_bind (value_settles level value) fun first => settles_map _ (entries_settle level rest)

end

/-! ## Layout -/

/-- A line break and the blanks of a level. -/
def lineChars (level : Nat) : List Char := '\n' :: List.replicate (2 * level) ' '

theorem blanks_chars (n : Nat) (s : String) : (s.pushn ' ' n).toList = s.toList ++ List.replicate n ' ' := by
  rw [String.pushn_eq_repeat_push]
  induction n with
  | zero => simp [Nat.repeat]
  | succ n ih =>
    rw [Nat.repeat, String.toList_push, ih, List.append_assoc, List.replicate_succ']

theorem lineStart_chars (level : Nat) : (lineStart level).toList = lineChars level := by
  rw [lineStart, String.toList_append, blanks_chars]
  rfl

/-- What stands behind a part of a collection: the parts after it, each on a line of its
own, and the end of the collection. -/
def following (level : Nat) : List (List Char) → List Char → List Char
  | [], close => lineChars level ++ close
  | part :: parts, close => ',' :: (lineChars (level + 1) ++ (part ++ following level parts close))

theorem joined_chars (level : Nat) (part : String) (parts : List String) (close : List Char) :
    (("," ++ lineStart (level + 1)).intercalate (part :: parts)).toList ++ (lineChars level ++ close) =
      part.toList ++ following level (parts.map String.toList) close := by
  induction parts generalizing part with
  | nil => rw [String.intercalate_singleton]; rfl
  | cons next parts ih =>
    rw [String.intercalate_cons_cons, String.toList_append, String.toList_append, List.append_assoc, ih next,
      String.toList_append, lineStart_chars, List.map_cons, following]
    simp

theorem enclosed_chars (level : Nat) (first last part : String) (parts : List String) (rest : List Char) :
    (enclosed level first last (part :: parts)).toList ++ rest =
      first.toList ++ (lineChars (level + 1) ++
        (part.toList ++ following level (parts.map String.toList) (last.toList ++ rest))) := by
  rw [← joined_chars]
  simp [enclosed, String.toList_append, lineStart_chars]

theorem enclosed_none (level : Nat) (first last : String) : enclosed level first last [] = first ++ last := rfl

/-! ## Characters of documents -/

theorem digit_printed {c : Char} (digit : Decimal.isDigit c = true) : Printed c := by
  simp only [Decimal.isDigit, Bool.and_eq_true, decide_eq_true_eq] at digit
  have least : '0'.toNat ≤ c.toNat := digit.1
  have most : c.toNat ≤ '9'.toNat := digit.2
  change 48 ≤ c.toNat at least
  change c.toNat ≤ 57 at most
  exact ⟨by omega, by omega⟩

theorem sign_printed (negative : Bool) : ∀ c ∈ sign negative, Printed c := by
  cases negative
  · exact nofun
  · intro c member
    rw [List.mem_singleton.mp member]
    decide

theorem numeral_printed {n : Numeral} (valid : n.Valid) : ∀ c ∈ n.chars, Printed c := by
  have point : Printed '.' := by decide
  have letter : Printed 'e' := by decide
  have signs (negative : Bool) : Printed (signChar negative) := by
    cases negative <;> decide
  have exponent := valid.exponent
  intro c member
  rw [Numeral.chars, List.mem_append, List.mem_append] at member
  rcases member with whole | pointed | lettered
  · exact digit_printed (whole_digits valid.whole c whole)
  · unfold Numeral.pointed at pointed
    split at pointed
    · cases pointed
    · rcases List.mem_cons.mp pointed with rfl | fraction
      · exact point
      · exact digit_printed (valid.fraction c fraction)
  · unfold Numeral.lettered at lettered
    split at lettered
    · cases lettered
    · rename_i negative digits known
      rcases List.mem_cons.mp lettered with rfl | lettered
      · exact letter
      rcases List.mem_cons.mp lettered with rfl | digit
      · exact signs negative
      · exact digit_printed ((exponent _ known).2.2 c digit)

theorem int_printed {n : Int} {text : String} (written : intNumeral n = .ok text) : ∀ c ∈ text.toList, Printed c := by
  unfold intNumeral at written
  split at written
  · cases written
    intro c member
    rw [intText, List.mem_append] at member
    exact member.elim (sign_printed _ c) fun digit => digit_printed (numeral_digits _ c digit)
  · cases written

theorem float_printed (x : Float) : ∀ c ∈ (floatNumeral x).toList, Printed c := by
  have denotes := Binary64.parts_denote x
  unfold floatNumeral Decimal.floatText
  generalize Decimal.Parts.of x = parts at denotes
  cases denotes with
  | nan _ => exact printed_all (by decide)
  | @infinity negative _ => cases negative <;> exact printed_all (by decide)
  | @zero negative _ => cases negative <;> exact printed_all (by decide)
  | @finite m q powerOfTwo negative written _ =>
    have found := ShortestDigits.shortest_found written
    intro c member
    simp only [finite_text] at member
    rcases List.mem_append.mp member with front | inside
    · exact sign_printed negative c front
    · exact numeral_printed (layout_valid found.positive (point_few written found)) c inside

/-- A character of a document: a visible one, a blank, or a line break. -/
def Ascii (c : Char) : Prop := Printed c ∨ c = '\n'

theorem printed_ascii {chars : List Char} (all : (chars.all fun c => decide (Printed c)) = true) :
    ∀ c ∈ chars, Ascii c := fun c member => .inl (printed_all all c member)

theorem line_ascii (level : Nat) : ∀ c ∈ lineChars level, Ascii c := by
  intro c member
  rcases List.mem_cons.mp member with rfl | blank
  · exact .inr rfl
  · rw [List.eq_of_mem_replicate blank]
    exact .inl (by decide)

theorem following_ascii (level : Nat) (each : ∀ part ∈ parts, ∀ c ∈ part, Ascii c) (last : ∀ c ∈ close, Ascii c) :
    ∀ c ∈ following level parts close, Ascii c := by
  intro c member
  induction parts with
  | nil => exact (List.mem_append.mp member).elim (line_ascii level c) (last c)
  | cons part parts ih =>
    rcases List.mem_cons.mp member with rfl | member
    · exact .inl (by decide)
    rcases List.mem_append.mp member with blank | member
    · exact line_ascii (level + 1) c blank
    rcases List.mem_append.mp member with inside | behind
    · exact each part List.mem_cons_self c inside
    · exact ih (fun other among => each other (List.mem_cons_of_mem _ among)) behind

theorem enclosed_ascii {first last : String} {parts : List String} (level : Nat) (opens : ∀ c ∈ first.toList, Ascii c)
    (closes : ∀ c ∈ last.toList, Ascii c) (each : ∀ part ∈ parts, ∀ c ∈ part.toList, Ascii c) :
    ∀ c ∈ (enclosed level first last parts).toList, Ascii c := by
  intro c member
  cases parts with
  | nil =>
    rw [enclosed_none, String.toList_append, List.mem_append] at member
    exact member.elim (opens c) (closes c)
  | cons part parts =>
    have chars := enclosed_chars level first last part parts []
    rw [List.append_nil, List.append_nil] at chars
    rw [chars, List.mem_append, List.mem_append, List.mem_append] at member
    rcases member with opening | blank | inside | behind
    · exact opens c opening
    · exact line_ascii (level + 1) c blank
    · exact each part List.mem_cons_self c inside
    · refine following_ascii level (fun text among => ?_) closes c behind
      obtain ⟨other, listed, rfl⟩ := List.mem_map.mp among
      exact each other (List.mem_cons_of_mem _ listed)

mutual

/-- What is written for a value has only characters of ASCII. -/
theorem value_ascii (level : Nat) (v : Value) {text : String} (written : writeAt false level v = .ok text) :
    ∀ c ∈ text.toList, Ascii c := by
  cases v with
  | null =>
    cases written
    exact printed_ascii (by decide)
  | bool b =>
    cases written
    cases b
    · exact printed_ascii (by decide)
    · exact printed_ascii (by decide)
  | int n => exact fun c member => .inl (int_printed written c member)
  | float x =>
    cases written
    exact fun c member => .inl (float_printed x c member)
  | str s =>
    cases written
    exact fun c member => .inl (quoted_printed s c member)
  | list items | tuple items =>
    rw [writeAt] at written
    obtain ⟨parts, inner, same⟩ := Outcomes.bind_ok_iff.mp written
    cases same
    exact enclosed_ascii level (printed_ascii (by decide)) (printed_ascii (by decide))
      (items_ascii (level + 1) items inner)
  | map entries =>
    rw [writeAt] at written
    obtain ⟨parts, inner, same⟩ := Outcomes.bind_ok_iff.mp written
    cases same
    exact enclosed_ascii level (printed_ascii (by decide)) (printed_ascii (by decide))
      (entries_ascii (level + 1) entries inner)
  | _ => cases written

theorem items_ascii (level : Nat) (items : List Value) {parts : List String}
    (written : writeItems false level items = .ok parts) : ∀ part ∈ parts, ∀ c ∈ part.toList, Ascii c := by
  cases items with
  | nil =>
    cases written
    exact nofun
  | cons item rest =>
    rw [writeItems] at written
    obtain ⟨first, one, written⟩ := Outcomes.bind_ok_iff.mp written
    obtain ⟨others, more, same⟩ := Outcomes.bind_ok_iff.mp written
    cases same
    intro part member
    rcases List.mem_cons.mp member with rfl | later
    · exact value_ascii level item one
    · exact items_ascii level rest more part later

theorem entries_ascii (level : Nat) (entries : List (Value × Value)) {parts : List String}
    (written : writeEntries false level entries = .ok parts) : ∀ part ∈ parts, ∀ c ∈ part.toList, Ascii c := by
  cases entries with
  | nil =>
    cases written
    exact nofun
  | cons entry rest =>
    obtain ⟨key, value⟩ := entry
    rw [writeEntries] at written
    obtain ⟨name, named, written⟩ := Outcomes.bind_ok_iff.mp written
    obtain ⟨first, one, written⟩ := Outcomes.bind_ok_iff.mp written
    obtain ⟨others, more, same⟩ := Outcomes.bind_ok_iff.mp written
    cases same
    intro part member
    rcases List.mem_cons.mp member with rfl | later
    · intro c inside
      have colon : ∀ c ∈ ": ".toList, Ascii c := printed_ascii (by decide)
      rw [String.toList_append, String.toList_append, List.mem_append, List.mem_append] at inside
      rcases inside with (quote | mark) | behind
      · exact .inl (quoted_printed name c quote)
      · exact colon c mark
      · exact value_ascii level value one c behind
    · exact entries_ascii level rest more part later

end

end MethodLint.JsonWriting
