import MethodLint.Proofs.JsonWriting
import MethodLint.Proofs.NormalDocuments

/-! Documents written and read again. What is read is the value with its tuples as lists
and its keys as texts, of which the last of several equal ones counts. A value that has
neither, and no text as a key twice, is read as it was. -/
namespace MethodLint.JsonRoundTrips
open Json JsonNumbers JsonTexts JsonWriting NormalDocuments

/-! ## What is read again -/

/-- The name that a key is written by. -/
def nameOf (key : Value) : String := (keyText key).toOption.getD ""

/-- The entries that are read from some names and values in their order. -/
def gathered (pairs : List (String × Value)) : List (Value × Value) :=
  (pairs.foldl (fun done pair => addEntry pair.1 pair.2 done) []).reverse

mutual

/-- The value that is read from what is written for a value. -/
def reread : Value → Value
  | .list items | .tuple items => .list (rereadItems items)
  | .map entries => .map (gathered (rereadEntries entries))
  | v => v

/-- The values that are read from what is written for some values. -/
def rereadItems : List Value → List Value
  | [] => []
  | item :: rest => reread item :: rereadItems rest

/-- The names and values that are read from what is written for some entries. -/
def rereadEntries : List (Value × Value) → List (String × Value)
  | [] => []
  | (key, value) :: rest => (nameOf key, reread value) :: rereadEntries rest

/-- How deeply collections are nested in a value. -/
def nesting : Value → Nat
  | .list items | .tuple items => 1 + nestingAll items
  | .map entries => 1 + nestingEntries entries
  | _ => 0

/-- The deepest nesting of some values. -/
def nestingAll : List Value → Nat
  | [] => 0
  | item :: rest => max (nesting item) (nestingAll rest)

/-- The deepest nesting of the values of some entries. -/
def nestingEntries : List (Value × Value) → Nat
  | [] => 0
  | (_, value) :: rest => max (nesting value) (nestingEntries rest)

end

/-! ## Parts of collections -/

/-- A text that does not begin with white space. -/
def Visible (text : List Char) : Prop := ∀ c ∈ text.head?, isSpace c = false

theorem visible_cons {c : Char} (visible : isSpace c = false) (rest : List Char) : Visible (c :: rest) := by
  intro d front
  cases front
  exact visible

theorem skip_none {c : Char} {rest : List Char} (visible : isSpace c = false) (index : Nat) :
    Cursor.skipSpace ⟨c :: rest, index⟩ = ⟨c :: rest, index⟩ := by
  simp [Cursor.skipSpace, skipSpaceFrom, visible]

theorem skip_blanks {blanks text : List Char} (index : Nat) (spaces : ∀ b ∈ blanks, isSpace b = true)
    (visible : Visible text) : ∃ after, Cursor.skipSpace ⟨blanks ++ text, index⟩ = ⟨text, after⟩ := by
  unfold Cursor.skipSpace
  induction blanks generalizing index with
  | nil =>
    cases text with
    | nil => exact ⟨index, rfl⟩
    | cons c rest => exact ⟨index, by simp [skipSpaceFrom, visible c rfl]⟩
  | cons b blanks ih =>
    obtain ⟨after, skipped⟩ := ih (index + 1) fun d member => spaces d (List.mem_cons_of_mem _ member)
    refine ⟨after, ?_⟩
    simp only [List.cons_append, skipSpaceFrom, spaces b List.mem_cons_self, if_true]
    exact skipped

theorem skip_line (level : Nat) {text : List Char} (index : Nat) (visible : Visible text) :
    ∃ after, Cursor.skipSpace ⟨lineChars level ++ text, index⟩ = ⟨text, after⟩ := by
  refine skip_blanks index (fun b member => ?_) visible
  rcases List.mem_cons.mp member with rfl | blank
  · rfl
  · rw [List.eq_of_mem_replicate blank]
    rfl

/-- Some characters from which the reader gives a value, if nothing behind them could
belong to a number; they begin neither with a blank nor with the end of a list. -/
structure Legible (item : Cursor → Reading Value) (part : List Char) (v : Value) : Prop where
  front : ∃ c rest, part = c :: rest ∧ isSpace c = false ∧ c ≠ ']'
  read : ∀ rest index, Apart rest → Gives (item ⟨part ++ rest, index⟩) v rest

variable {item : Cursor → Reading Value} {part : List Char} {parts : List (List Char)} {v : Value} {vs : List Value}
  {rest : List Char}

theorem legible_visible (legible : Legible item part v) (rest : List Char) : Visible (part ++ rest) := by
  obtain ⟨c, tail, rfl, visible, _⟩ := legible.front
  exact visible_cons visible _

/-- Nothing of a number stands behind a part of a collection. -/
theorem following_apart (level : Nat) (parts : List (List Char)) (close : List Char) :
    Apart (following level parts close) := by
  intro c front
  cases parts with
  | nil =>
    cases front
    decide
  | cons next parts =>
    cases front
    decide

/-- The parts of a list are read one by one, up to its end. -/
theorem readItems_parts (level steps index : Nat) (done : List Value) (rest : List Char) (first : Legible item part v)
    (others : List.Forall₂ (Legible item) parts vs) (enough : parts.length < steps) :
    Gives (readItems item steps done ⟨part ++ following level parts (']' :: rest), index⟩)
      (.list (done.reverse ++ v :: vs)) rest := by
  induction others generalizing part v steps done index with
  | nil =>
    cases steps with
    | zero => exact absurd enough (Nat.lt_irrefl 0)
    | succ steps =>
      obtain ⟨between, read⟩ := first.read (following level [] (']' :: rest)) index (following_apart _ _ _)
      obtain ⟨after, skipped⟩ := skip_line level between (visible_cons (c := ']') rfl rest)
      refine ⟨after + 1, ?_⟩
      rw [readItems, read]
      simp only [following, skipped]
      simp [Cursor.drop]
  | @cons next w parts ws second others ih =>
    cases steps with
    | zero => exact absurd enough (Nat.not_lt_zero _)
    | succ steps =>
      obtain ⟨between, read⟩ := first.read (following level (next :: parts) (']' :: rest)) index
        (following_apart _ _ _)
      obtain ⟨start, atNext⟩ := skip_line (level + 1) (between + 1)
        (legible_visible second (following level parts (']' :: rest)))
      have more := ih steps start (v :: done) second (Nat.lt_of_succ_lt_succ enough)
      rw [List.reverse_cons, List.append_assoc] at more
      rw [readItems, read]
      simp only [following, skip_none (c := ',') rfl, Cursor.drop, List.drop_succ_cons, List.drop_zero, atNext]
      exact more

/-- Some characters from which the reader of entries gives a name and a value. -/
def Entered (item : Cursor → Reading Value) (part : List Char) (pair : String × Value) : Prop :=
  ∃ text, part = (quoted pair.1).toList ++ ':' :: ' ' :: text ∧ Legible item text pair.2

/-- Entries, held backwards, with some more. -/
def added (done : List (Value × Value)) (pairs : List (String × Value)) : List (Value × Value) :=
  pairs.foldl (fun done pair => addEntry pair.1 pair.2 done) done

theorem gathered_added (pairs : List (String × Value)) : gathered pairs = (added [] pairs).reverse := rfl

/-- An entry is read up to the end of its value. -/
theorem entry_read {pair : String × Value} (index : Nat) (entered : Entered item part pair) (apart : Apart rest) :
    ∃ colon start after, (Cursor.drop ⟨part ++ rest, index⟩ 1).string = .ok (pair.1, ⟨':' :: colon, start⟩) ∧
      item (Cursor.skipSpace ⟨colon, start + 1⟩) = .ok (pair.2, ⟨rest, after⟩) := by
  obtain ⟨text, rfl, legible⟩ := entered
  have blank : ∀ b ∈ [' '], isSpace b = true := List.forall_mem_singleton.mpr rfl
  obtain ⟨start, named⟩ := string_read pair.1 (':' :: ' ' :: text ++ rest) (index + 1)
  obtain ⟨behind, skipped⟩ := skip_blanks (start + 1) blank (legible_visible legible rest)
  obtain ⟨after, read⟩ := legible.read rest behind apart
  refine ⟨' ' :: text ++ rest, start, after, ?_, ?_⟩
  · rw [quoted_chars]
    simpa [Cursor.drop] using named
  · rw [List.cons_append]
    rw [List.singleton_append] at skipped
    rw [skipped]
    exact read

theorem entered_front {pair : String × Value} (entered : Entered item part pair) :
    ∃ others, part = '"' :: others := by
  obtain ⟨text, rfl, _⟩ := entered
  rw [quoted_chars]
  exact ⟨_, rfl⟩

theorem entered_visible {pair : String × Value} (entered : Entered item part pair) (rest : List Char) :
    Visible (part ++ rest) := by
  obtain ⟨others, rfl⟩ := entered_front entered
  exact visible_cons rfl _

/-- The parts of an object are read one by one, up to its end. -/
theorem readEntries_parts {pair : String × Value} {pairs : List (String × Value)} (level steps index : Nat)
    (done : List (Value × Value)) (rest : List Char) (first : Entered item part pair)
    (others : List.Forall₂ (Entered item) parts pairs) (enough : parts.length < steps) :
    Gives (readEntries item steps done ⟨part ++ following level parts ('\x7d' :: rest), index⟩)
      (.map (added done (pair :: pairs)).reverse) rest := by
  induction others generalizing part pair steps done index with
  | nil =>
    cases steps with
    | zero => exact absurd enough (Nat.lt_irrefl 0)
    | succ steps =>
      obtain ⟨tail, begins⟩ := entered_front first
      obtain ⟨colon, start, between, named, read⟩ := entry_read index first
        (following_apart level [] ('\x7d' :: rest))
      obtain ⟨after, atEnd⟩ := skip_line level between (visible_cons (c := '\x7d') rfl rest)
      rw [begins, List.cons_append] at named ⊢
      refine ⟨after + 1, ?_⟩
      rw [readEntries]
      simp only [named, skip_none (c := ':') rfl]
      simp only [Cursor.drop, List.drop_succ_cons, List.drop_zero, read, following, atEnd]
      rfl
  | @cons next other parts pairs second others ih =>
    cases steps with
    | zero => exact absurd enough (Nat.not_lt_zero _)
    | succ steps =>
      obtain ⟨tail, begins⟩ := entered_front first
      obtain ⟨colon, start, between, named, read⟩ := entry_read index first
        (following_apart level (next :: parts) ('\x7d' :: rest))
      obtain ⟨atQuote, atNext⟩ := skip_line (level + 1) (between + 1)
        (entered_visible second (following level parts ('\x7d' :: rest)))
      have more := ih steps atQuote (addEntry pair.1 pair.2 done) second (Nat.lt_of_succ_lt_succ enough)
      rw [begins, List.cons_append] at named ⊢
      rw [readEntries]
      simp only [named, skip_none (c := ':') rfl]
      simp only [Cursor.drop, List.drop_succ_cons, List.drop_zero, read, following, skip_none (c := ',') rfl, atNext]
      exact more

/-! ## Values -/

/-- A character at which the reader takes a number or a keyword. -/
structure AtomFront (c : Char) : Prop where
  visible : isSpace c = false
  notEnd : c ≠ ']'
  notList : c ≠ '['
  notMap : c ≠ '\x7b'
  notText : c ≠ '"'

theorem begins_atom {c : Char} (begins : Begins c) : AtomFront c := by
  rcases begins with digit | mark
  · refine ⟨?_, (digit_ne digit rfl).symm, (digit_ne digit rfl).symm, (digit_ne digit rfl).symm,
      (digit_ne digit rfl).symm⟩
    have blank := digit_ne digit (d := ' ') rfl
    have tab := digit_ne digit (d := '\t') rfl
    have newline := digit_ne digit (d := '\n') rfl
    have back := digit_ne digit (d := '\r') rfl
    simp [isSpace, blank.symm, tab.symm, newline.symm, back.symm]
  · simp only [List.mem_cons, List.not_mem_nil, or_false] at mark
    rcases mark with rfl | rfl | rfl <;> exact ⟨by decide, by decide, by decide, by decide, by decide⟩

theorem readValue_atom (budget : Nat) {c : Char} (front : AtomFront c) :
    readValue budget ⟨c :: rest, index⟩ = readAtom ⟨c :: rest, index⟩ := by
  have notList := front.notList
  have notMap := front.notMap
  have notText := front.notText
  cases budget with
  | zero =>
    rw [readValue]
    split <;> simp_all
  | succ budget =>
    rw [readValue]
    split <;> simp_all

theorem readValue_text (budget : Nat) (s : String) :
    readValue budget ⟨(quoted s).toList ++ rest, index⟩ = readText ⟨(quoted s).toList ++ rest, index⟩ := by
  rw [quoted_chars, List.cons_append]
  cases budget <;> rfl

/-- A number or keyword is legible at any depth. -/
theorem atom_legible {c : Char} {others : List Char} (budget : Nat) (same : part = c :: others) (front : AtomFront c)
    (read : ∀ rest index, Apart rest → Gives (readAtom ⟨part ++ rest, index⟩) v rest) :
    Legible (readValue budget) part v := by
  refine ⟨⟨c, others, same, front.visible, front.notEnd⟩, fun rest index apart => ?_⟩
  have given := read rest index apart
  rw [same, List.cons_append] at given ⊢
  rwa [readValue_atom budget front]

theorem length_following (level : Nat) (parts : List (List Char)) (close : List Char) :
    parts.length ≤ (following level parts close).length := by
  induction parts with
  | nil => exact Nat.zero_le _
  | cons part parts ih =>
    simp only [following, List.length_cons, List.length_append]
    omega

/-- The text from a part on is longer than the number of parts behind it. -/
theorem enough_steps (level : Nat) (part : List Char) (parts : List (List Char)) (close : List Char) :
    parts.length < (part ++ following level parts close).length + 1 := by
  have count := length_following level parts close
  rw [List.length_append]
  omega

/-- What is between brackets begins with the first of them. -/
theorem enclosed_front (first last : String) {c : Char} (one : first.toList = [c]) (level : Nat)
    (parts : List String) : ∃ others, (enclosed level first last parts).toList = c :: others := by
  cases parts with
  | nil => exact ⟨last.toList, by rw [enclosed_none, String.toList_append, one]; rfl⟩
  | cons part parts =>
    have chars := enclosed_chars level first last part parts []
    rw [List.append_nil, one] at chars
    exact ⟨_, chars⟩

/-- A list is legible if its parts are. -/
theorem list_legible (budget level : Nat) {parts : List String}
    (each : List.Forall₂ (Legible (readValue budget)) (parts.map String.toList) vs) :
    Legible (readValue (budget + 1)) (enclosed level "[" "]" parts).toList (.list vs) := by
  obtain ⟨others, begins⟩ := enclosed_front "[" "]" rfl level parts
  refine ⟨⟨'[', others, begins, rfl, by decide⟩, fun rest index apart => ?_⟩
  cases parts with
  | nil =>
    cases each
    refine ⟨index + 1 + 1, ?_⟩
    rw [enclosed_none, String.toList_append]
    change readValue (budget + 1) ⟨'[' :: ']' :: rest, index⟩ = _
    rw [readValue]
    simp only [Cursor.drop, List.drop_succ_cons, List.drop_zero, skip_none (c := ']') rfl]
  | cons part parts =>
    rw [List.map_cons] at each
    cases each with
    | @cons _ v _ vs first others =>
      obtain ⟨start, skipped⟩ := skip_line (level + 1) (index + 1)
        (legible_visible first (following level (parts.map String.toList) (']' :: rest)))
      have read := readItems_parts level _ start [] rest first others (enough_steps level part.toList _ (']' :: rest))
      obtain ⟨c, tail, begins, _, notEnd⟩ := first.front
      rw [enclosed_chars]
      change Gives (readValue (budget + 1) ⟨'[' :: (lineChars (level + 1) ++ (part.toList ++
        following level (parts.map String.toList) (']' :: rest))), index⟩) _ _
      rw [readValue]
      simp only [Cursor.drop, List.drop_succ_cons, List.drop_zero, skipped]
      rw [begins, List.cons_append] at read ⊢
      split
      · rename_i _ same
        exact absurd (List.cons.inj same).1 notEnd
      · exact read

/-- An object is legible if its entries are. -/
theorem map_legible (budget level : Nat) {parts : List String} {pairs : List (String × Value)}
    (each : List.Forall₂ (Entered (readValue budget)) (parts.map String.toList) pairs) :
    Legible (readValue (budget + 1)) (enclosed level "\x7b" "\x7d" parts).toList (.map (gathered pairs)) := by
  obtain ⟨others, begins⟩ := enclosed_front "\x7b" "\x7d" rfl level parts
  refine ⟨⟨'\x7b', others, begins, rfl, by decide⟩, fun rest index apart => ?_⟩
  cases parts with
  | nil =>
    cases each
    refine ⟨index + 1 + 1, ?_⟩
    rw [enclosed_none, String.toList_append]
    change readValue (budget + 1) ⟨'\x7b' :: '\x7d' :: rest, index⟩ = _
    rw [readValue]
    simp only [Cursor.drop, List.drop_succ_cons, List.drop_zero, skip_none (c := '\x7d') rfl]
    rfl
  | cons part parts =>
    rw [List.map_cons] at each
    cases each with
    | @cons _ pair _ pairs first others =>
      obtain ⟨start, skipped⟩ := skip_line (level + 1) (index + 1)
        (entered_visible first (following level (parts.map String.toList) ('\x7d' :: rest)))
      have read := readEntries_parts level _ start [] rest first others
        (enough_steps level part.toList _ ('\x7d' :: rest))
      obtain ⟨tail, begins⟩ := entered_front first
      rw [enclosed_chars]
      change Gives (readValue (budget + 1) ⟨'\x7b' :: (lineChars (level + 1) ++ (part.toList ++
        following level (parts.map String.toList) ('\x7d' :: rest))), index⟩) _ _
      rw [readValue]
      simp only [Cursor.drop, List.drop_succ_cons, List.drop_zero, skipped]
      rw [begins, List.cons_append] at read ⊢
      exact read

/-- The name of a key that is written. -/
theorem key_named {key : Value} {name : String} (written : keyText key = .ok name) : nameOf key = name := by
  rw [nameOf, written]
  rfl

mutual

/-- What is written for a value is read as the value read again. -/
theorem value_legible (budget level : Nat) (v : Value) {text : String} (written : writeAt false level v = .ok text)
    (shallow : nesting v ≤ budget) : Legible (readValue budget) text.toList (reread v) := by
  cases v with
  | null =>
    cases written
    exact atom_legible budget (c := 'n') rfl ⟨rfl, by decide, by decide, by decide, by decide⟩
      fun rest index _ => ⟨_, rfl⟩
  | bool b =>
    cases written
    cases b
    · exact atom_legible budget (c := 'f') rfl ⟨rfl, by decide, by decide, by decide, by decide⟩
        fun rest index _ => ⟨_, rfl⟩
    · exact atom_legible budget (c := 't') rfl ⟨rfl, by decide, by decide, by decide, by decide⟩
        fun rest index _ => ⟨_, rfl⟩
  | int n =>
    obtain ⟨c, others, same, begins⟩ := int_front written
    exact atom_legible budget same (begins_atom begins) fun rest index apart => int_read written apart
  | float x =>
    cases written
    obtain ⟨c, others, same, begins⟩ := float_front x
    exact atom_legible budget same (begins_atom begins) fun rest index apart => float_read x index apart
  | str s =>
    cases written
    refine ⟨⟨'"', _, quoted_chars s, rfl, by decide⟩, fun rest index _ => ?_⟩
    rw [readValue_text]
    exact text_read s
  | list items | tuple items =>
    cases budget with
    | zero => simp [nesting] at shallow
    | succ budget =>
      rw [writeAt] at written
      obtain ⟨parts, inner, same⟩ := Outcomes.bind_ok_iff.mp written
      cases same
      rw [nesting] at shallow
      exact list_legible budget level (items_legible budget (level + 1) items inner (by omega))
  | map entries =>
    cases budget with
    | zero => simp [nesting] at shallow
    | succ budget =>
      rw [writeAt] at written
      obtain ⟨parts, inner, same⟩ := Outcomes.bind_ok_iff.mp written
      cases same
      rw [nesting] at shallow
      exact map_legible budget level (entries_legible budget (level + 1) entries inner (by omega))
  | _ => cases written

theorem items_legible (budget level : Nat) (items : List Value) {parts : List String}
    (written : writeItems false level items = .ok parts) (shallow : nestingAll items ≤ budget) :
    List.Forall₂ (Legible (readValue budget)) (parts.map String.toList) (rereadItems items) := by
  cases items with
  | nil =>
    cases written
    exact .nil
  | cons item rest =>
    rw [writeItems] at written
    obtain ⟨first, one, written⟩ := Outcomes.bind_ok_iff.mp written
    obtain ⟨others, more, same⟩ := Outcomes.bind_ok_iff.mp written
    cases same
    rw [nestingAll] at shallow
    exact .cons (value_legible budget level item one (by omega)) (items_legible budget level rest more (by omega))

theorem entries_legible (budget level : Nat) (entries : List (Value × Value)) {parts : List String}
    (written : writeEntries false level entries = .ok parts) (shallow : nestingEntries entries ≤ budget) :
    List.Forall₂ (Entered (readValue budget)) (parts.map String.toList) (rereadEntries entries) := by
  cases entries with
  | nil =>
    cases written
    exact .nil
  | cons entry rest =>
    obtain ⟨key, value⟩ := entry
    rw [writeEntries] at written
    obtain ⟨name, named, written⟩ := Outcomes.bind_ok_iff.mp written
    obtain ⟨first, one, written⟩ := Outcomes.bind_ok_iff.mp written
    obtain ⟨others, more, same⟩ := Outcomes.bind_ok_iff.mp written
    cases same
    rw [nestingEntries] at shallow
    refine .cons ⟨first.toList, ?_, value_legible budget level value one (by omega)⟩
      (entries_legible budget level rest more (by omega))
    rw [key_named named, String.toList_append, String.toList_append, List.append_assoc]
    rfl

end

/-! ## Documents -/

/-- A document that is written for a value, and ended by a line break, is read as the
value read again. -/
theorem document_read {v : Value} {text : String} {budget : Nat} (written : Json.write false v = .ok text)
    (shallow : nesting v ≤ budget) : Json.read budget (text ++ "\n") = .ok (reread v) := by
  have legible := value_legible budget 0 v written shallow
  have ascii := value_ascii 0 v written
  obtain ⟨c, others, begins, visible, _⟩ := legible.front
  have mark : c ≠ '\uFEFF' := by
    rintro rfl
    rcases ascii _ (begins ▸ List.mem_cons_self) with printed | line
    · exact absurd printed.2 (by decide)
    · exact absurd line (by decide)
  have last : Apart ['\n'] := by
    intro c front
    cases front
    decide
  obtain ⟨after, read⟩ := legible.read ['\n'] 0 last
  have chars : (text ++ "\n").toList = c :: (others ++ ['\n']) := by
    rw [String.toList_append, begins]
    rfl
  rw [begins, List.cons_append] at read
  unfold Json.read
  simp only [chars]
  split
  · rename_i same
    exact absurd (List.cons.inj same).1 mark
  · rw [skip_none visible, read]
    rfl

end MethodLint.JsonRoundTrips
