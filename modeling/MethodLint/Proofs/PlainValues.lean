import Mathlib.Data.List.TakeWhile
import MethodLint.Proofs.JsonRoundTrips

/-! Values that are read as they were written: they have no tuple, and only texts for keys,
none of them twice in a mapping. What is read from a document is of these values, so what
is read is written and read again as it is. -/
namespace MethodLint.PlainValues
open Decimal Json JsonNumbers JsonTexts JsonWriting JsonRoundTrips NormalDocuments

mutual

/-- A value of the kinds that are read: no tuple, and only texts as keys, none of them
twice. -/
def isPlain : Value → Bool
  | .null | .bool _ | .int _ | .float _ | .str _ => true
  | .list items => arePlain items
  | .map entries => decide (textKeys entries).Nodup && entriesArePlain entries
  | .tuple _ | .bytes _ | .date _ | .moment _ | .set _ => false

/-- Values of these kinds. -/
def arePlain : List Value → Bool
  | [] => true
  | item :: rest => isPlain item && arePlain rest

/-- Entries with texts as keys and values of these kinds. -/
def entriesArePlain : List (Value × Value) → Bool
  | [] => true
  | (.str _, value) :: rest => isPlain value && entriesArePlain rest
  | _ :: _ => false

end

variable {name : String} {v : Value} {items : List Value} {entries others done : List (Value × Value)}
  {pairs : List (String × Value)} {P : Value → Prop}

/-! ## Entries that are read -/

/-- Entries with texts as keys, none of them twice, and values of a sort. -/
structure Proper (P : Value → Prop) (entries : List (Value × Value)) : Prop where
  unique : (textKeys entries).Nodup
  each : ∀ entry ∈ entries, (∃ name, entry.1 = .str name) ∧ P entry.2

theorem textKeys_congr (same : others.map Prod.fst = entries.map Prod.fst) : textKeys others = textKeys entries := by
  induction others generalizing entries with
  | nil => rw [List.map_eq_nil_iff.mp same.symm]
  | cons entry rest ih =>
    obtain ⟨other, later, rfl, key, keys⟩ := List.map_eq_cons_iff.mp same.symm
    have tail := ih keys.symm
    rw [textKeys, textKeys] at tail ⊢
    rw [List.filterMap_cons, List.filterMap_cons, key, tail]

/-- Only a name that is not there leaves the entries as they are. -/
theorem insertEntry_none_iff : insertEntry name v entries = none ↔ name ∉ textKeys entries := by
  induction entries with
  | nil => exact iff_of_true rfl List.not_mem_nil
  | cons entry rest ih =>
    obtain ⟨key, value⟩ := entry
    cases key with
    | str other =>
      have keys : textKeys ((.str other, value) :: rest) = other :: textKeys rest := rfl
      rw [insertEntry, keys, List.mem_cons, not_or, ← ih]
      split
      · rename_i same
        exact iff_of_false (Option.some_ne_none _) fun both => both.1 same.symm
      · rename_i different
        rw [Option.map_eq_none_iff]
        exact (and_iff_right (Ne.symm different)).symm
    | _ =>
      rw [insertEntry]
      · exact Option.map_eq_none_iff.trans ih
      · nofun

/-- A name that is there keeps its place and gets the new value. -/
theorem insertEntry_some (known : insertEntry name v entries = some others) :
    others.map Prod.fst = entries.map Prod.fst ∧ ∀ entry ∈ others, entry ∈ entries ∨ entry = (.str name, v) := by
  induction entries generalizing others with
  | nil => cases known
  | cons entry rest ih =>
    have passed (tail : insertEntry name v (entry :: rest) = (insertEntry name v rest).map (entry :: ·)) :
        others.map Prod.fst = (entry :: rest).map Prod.fst ∧
          ∀ e ∈ others, e ∈ entry :: rest ∨ e = (.str name, v) := by
      rw [tail] at known
      obtain ⟨changed, below, rfl⟩ := Option.map_eq_some_iff.mp known
      obtain ⟨keys, each⟩ := ih below
      refine ⟨by rw [List.map_cons, List.map_cons, keys], fun e member => ?_⟩
      rcases List.mem_cons.mp member with rfl | later
      · exact .inl List.mem_cons_self
      · exact (each e later).imp_left (List.mem_cons_of_mem _)
    obtain ⟨key, value⟩ := entry
    cases key with
    | str other =>
      by_cases same : other = name
      · rw [insertEntry, if_pos same] at known
        cases known
        refine ⟨rfl, fun e member => ?_⟩
        rcases List.mem_cons.mp member with rfl | later
        · exact .inr (by rw [same])
        · exact .inl (List.mem_cons_of_mem _ later)
      · exact passed (by rw [insertEntry, if_neg same])
    | _ => exact passed (by rw [insertEntry]; nofun)

theorem addEntry_new (new : name ∉ textKeys entries) : addEntry name v entries = (.str name, v) :: entries := by
  rw [addEntry, insertEntry_none_iff.mpr new]
  rfl

theorem addEntry_proper (name : String) (proper : Proper P entries) (here : P v) :
    Proper P (addEntry name v entries) := by
  cases inserted : insertEntry name v entries with
  | none =>
    have new := insertEntry_none_iff.mp inserted
    rw [addEntry_new new]
    exact ⟨List.nodup_cons.mpr ⟨new, proper.unique⟩, List.forall_mem_cons.mpr ⟨⟨⟨name, rfl⟩, here⟩, proper.each⟩⟩
  | some others =>
    obtain ⟨keys, each⟩ := insertEntry_some inserted
    rw [addEntry, inserted]
    refine ⟨(textKeys_congr keys).symm ▸ proper.unique, fun entry member => ?_⟩
    rcases each entry member with old | rfl
    · exact proper.each entry old
    · exact ⟨⟨name, rfl⟩, here⟩

theorem proper_reverse (proper : Proper P entries) : Proper P entries.reverse := by
  refine ⟨?_, fun entry member => proper.each entry (List.mem_reverse.mp member)⟩
  rw [textKeys, List.filterMap_reverse]
  exact List.nodup_reverse.mpr proper.unique

theorem gathered_proper (each : ∀ pair ∈ pairs, P pair.2) : Proper P (gathered pairs) := by
  have run (done : List (Value × Value)) (proper : Proper P done) : Proper P (added done pairs) := by
    induction pairs generalizing done with
    | nil => exact proper
    | cons pair rest ih =>
      obtain ⟨here, later⟩ := List.forall_mem_cons.mp each
      exact ih later _ (addEntry_proper pair.1 proper here)
  rw [gathered_added]
  exact proper_reverse (run [] ⟨List.nodup_nil, fun entry member => absurd member List.not_mem_nil⟩)

/-- A name and a value as an entry. -/
def entryOf (pair : String × Value) : Value × Value := (.str pair.1, pair.2)

/-- Entries with different names are all read, in their order. -/
theorem gathered_unique (unique : (pairs.map Prod.fst).Nodup) : gathered pairs = pairs.map entryOf := by
  have run (done : List (Value × Value)) (new : ∀ name ∈ pairs.map Prod.fst, name ∉ textKeys done) :
      added done pairs = (pairs.map entryOf).reverse ++ done := by
    induction pairs generalizing done with
    | nil => rfl
    | cons pair rest ih =>
      obtain ⟨notLater, unique⟩ := List.nodup_cons.mp unique
      obtain ⟨notBefore, new⟩ := List.forall_mem_cons.mp new
      have fresh : ∀ name ∈ rest.map Prod.fst, name ∉ textKeys ((.str pair.1, pair.2) :: done) := by
        intro name among known
        rcases List.mem_cons.mp known with rfl | before
        · exact notLater among
        · exact new name among before
      change added (addEntry pair.1 pair.2 done) rest = _
      rw [addEntry_new notBefore, ih unique _ fresh, List.map_cons, List.reverse_cons, List.append_assoc]
      rfl
  rw [gathered_added, run [] fun name _ => List.not_mem_nil, List.append_nil, List.reverse_reverse]

/-! ## Plain values -/

theorem arePlain_iff : arePlain items = true ↔ ∀ item ∈ items, isPlain item = true := by
  induction items with
  | nil => simp [arePlain]
  | cons item rest ih => rw [arePlain, Bool.and_eq_true, ih, List.forall_mem_cons]

theorem entriesArePlain_iff :
    entriesArePlain entries = true ↔ ∀ entry ∈ entries, (∃ name, entry.1 = .str name) ∧ isPlain entry.2 = true := by
  induction entries with
  | nil => simp [entriesArePlain]
  | cons entry rest ih =>
    obtain ⟨key, value⟩ := entry
    rw [List.forall_mem_cons, ← ih]
    cases key <;> simp [entriesArePlain]

theorem plain_map_iff : isPlain (.map entries) = true ↔ Proper (fun v => isPlain v = true) entries := by
  rw [isPlain, Bool.and_eq_true, decide_eq_true_eq, entriesArePlain_iff]
  exact ⟨fun both => ⟨both.1, both.2⟩, fun proper => ⟨proper.unique, proper.each⟩⟩

/-- Entries with texts as keys are read under these. -/
theorem rereadEntries_texts (texts : AllTexts entries) :
    (rereadEntries entries).map Prod.fst = textKeys entries ∧
      (rereadEntries entries).map entryOf = entries.map fun entry => (entry.1, reread entry.2) := by
  induction entries with
  | nil => exact ⟨rfl, rfl⟩
  | cons entry rest ih =>
    obtain ⟨⟨name, text⟩, others⟩ := List.forall_mem_cons.mp texts
    obtain ⟨key, value⟩ := entry
    cases text
    obtain ⟨names, same⟩ := ih others
    rw [rereadEntries, List.map_cons, List.map_cons, List.map_cons, names, same]
    exact ⟨rfl, rfl⟩

/-- A mapping with texts as keys, none of them twice, is read with its values read
again. -/
theorem reread_map (texts : AllTexts entries) (unique : (textKeys entries).Nodup) :
    reread (.map entries) = .map (entries.map fun entry => (entry.1, reread entry.2)) := by
  obtain ⟨names, same⟩ := rereadEntries_texts texts
  rw [reread, gathered_unique (names ▸ unique), same]

theorem rereadItems_map (items : List Value) : rereadItems items = items.map reread := by
  induction items with
  | nil => rfl
  | cons item rest ih => rw [rereadItems, ih, List.map_cons]

mutual

/-- A plain value is read as it was. -/
theorem reread_plain (v : Value) (plain : isPlain v = true) : reread v = v := by
  cases v with
  | list items => rw [reread, rereadItems_map, map_reread_plain items plain]
  | map entries =>
    have proper := plain_map_iff.mp plain
    rw [isPlain, Bool.and_eq_true] at plain
    rw [reread_map (fun entry member => (proper.each entry member).1) proper.unique,
      map_entries_plain entries plain.2]
  | tuple items => cases plain
  | _ => rfl

theorem map_reread_plain (items : List Value) (plain : arePlain items = true) : items.map reread = items := by
  cases items with
  | nil => rfl
  | cons item rest =>
    rw [arePlain, Bool.and_eq_true] at plain
    rw [List.map_cons, reread_plain item plain.1, map_reread_plain rest plain.2]

theorem map_entries_plain (entries : List (Value × Value)) (plain : entriesArePlain entries = true) :
    (entries.map fun entry => (entry.1, reread entry.2)) = entries := by
  match entries with
  | [] => rfl
  | (.str name, value) :: rest =>
    rw [entriesArePlain, Bool.and_eq_true] at plain
    rw [List.map_cons, reread_plain value plain.1, map_entries_plain rest plain.2]

end

mutual

/-- What is read from what is written is plain. -/
theorem plain_reread (v : Value) (writable : isWritable v = true) : isPlain (reread v) = true := by
  cases v with
  | list items | tuple items => exact arePlain_iff.mpr (plain_rereadItems items writable)
  | map entries => exact plain_map_iff.mpr (gathered_proper (plain_rereadEntries entries writable))
  | bytes _ | date _ | moment _ | set _ => cases writable
  | _ => rfl

theorem plain_rereadItems (items : List Value) (writable : areWritable items = true) :
    ∀ item ∈ rereadItems items, isPlain item = true := by
  cases items with
  | nil => exact fun item member => absurd member List.not_mem_nil
  | cons item rest =>
    rw [areWritable, Bool.and_eq_true] at writable
    exact List.forall_mem_cons.mpr ⟨plain_reread item writable.1, plain_rereadItems rest writable.2⟩

theorem plain_rereadEntries (entries : List (Value × Value)) (writable : entriesAreWritable entries = true) :
    ∀ pair ∈ rereadEntries entries, isPlain pair.2 = true := by
  match entries with
  | [] => exact fun pair member => absurd member List.not_mem_nil
  | (key, value) :: rest =>
    rw [entriesAreWritable, Bool.and_eq_true, Bool.and_eq_true] at writable
    exact List.forall_mem_cons.mpr ⟨plain_reread value writable.1.2, plain_rereadEntries rest writable.2⟩

end

/-- Of the values that can be written, the plain ones are those that are read as they
were. -/
theorem reread_same_iff (writable : isWritable v = true) : reread v = v ↔ isPlain v = true := by
  constructor
  · intro same
    rw [← same]
    exact plain_reread v writable
  · exact reread_plain v

/-! ## What is read -/

theorem areWritable_iff : areWritable items = true ↔ ∀ item ∈ items, isWritable item = true := by
  induction items with
  | nil => simp [areWritable]
  | cons item rest ih => rw [areWritable, Bool.and_eq_true, ih, List.forall_mem_cons]

theorem entriesAreWritable_iff : entriesAreWritable entries = true ↔
    ∀ entry ∈ entries, hasName entry.1 = true ∧ isWritable entry.2 = true := by
  induction entries with
  | nil => simp [entriesAreWritable]
  | cons entry rest ih =>
    obtain ⟨key, value⟩ := entry
    rw [entriesAreWritable, Bool.and_eq_true, Bool.and_eq_true, ih, List.forall_mem_cons]

/-- A value that is written, and read again as it was. -/
structure Kept (v : Value) : Prop where
  plain : isPlain v = true
  writable : isWritable v = true

theorem kept_list (each : ∀ item ∈ items, Kept item) : Kept (.list items) :=
  ⟨arePlain_iff.mpr fun item member => (each item member).plain,
    areWritable_iff.mpr fun item member => (each item member).writable⟩

theorem kept_map (proper : Proper Kept entries) : Kept (.map entries) := by
  refine ⟨plain_map_iff.mpr ⟨proper.unique, fun entry member => ?_⟩,
    entriesAreWritable_iff.mpr fun entry member => ?_⟩
  · exact ⟨(proper.each entry member).1, (proper.each entry member).2.plain⟩
  · obtain ⟨⟨name, text⟩, kept⟩ := proper.each entry member
    exact ⟨text ▸ rfl, kept.writable⟩

/-- Whatever a reader reads is a value that is kept. -/
def ReadsKept (item : Cursor → Reading Value) : Prop := ∀ cur v after, item cur = .ok (v, after) → Kept v

theorem text_kept : ReadsKept readText := by
  intro cur v after read
  unfold readText at read
  split at read
  · cases read
  · cases read
    exact ⟨rfl, rfl⟩

theorem intOfDigits_writable {negative : Bool} {digits : List Char} {n : Int}
    (each : ∀ c ∈ digits, isDigit c = true) (read : intOfDigits negative digits = .ok n) :
    isWritable (.int n) = true := by
  unfold intOfDigits at read
  split at read
  · cases read
  · rename_i few
    cases read
    rw [isWritable, decide_eq_true_eq, Nat.pow_eq]
    generalize numeralLimit = limit at few ⊢
    have small : ofDigits digits < 10 ^ limit :=
      (ofDigits_lt digits each).trans_le (Nat.pow_le_pow_right (by decide) (not_lt.mp few))
    split
    · rwa [Int.natAbs_neg, Int.natAbs_natCast]
    · rwa [Int.natAbs_natCast]

theorem wholePart_digits (rest : List Char) : ∀ c ∈ wholePart rest, isDigit c = true := by
  intro c member
  unfold wholePart at member
  split at member
  · rw [List.mem_singleton.mp member]
    rfl
  · exact List.mem_takeWhile_imp member

theorem number_kept (negative : Bool) (start : Cursor) : ReadsKept (readNumber negative start) := by
  intro cur v after read
  unfold readNumber at read
  simp only at read
  split at read
  · cases read
  · split at read
    · split at read
      · rename_i n whole
        cases read
        exact ⟨rfl, intOfDigits_writable (wholePart_digits _) whole⟩
      · cases read
    · split at read
      · cases read
        exact ⟨rfl, rfl⟩
      · cases read
        exact ⟨rfl, rfl⟩

theorem keyword_kept {cs : List Char} {length : Nat} (read : keyword? cs = some (v, length)) : Kept v := by
  unfold keyword? at read
  split_ifs at read <;> cases read <;> exact ⟨rfl, rfl⟩

theorem atom_kept : ReadsKept readAtom := by
  intro cur v after read
  unfold readAtom at read
  split at read
  · rename_i known
    cases read
    exact keyword_kept known
  · split at read
    · exact number_kept _ _ _ _ _ read
    · exact number_kept _ _ _ _ _ read

variable {item : Cursor → Reading Value}

theorem items_kept (kept : ReadsKept item) (steps : Nat) {done : List Value} (before : ∀ d ∈ done, Kept d) :
    ReadsKept (readItems item steps done) := by
  intro cur v after read
  induction steps generalizing done cur with
  | zero => cases read
  | succ steps ih =>
    rw [readItems] at read
    split at read
    · cases read
    · rename_i value behind first
      have all : ∀ d ∈ value :: done, Kept d := List.forall_mem_cons.mpr ⟨kept _ _ _ first, before⟩
      simp only at read
      split at read
      · cases read
        exact kept_list fun d member => all d (List.mem_reverse.mp member)
      · exact ih all _ read
      · cases read

theorem entries_kept (kept : ReadsKept item) (steps : Nat) {done : List (Value × Value)} (before : Proper Kept done) :
    ReadsKept (readEntries item steps done) := by
  intro cur v after read
  induction steps generalizing done cur with
  | zero => cases read
  | succ steps ih =>
    rw [readEntries] at read
    split at read
    · split at read
      · cases read
      · rename_i name _ _
        simp only at read
        split at read
        · split at read
          · cases read
          · rename_i value behind first
            have all := addEntry_proper name before (kept _ _ _ first)
            split at read
            · cases read
              exact kept_map (proper_reverse all)
            · exact ih all _ read
            · cases read
        · cases read
    · cases read

theorem value_kept (budget : Nat) : ReadsKept (readValue budget) := by
  have empty : Proper Kept [] := ⟨List.nodup_nil, fun entry member => absurd member List.not_mem_nil⟩
  induction budget with
  | zero =>
    intro cur v after read
    rw [readValue] at read
    split at read
    · cases read
    · cases read
    · exact text_kept _ _ _ read
    · exact atom_kept _ _ _ read
  | succ budget ih =>
    intro cur v after read
    rw [readValue] at read
    split at read
    · cases read
    · simp only at read
      split at read
      · cases read
        exact ⟨rfl, rfl⟩
      · exact items_kept ih _ (fun d member => absurd member List.not_mem_nil) _ _ _ read
    · simp only at read
      split at read
      · cases read
        exact ⟨rfl, rfl⟩
      · exact entries_kept ih _ empty _ _ _ read
    · exact text_kept _ _ _ read
    · exact atom_kept _ _ _ read

/-- What is read from a document is written, and read again as it is. -/
theorem read_kept {budget : Nat} {text : String} (read : Json.read budget text = .ok v) : Kept v := by
  unfold Json.read at read
  simp only at read
  split at read
  · cases read
  · split at read
    · cases read
    · rename_i value after first
      split at read
      · cases read
        exact value_kept _ _ _ _ first
      · cases read

end MethodLint.PlainValues
