import MethodLint.Config.File
import MethodLint.Proofs.DocumentKeys

/-! Loading of configurations. What is wrong with the sections or the thresholds of a
document is reported as a defect of the configuration; a configuration that is loaded
has whole thresholds, and under its exclusions only lists. Loading ends in no other way
than these two unless the file is no text or a value in it cannot be built. -/
namespace MethodLint.ConfigLoading
open Outcomes NormalDocuments DocumentReading DocumentKeys

variable {α β : Type} {name : String} {v config : Value} {entries given : List (Value × Value)} {fine further : Prop}

/-! ## Entries that are put over others -/

theorem lookup_put (key : String) (v : Value) (entries : List (Value × Value)) :
    Value.lookup name (Config.put key v entries) = if key = name then some v else Value.lookup name entries := by
  fun_induction Config.put key v entries with
  | case1 => rfl
  | case2 old rest =>
    simp only [Value.lookup]
    split <;> rfl
  | case3 k old rest other ih =>
    simp only [Value.lookup, ih]
    by_cases here : k = name
    · have apart : key ≠ name := fun same => other (here.trans same.symm)
      rw [if_pos here, if_neg apart, if_pos here]
    · rw [if_neg here, if_neg here]
  | case4 entry rest noText ih =>
    obtain ⟨k, old⟩ := entry
    have skip (later : List (Value × Value)) : Value.lookup name ((k, old) :: later) = Value.lookup name later := by
      cases k with
      | str key => exact absurd rfl (noText key old)
      | _ => rfl
    rw [skip, skip, ih]

theorem mem_of_lookup (found : Value.lookup name entries = some v) : (Value.str name, v) ∈ entries := by
  induction entries with
  | nil => cases found
  | cons entry rest ih =>
    obtain ⟨key, w⟩ := entry
    cases key with
    | str other =>
      rw [Value.lookup] at found
      split at found
      · next here =>
        cases found
        exact here ▸ List.mem_cons_self
      · exact List.mem_cons_of_mem _ (ih found)
    | _ => exact List.mem_cons_of_mem _ (ih found)

/-- A key that is no text is found by no name. -/
theorem lookup_append_other {key : Value} (noText : ∀ s, key ≠ .str s) (v : Value)
    (entries : List (Value × Value)) :
    Value.lookup name (entries ++ [(key, v)]) = Value.lookup name entries := by
  induction entries with
  | nil =>
    cases key with
    | str s => exact absurd rfl (noText s)
    | _ => rfl
  | cons entry rest ih =>
    obtain ⟨k, old⟩ := entry
    cases k with
    | str s => simp only [List.cons_append, Value.lookup, ih]
    | _ => exact ih

theorem lookup_putEntry (entries : List (Value × Value)) (entry : Value × Value) :
    Value.lookup name (Config.putEntry entries entry) =
      if entry.1.isText name then some entry.2 else Value.lookup name entries := by
  obtain ⟨key, v⟩ := entry
  cases key with
  | str s =>
    rw [Config.putEntry, lookup_put]
    simp [Value.isText]
  | _ => exact lookup_append_other (by simp) v entries

/-- A value put over another one: two mappings are merged. -/
def merged (old : Option Value) (v : Value) : Value :=
  match old, v with
  | some (.map entries), .map given => .map (Config.updated entries given)
  | _, v => v

/-- At a text a value is put over the one that was there. -/
theorem mergeEntry_text (s : String) (v : Value) (entries : List (Value × Value)) :
    Config.mergeEntry entries (.str s, v) = Config.put s (merged (Value.lookup s entries) v) entries := by
  cases v with
  | map inner =>
    cases found : Value.lookup s entries with
    | none => simp only [Config.mergeEntry, merged, found]
    | some old => cases old <;> simp only [Config.mergeEntry, merged, found]
  | _ => cases Value.lookup s entries with
    | none => rfl
    | some old => cases old <;> rfl

theorem lookup_mergeEntry (entries : List (Value × Value)) (entry : Value × Value) :
    Value.lookup name (Config.mergeEntry entries entry) =
      if entry.1.isText name then some (merged (Value.lookup name entries) entry.2)
      else Value.lookup name entries := by
  obtain ⟨key, v⟩ := entry
  cases key with
  | str s =>
    rw [mergeEntry_text, lookup_put]
    by_cases same : s = name
    · subst same
      simp [Value.isText]
    · simp [Value.isText, same]
  | _ => exact lookup_append_other (by simp) v entries

/-- Entries are put over others one by one, by a step that changes what is found at the key of
its entry alone. With no key twice among them, what is found in the end is the value that is
given, put over the one that was there. -/
theorem lookup_folded {step : List (Value × Value) → Value × Value → List (Value × Value)}
    (joined : Option Value → Value → Value)
    (each : ∀ entries entry, Value.lookup name (step entries entry) =
      if entry.1.isText name then some (joined (Value.lookup name entries) entry.2) else Value.lookup name entries)
    (unique : (textKeys given).Nodup) :
    Value.lookup name (given.foldl step entries) =
      match Value.lookup name given with
      | some v => some (joined (Value.lookup name entries) v)
      | none => Value.lookup name entries := by
  induction given generalizing entries with
  | nil => rfl
  | cons entry rest ih =>
    obtain ⟨key, v⟩ := entry
    cases key with
    | str s =>
      obtain ⟨fresh, unique⟩ := List.nodup_cons.mp unique
      rw [List.foldl_cons, ih unique, each, Value.lookup]
      by_cases here : s = name
      · subst here
        have absent : Value.lookup s rest = none := by
          by_contra present
          obtain ⟨w, found⟩ := Option.ne_none_iff_exists'.mp present
          exact fresh (mem_textKeys.mpr ⟨w, (lookup_iff_mem unique).mp found⟩)
        simp [absent, Value.isText]
      · simp [here, Value.isText]
    | _ => exact (ih unique).trans (by rw [each]; rfl)

/-- A merged configuration has at a name what is given there, put over what it had. -/
theorem lookup_merge (unique : (textKeys given).Nodup) :
    Value.lookup name (given.foldl Config.mergeEntry entries) =
      match Value.lookup name given with
      | some v => some (merged (Value.lookup name entries) v)
      | none => Value.lookup name entries :=
  lookup_folded merged lookup_mergeEntry unique

/-- What is found after an update is given, or was there before. -/
theorem lookup_updated (unique : (textKeys given).Nodup) :
    Value.lookup name (Config.updated entries given) = (Value.lookup name given).or (Value.lookup name entries) := by
  rw [Config.updated, lookup_folded (fun _ v => v) lookup_putEntry unique]
  cases Value.lookup name given <;> rfl

/-! ## What is checked -/

/-- A fault that is reported as a defect of the configuration. -/
def IsDefect (e : Fault) : Prop := ∃ defect, e = .config defect

/-- Null or a mapping. -/
def IsOptionalMap (v : Value) : Prop := v = .null ∨ ∃ entries, v = .map entries

/-- Null or a list. -/
def IsOptionalList (v : Value) : Prop := v = .null ∨ ∃ items, v = .list items

/-- Null or a whole number. -/
def IsOptionalInt (v : Value) : Prop := v = .null ∨ ∃ n, v = .int n

/-- The check gives this answer if a condition holds, and shows a defect if not. -/
def Checks (fine : Prop) (answer : α) (x : Except Fault α) : Prop :=
  (fine ∧ x = .ok answer) ∨ (¬ fine ∧ ∃ e, IsDefect e ∧ x = .error e)

theorem checks_pure (answer : α) : Checks True answer (.ok answer) := .inl ⟨trivial, rfl⟩

theorem checks_fails {answer : α} (fails : ¬ fine) (defect : ConfigDefect) :
    Checks fine answer (.error (.config defect)) := .inr ⟨fails, _, ⟨defect, rfl⟩, rfl⟩

theorem checks_congr {answer : α} {x : Except Fault α} (same : fine ↔ further) :
    Checks fine answer x ↔ Checks further answer x := by
  simp only [Checks, same]

/-- Of two checks the second is made if the first condition holds. -/
theorem checks_bind {first : α} {second : β} {x : Except Fault α} {f : α → Except Fault β}
    (one : Checks fine first x) (other : fine → Checks further second (f first)) :
    Checks (fine ∧ further) second (x >>= f) := by
  rcases one with ⟨holds, rfl⟩ | ⟨fails, e, defect, rfl⟩
  · exact (checks_congr (and_iff_right holds)).mpr (other holds)
  · exact .inr ⟨fun both => fails both.1, e, defect, rfl⟩

theorem checkSection_checks (path : String) (given : Value) (name : String) :
    Checks (IsOptionalMap (given.getD name)) () (Config.checkSection path given name) := by
  unfold Config.checkSection
  split
  · next null => exact .inl ⟨.inl null, rfl⟩
  · next entries found => exact .inl ⟨.inr ⟨entries, found⟩, rfl⟩
  · next noNull noMap => exact checks_fails (by rintro (null | ⟨entries, found⟩) <;> simp_all) _

theorem checkExclusions_checks (path : String) (entries : List (Value × Value)) :
    Checks (∀ entry ∈ entries, IsOptionalList entry.2) () (Config.checkExclusions path entries) := by
  induction entries with
  | nil => exact .inl ⟨by simp, rfl⟩
  | cons entry rest ih =>
    obtain ⟨key, v⟩ := entry
    rw [List.forall_mem_cons]
    cases v with
    | null => exact (checks_congr (and_iff_right (.inl rfl))).mpr ih
    | list items => exact (checks_congr (and_iff_right (.inr ⟨items, rfl⟩))).mpr ih
    | _ => exact checks_fails (by simp [IsOptionalList]) _

/-- A value, or another one if it is null. -/
def filled (v standard : Value) : Value :=
  match v with
  | .null => standard
  | v => v

theorem threshold_checks (sections : List (Value × Value)) (name : String) (standard : Value) :
    Checks (IsOptionalInt ((Value.map sections).getD name)) (filled ((Value.map sections).getD name) standard)
      (Config.threshold sections name standard) := by
  change Checks (IsOptionalInt ((Value.lookup name sections).getD .null))
    (filled ((Value.lookup name sections).getD .null) standard) _
  unfold Config.threshold
  cases (Value.lookup name sections).getD .null with
  | null => exact .inl ⟨.inl rfl, rfl⟩
  | int n => exact .inl ⟨.inr ⟨n, rfl⟩, rfl⟩
  | _ => exact checks_fails (by simp [IsOptionalInt]) _

/-- The names of the sections that are looked at. -/
def sectionNames : List String := ["thresholds", "exclude"]

/-- The names of the thresholds. -/
def thresholdNames : List String := ["cyclo", "maxnesting", "noav", "loc"]

/-- The thresholds of some values, with the standard ones for null. -/
def thresholdsOf (value : String → Value) : Thresholds where
  cyclo := filled (value "cyclo") Thresholds.standard.cyclo
  maxnesting := filled (value "maxnesting") Thresholds.standard.maxnesting
  noav := filled (value "noav") Thresholds.standard.noav
  loc := filled (value "loc") Thresholds.standard.loc

/-- The thresholds of a configuration can be taken if none of them is of another sort than a
whole number. -/
theorem thresholds_checks (config : Value) (shaped : IsOptionalMap (config.getD "thresholds")) :
    Checks (∀ name ∈ thresholdNames, IsOptionalInt ((config.getD "thresholds").getD name))
      (thresholdsOf ((config.getD "thresholds").getD ·)) (Config.thresholds config) := by
  have each (sections : List (Value × Value)) :
      Checks (∀ name ∈ thresholdNames, IsOptionalInt ((Value.map sections).getD name))
        (thresholdsOf ((Value.map sections).getD ·)) (do
          let cyclo ← Config.threshold sections "cyclo" Thresholds.standard.cyclo
          let maxnesting ← Config.threshold sections "maxnesting" Thresholds.standard.maxnesting
          let noav ← Config.threshold sections "noav" Thresholds.standard.noav
          let loc ← Config.threshold sections "loc" Thresholds.standard.loc
          return (⟨cyclo, maxnesting, noav, loc⟩ : Thresholds)) := by
    simp only [thresholdNames, List.forall_mem_cons]
    refine checks_bind (threshold_checks _ _ _) fun _ => checks_bind (threshold_checks _ _ _) fun _ =>
      checks_bind (threshold_checks _ _ _) fun _ => (checks_congr ?_).mp (checks_bind (threshold_checks _ _ _)
        fun _ => checks_pure _)
    simp
  unfold Config.thresholds
  rcases shaped with null | ⟨entries, found⟩
  · rw [null]
    exact each []
  · rw [found]
    cases entries with
    | nil => exact each []
    | cons entry rest => exact each (entry :: rest)

/-- What a document is rejected for as a configuration. -/
inductive Rejected (document : Value) : Prop where
  /-- It counts as something and is no mapping. -/
  | root (given : document.isFalsy = false) (other : document.isMap = false)
  /-- A section is neither null nor a mapping. -/
  | part {name : String} (listed : name ∈ sectionNames) (other : ¬ IsOptionalMap (document.getD name))
  /-- An entry of the exclusions is neither null nor a list. -/
  | exclusion {entry : Value × Value} (member : entry ∈ Config.entries (document.getD "exclude"))
      (other : ¬ IsOptionalList entry.2)
  /-- A threshold is neither null nor a whole number. -/
  | threshold {name : String} (listed : name ∈ thresholdNames)
      (other : ¬ IsOptionalInt ((document.getD "thresholds").getD name))

theorem accepted_root {document : Value} (accepted : ¬ Rejected document) :
    document.isFalsy = true ∨ document.isMap = true := by
  by_contra other
  simp only [not_or, Bool.not_eq_true] at other
  exact accepted (.root other.1 other.2)

/-- A document is accepted if all that is looked at has its shape. -/
theorem accepted_iff {document : Value} (mapping : document.isFalsy = true ∨ document.isMap = true) :
    ¬ Rejected document ↔ IsOptionalMap (document.getD "thresholds") ∧ IsOptionalMap (document.getD "exclude") ∧
      (∀ entry ∈ Config.entries (document.getD "exclude"), IsOptionalList entry.2) ∧
      ∀ name ∈ thresholdNames, IsOptionalInt ((document.getD "thresholds").getD name) := by
  constructor
  · intro accepted
    refine ⟨?_, ?_, fun entry member => ?_, fun name listed => ?_⟩ <;> by_contra other
    · exact accepted (.part (List.mem_cons_self : "thresholds" ∈ sectionNames) other)
    · exact accepted (.part (List.mem_cons_of_mem _ List.mem_cons_self : "exclude" ∈ sectionNames) other)
    · exact accepted (.exclusion member other)
    · exact accepted (.threshold listed other)
  · rintro ⟨thresholds, exclude, lists, ints⟩ rejected
    cases rejected with
    | root given other => simp_all
    | part listed other =>
      rcases List.mem_pair.mp listed with rfl | rfl
      · exact other thresholds
      · exact other exclude
    | exclusion member other => exact other (lists _ member)
    | threshold listed other => exact other (ints _ listed)

/-! ## Sections of a merged configuration -/

/-- A document merged over the built-in configuration. -/
def overStandard (document : Value) : Value :=
  .map ((Config.entries document).foldl Config.mergeEntry (Config.entries Config.standard))

variable {document : Value}

theorem get_entries (document : Value) (name : String) :
    Value.lookup name (Config.entries document) = document.get? name := by
  cases document <;> rfl

theorem entries_unique (unique : hasUniqueKeys document = true) :
    hasUniqueKeys (.map (Config.entries document)) = true := by
  cases document with
  | map entries => exact unique
  | _ => rfl

theorem overStandard_get (unique : hasUniqueKeys document = true) (name : String) :
    (overStandard document).get? name = match document.get? name with
      | some v => some (merged (Config.standard.get? name) v)
      | none => Config.standard.get? name :=
  (lookup_merge (keys_unique (entries_unique unique))).trans (by rw [get_entries]; rfl)

/-- Merged over the built-in one, a configuration has thresholds. -/
theorem overStandard_filled (unique : hasUniqueKeys document = true) : (overStandard document).isFalsy = false := by
  have found := overStandard_get unique "thresholds"
  unfold overStandard at found ⊢
  cases config : (Config.entries document).foldl Config.mergeEntry (Config.entries Config.standard) with
  | nil =>
    rw [config] at found
    cases written : document.get? "thresholds" <;> rw [written] at found <;> cases found
  | cons entry rest => rfl

theorem standard_section (listed : name ∈ sectionNames) : ∃ inner, Config.standard.get? name = some (.map inner) := by
  rcases List.mem_pair.mp listed with rfl | rfl
  · exact ⟨_, rfl⟩
  · exact ⟨_, rfl⟩

/-- A section is null, as it is given, or a mapping whose values are those that are given, or
else the built-in ones. -/
theorem overStandard_section (unique : hasUniqueKeys document = true) (listed : name ∈ sectionNames)
    (shaped : IsOptionalMap (document.getD name)) :
    ((overStandard document).getD name = .null ∧ document.getD name = .null) ∨
      ∃ inner, (overStandard document).getD name = .map inner ∧ ∀ key, Value.lookup key inner =
        ((document.getD name).get? key).or ((Config.standard.getD name).get? key) := by
  obtain ⟨standard, own⟩ := standard_section listed
  have found := overStandard_get unique name
  rw [own] at found
  cases written : document.get? name with
  | none =>
    rw [written] at found
    exact .inr ⟨standard, by rw [Value.getD, found]; rfl, fun key => by
      rw [Value.getD, Value.getD, written, own]
      rfl⟩
  | some v =>
    have given : document.getD name = v := by rw [Value.getD, written]; rfl
    rw [written] at found
    rw [given] at shaped ⊢
    rcases shaped with rfl | ⟨inner, rfl⟩
    · exact .inl ⟨by rw [Value.getD, found]; rfl, rfl⟩
    · refine .inr ⟨Config.updated standard inner, by rw [Value.getD, found]; rfl, fun key => ?_⟩
      rw [Value.getD, own]
      exact lookup_updated (section_unique (entries_unique unique) ((get_entries document name).trans written))

/-- Under a name of a section there is what is given there; where nothing is given there may
be what the built-in section has. -/
theorem overStandard_value (unique : hasUniqueKeys document = true) (listed : name ∈ sectionNames)
    (shaped : IsOptionalMap (document.getD name)) (key : String) :
    ((overStandard document).getD name).getD key = (document.getD name).getD key ∨
      (document.getD name).getD key = .null ∧
        ((overStandard document).getD name).getD key = (Config.standard.getD name).getD key := by
  rcases overStandard_section unique listed shaped with ⟨null, own⟩ | ⟨inner, found, values⟩
  · exact .inl (by rw [null, own])
  · have value : ((overStandard document).getD name).getD key =
        (((document.getD name).get? key).or ((Config.standard.getD name).get? key)).getD .null := by
      rw [found, ← values]
      rfl
    rw [value]
    unfold Value.getD
    cases ((document.get? name).getD .null).get? key with
    | none => exact .inr ⟨rfl, rfl⟩
    | some v => exact .inl rfl

/-- The built-in configuration excludes nothing, by lists that are empty. -/
theorem standard_excludes (name : String) : (Config.standard.getD "exclude").getD name = .null ∨
    (Config.standard.getD "exclude").getD name = .list [] := by
  have found : (Config.standard.getD "exclude").getD name = (Value.lookup name [(.str "directories", .list []),
      (.str "extensions", .list []), (.str "patterns", .list [])]).getD .null := rfl
  rw [found]
  simp only [Value.lookup]
  repeat' split
  all_goals simp

theorem overStandard_shaped (unique : hasUniqueKeys document = true) (listed : name ∈ sectionNames)
    (shaped : IsOptionalMap (document.getD name)) : IsOptionalMap ((overStandard document).getD name) := by
  rcases overStandard_section unique listed shaped with ⟨null, _⟩ | ⟨inner, found, _⟩
  · exact .inl null
  · exact .inr ⟨inner, found⟩

/-- A threshold that is given is kept, and so is what comes of it where it is not. -/
theorem overStandard_threshold (unique : hasUniqueKeys document = true)
    (shaped : IsOptionalMap (document.getD "thresholds")) (name : String) {n : Int}
    (standard : (Config.standard.getD "thresholds").getD name = .int n) :
    (IsOptionalInt (((overStandard document).getD "thresholds").getD name) ↔
      IsOptionalInt ((document.getD "thresholds").getD name)) ∧
    filled (((overStandard document).getD "thresholds").getD name) (.int n) =
      filled ((document.getD "thresholds").getD name) (.int n) := by
  rcases overStandard_value unique (by simp [sectionNames]) shaped name with same | ⟨null, same⟩
  · rw [same]
    exact ⟨Iff.rfl, rfl⟩
  · rw [same, null, standard]
    exact ⟨iff_of_true (.inr ⟨n, rfl⟩) (.inl rfl), rfl⟩

/-- Where the thresholds can be taken, they are those that are given, and the standard ones for
the rest. -/
theorem overStandard_thresholds (unique : hasUniqueKeys document = true)
    (shaped : IsOptionalMap (document.getD "thresholds")) :
    Checks (∀ name ∈ thresholdNames, IsOptionalInt ((document.getD "thresholds").getD name))
      (thresholdsOf ((document.getD "thresholds").getD ·)) (Config.thresholds (overStandard document)) := by
  have cyclo := overStandard_threshold unique shaped "cyclo" rfl
  have maxnesting := overStandard_threshold unique shaped "maxnesting" rfl
  have noav := overStandard_threshold unique shaped "noav" rfl
  have loc := overStandard_threshold unique shaped "loc" rfl
  have ints : (∀ name ∈ thresholdNames, IsOptionalInt (((overStandard document).getD "thresholds").getD name)) ↔
      ∀ name ∈ thresholdNames, IsOptionalInt ((document.getD "thresholds").getD name) := by
    simp [thresholdNames, cyclo.1, maxnesting.1, noav.1, loc.1]
  have taken : thresholdsOf (((overStandard document).getD "thresholds").getD ·) =
      thresholdsOf ((document.getD "thresholds").getD ·) :=
    Thresholds.mk.injEq .. ▸ ⟨cyclo.2, maxnesting.2, noav.2, loc.2⟩
  have shape := overStandard_shaped unique (by simp [sectionNames]) shaped
  exact taken ▸ (checks_congr ints).mp (thresholds_checks (overStandard document) shape)

/-! ## Configurations that are loaded -/

/-- A document with no key twice becomes the configuration that is merged of it, unless it is
rejected. -/
theorem ofDocument_checks (path : String) (unique : hasUniqueKeys document = true) :
    Checks (¬ Rejected document) (overStandard document) (Config.ofDocument path document) := by
  -- What counts as nothing is taken for an empty mapping, so all that is accepted goes this way.
  have mapping (is : document.isFalsy = true ∨ document.isMap = true) (given : List (Value × Value))
      (same : Config.entries document = given) : Checks (¬ Rejected document) (overStandard document) (do
        Config.checkSection path (.map given) "thresholds"
        Config.checkSection path (.map given) "exclude"
        Config.checkExclusions path (Config.entries ((Value.map given).getD "exclude"))
        let config := Value.map (given.foldl Config.mergeEntry (Config.entries Config.standard))
        let _ ← Config.thresholds config
        return config) := by
    subst same
    have own (name : String) : (Value.map (Config.entries document)).getD name = document.getD name :=
      congrArg (fun found : Option Value => found.getD .null) (get_entries document name)
    have one (name : String) : Checks (IsOptionalMap (document.getD name)) ()
        (Config.checkSection path (.map (Config.entries document)) name) :=
      own name ▸ checkSection_checks path _ name
    rw [checks_congr (accepted_iff is), own]
    refine checks_bind (one "thresholds") fun shaped => checks_bind (one "exclude") fun _ =>
      checks_bind (checkExclusions_checks _ _) fun _ => ?_
    exact (checks_congr (and_iff_left trivial)).mp
      (checks_bind (overStandard_thresholds unique shaped) fun _ => checks_pure _)
  unfold Config.ofDocument
  by_cases falsy : document.isFalsy = true
  · have empty : Config.entries document = [] := by
      cases document <;> simp_all [Config.entries, Value.isFalsy]
    simp only [falsy, if_true]
    exact mapping (.inl falsy) [] empty
  · simp only [falsy]
    cases document with
    | map entries => exact mapping (.inr rfl) entries rfl
    | _ => exact checks_fails (fun accepted => accepted (.root (by simpa using falsy) rfl)) _

/-- What can be relied on: there is something in the configuration, its thresholds can
be taken, and what it excludes under any name is null or a list. -/
structure Sound (config : Value) : Prop where
  filled : config.isFalsy = false
  thresholds : ∃ t, Config.thresholds config = .ok t
  lists : ∀ name, IsOptionalList ((config.getD "exclude").getD name)

/-- A document that is not rejected becomes a sound configuration. -/
theorem overStandard_sound (unique : hasUniqueKeys document = true) (accepted : ¬ Rejected document) :
    Sound (overStandard document) := by
  obtain ⟨thresholds, exclude, lists, ints⟩ := (accepted_iff (accepted_root accepted)).mp accepted
  refine ⟨overStandard_filled unique, ?_, fun name => ?_⟩
  · rcases overStandard_thresholds unique thresholds with ⟨_, taken⟩ | ⟨fails, _⟩
    · exact ⟨_, taken⟩
    · exact absurd ints fails
  · rcases overStandard_value unique (by simp [sectionNames]) exclude name with same | ⟨_, same⟩
    · rw [same]
      rcases exclude with null | ⟨inner, found⟩
      · rw [null]
        exact .inl rfl
      · rw [found] at lists ⊢
        change IsOptionalList ((Value.lookup name inner).getD .null)
        cases listed : Value.lookup name inner with
        | none => exact .inl rfl
        | some v => exact lists _ (mem_of_lookup listed)
    · rw [same]
      exact (standard_excludes name).imp id fun empty => ⟨[], empty⟩

/-! ## Files -/

/-- A fault of a file that cannot be read as text. -/
def Unreadable (e : Fault) : Prop :=
  e.category ∈ [FaultCategory.fileMissing, .pathThroughFile, .fileIsDirectory, .undecodable]

/-- Bytes are a text, or cannot be decoded. -/
theorem decode_ends (bytes : List UInt8) :
    Ends (fun _ => True) (fun e => e.category = .undecodable) (Text.decode bytes) := by
  have from' (steps : Nat) (done : List Char) (position : Nat) (bytes : List UInt8) :
      Ends (fun _ => True) (fun e => e.category = .undecodable) (Text.decodeFrom steps done position bytes) := by
    induction steps generalizing done position bytes with
    | zero => exact .ok trivial
    | succ steps ih =>
      cases bytes with
      | nil => exact .ok trivial
      | cons b rest =>
        unfold Text.decodeFrom
        split
        · exact .error rfl
        · split
          · exact ih _ _ _
          · exact .error rfl
  exact from' _ _ _ _

theorem decodeParts_ends (size steps : Nat) (held bytes : List UInt8) :
    Ends (fun _ => True) (fun e => e.category = .undecodable) (Text.decodeParts size steps held bytes) := by
  induction steps generalizing held bytes with
  | zero => exact decode_ends held
  | succ steps ih =>
    have part := decode_ends (held ++ bytes.take size)
    unfold Text.decodeParts
    split
    · exact decode_ends held
    · dsimp only
      split
      · exact ends_bind (ih _ _) fun _ _ => .ok trivial
      · split
        · exact ends_bind (ih _ _) fun _ _ => .ok trivial
        · exact .error rfl
      · next e failed =>
        rw [failed] at part
        cases part with
        | error sorted => exact .error sorted

/-- A file is read as text, or it is no file, or its bytes are none. -/
theorem textInParts_ends (files : Files) (path : FilePath) :
    Ends (fun _ => ∃ bytes, files.find path = .ok (.file bytes))
      (fun e => Unreadable e ∧ (e.category = .fileMissing ↔ files.find path = .error .missing) ∧
        ((∃ bytes, files.find path = .ok (.file bytes)) → e.category = .undecodable))
      (files.textInParts path) := by
  unfold Files.textInParts Files.bytes
  cases found : files.find path with
  | error absence =>
    cases absence with
    | missing => exact .error ⟨by simp [Unreadable, Fault.category], by simp [Fault.category], by simp⟩
    | throughFile => exact .error ⟨by simp [Unreadable, Fault.category], by simp [Fault.category], by simp⟩
  | ok entry =>
    cases entry with
    | directory entries => exact .error ⟨by simp [Unreadable, Fault.category], by simp [Fault.category], by simp⟩
    | file bytes =>
      have decoded := decodeParts_ends Text.partSize (bytes.length / Text.partSize + 1) [] bytes
      change Ends _ _ (Text.decodeInParts bytes >>= fun text => .ok (Text.unifyNewlines text))
      unfold Text.decodeInParts
      cases parts : Text.decodeParts Text.partSize (bytes.length / Text.partSize + 1) [] bytes with
      | ok text => exact .ok ⟨bytes, rfl⟩
      | error e =>
        rw [parts] at decoded
        cases decoded with
        | error sorted => exact .error ⟨by simp [Unreadable, sorted], by simp [sorted], fun _ => sorted⟩

/-- The file is no text, or a value of the document in it cannot be built. -/
def Unread (files : Files) (path : FilePath) (e : Fault) : Prop :=
  files.textInParts path = .error e ∨
    ∃ text, files.textInParts path = .ok text ∧ Yaml.read text = .error (.fault e)

variable {files : Files} {path : FilePath} {e : Fault}

theorem load_unread (unread : Unread files path e) : Config.load files path = .error e := by
  rcases unread with failed | ⟨text, readable, stopped⟩
  · rw [Config.load, failed]
    rfl
  · simp only [Config.load, readable, Config.documentOf, stopped, bind, Except.bind]

theorem load_missing (absent : files.find path = .error .missing) :
    Config.load files path = .error (.fileMissing (Text.quoted path.text)) := by
  refine load_unread (.inl ?_)
  rw [Files.textInParts, Files.bytes, absent]
  rfl

/-- Loading ends with a sound configuration or with a defect of it, unless the file is
no text or a value in it cannot be built. -/
theorem load_ends (files : Files) (path : FilePath) :
    Ends Sound (fun e => IsDefect e ∨ Unread files path e) (Config.load files path) := by
  unfold Config.load
  cases readable : files.textInParts path with
  | error e => exact .error (.inr (.inl readable))
  | ok text =>
    change Ends Sound _ (Config.documentOf path text >>= Config.ofDocument path.text)
    unfold Config.documentOf
    cases read : Yaml.read text with
    | ok document =>
      change Ends Sound _ (Config.ofDocument path.text document)
      rcases ofDocument_checks path.text (read_unique read) with ⟨accepted, loaded⟩ | ⟨_, e, defect, refused⟩
      · rw [loaded]
        exact .ok (overStandard_sound (read_unique read) accepted)
      · rw [refused]
        exact .error (.inl defect)
    | error refusal =>
      cases refusal with
      | malformed => exact .error (.inl ⟨_, rfl⟩)
      | fault e => exact .error (.inr (.inr ⟨text, readable, read⟩))

/-- What stops loading other than a defect is a file that is no text, or a value that
cannot be built; of a file that is there, the bytes or a value. -/
theorem unread_sorted (unread : Unread files path e) :
    (e.category = .fileMissing ↔ files.find path = .error .missing) ∧ (Unreadable e ∨ Stops e) ∧
      ((∃ bytes, files.find path = .ok (.file bytes)) → e.category = .undecodable ∨ Stops e) := by
  have read := textInParts_ends files path
  rcases unread with failed | ⟨text, readable, stopped⟩
  · rw [failed] at read
    cases read with
    | error sorted => exact ⟨sorted.2.1, .inl sorted.1, fun present => .inl (sorted.2.2 present)⟩
  · have stops : Stops e := read_ends text _ stopped
    rw [readable] at read
    cases read with
    | ok present =>
      obtain ⟨bytes, found⟩ := present
      refine ⟨⟨fun missing => ?_, fun absent => ?_⟩, .inr stops, fun _ => .inr stops⟩
      · simp [Stops, missing] at stops
      · rw [absent] at found
        cases found

end MethodLint.ConfigLoading
