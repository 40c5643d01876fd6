import MethodLint.Proofs.DocumentReading

/-! Keys of the mappings in a document. Whatever is built of nodes has no text as a key
twice, in none of the mappings in it: an entry that is put among others takes the place of
the one with its key, and all values are built in the same way, those of entries that are
taken from other mappings too. -/
namespace MethodLint.DocumentKeys
open Yaml Outcomes NormalDocuments DocumentReading

variable {α β : Type} {name : String} {key v : Value} {items : List Value} {entries : List (Value × Value)}

/-! ## Entries that are put among others -/

theorem textKeys_cons (key v : Value) (entries : List (Value × Value)) :
    textKeys ((key, v) :: entries) = textKeys [(key, v)] ++ textKeys entries :=
  textKeys_append [(key, v)] entries

theorem mem_putKey (listed : name ∈ textKeys (Value.putKey key v entries)) :
    key = .str name ∨ name ∈ textKeys entries := by
  induction entries with
  | nil =>
    obtain ⟨w, member⟩ := mem_textKeys.mp listed
    simp only [Value.putKey, List.mem_singleton, Prod.mk.injEq] at member
    exact .inl member.1.symm
  | cons entry rest ih =>
    obtain ⟨k, old⟩ := entry
    rw [textKeys_cons, List.mem_append]
    rw [Value.putKey] at listed
    split at listed
    · exact .inr (List.mem_append.mp (textKeys_cons k v rest ▸ listed))
    · rcases List.mem_append.mp (textKeys_cons k old _ ▸ listed) with here | later
      · exact .inr (.inl here)
      · exact (ih later).imp_right .inr

/-- An entry that is put among others repeats no text among their keys. -/
theorem unique_putKey (unique : (textKeys entries).Nodup) : (textKeys (Value.putKey key v entries)).Nodup := by
  induction entries with
  | nil => cases key <;> simp [Value.putKey, textKeys]
  | cons entry rest ih =>
    obtain ⟨k, old⟩ := entry
    rw [textKeys_cons, List.nodup_append] at unique
    obtain ⟨first, later, apart⟩ := unique
    rw [Value.putKey]
    split
    · rw [textKeys_cons, List.nodup_append]
      exact ⟨first, later, apart⟩
    · next different =>
      rw [textKeys_cons, List.nodup_append]
      refine ⟨first, ih later, fun s here t listed same => ?_⟩
      subst same
      rcases mem_putKey listed with new | known
      · obtain ⟨w, member⟩ := mem_textKeys.mp here
        simp only [List.mem_singleton, Prod.mk.injEq] at member
        rw [← member.1, new] at different
        exact different (by simp [Value.isSameKey, Value.number?])
      · exact apart s here s known rfl

/-- The values of entries with one more are theirs and the new one. -/
theorem values_putKey (own : entriesHaveUniqueKeys entries = true) (new : hasUniqueKeys v = true) :
    entriesHaveUniqueKeys (Value.putKey key v entries) = true := by
  induction entries with
  | nil => simpa [Value.putKey, entriesHaveUniqueKeys] using new
  | cons entry rest ih =>
    obtain ⟨k, old⟩ := entry
    obtain ⟨first, later⟩ := Bool.and_eq_true_iff.mp own
    rw [Value.putKey]
    split
    · exact Bool.and_eq_true_iff.mpr ⟨new, later⟩
    · exact Bool.and_eq_true_iff.mpr ⟨first, ih later⟩

theorem haveUniqueKeys_iff : haveUniqueKeys items = true ↔ ∀ item ∈ items, hasUniqueKeys item = true := by
  induction items with
  | nil => simp [haveUniqueKeys]
  | cons item rest ih => rw [haveUniqueKeys, Bool.and_eq_true, ih, List.forall_mem_cons]

/-! ## Values under construction -/

theorem map_ok {x : Built α} {f : α → β} {b : β} : x.map f = .ok b ↔ ∃ a, x = .ok a ∧ f a = b := by
  cases x <;> simp [Except.map]

theorem inside_ok {x : Built α} {a : α} (built : Built.inside x = .ok a) : x = .ok a := by
  cases x with
  | ok b =>
    cases built
    rfl
  | error e => cases built

theorem here_ok {x : Result α} {a : α} (built : Built.here x = .ok a) : x = .ok a := by
  cases x with
  | ok b =>
    cases built
    rfl
  | error e => cases built

theorem both_ok {x : Built α} {y : Built β} {pair : α × β} (built : Built.both x y = .ok pair) :
    x = .ok pair.1 ∧ y = .ok pair.2 := by
  cases x <;> cases y <;> cases built
  exact ⟨rfl, rfl⟩

/-- What all come to is what each comes to. -/
theorem all_ok {xs : List (Built α)} {answers : List α} (built : Built.all xs = .ok answers) :
    xs = answers.map .ok := by
  induction xs generalizing answers with
  | nil =>
    cases built
    rfl
  | cons x rest ih =>
    obtain ⟨pair, read, rfl⟩ := map_ok.mp built
    obtain ⟨first, later⟩ := both_ok read
    rw [List.map_cons, ← first, ← ih later]

/-- A value in which no mapping has a key twice, if there is one. -/
def BuildsUnique (x : Built Value) : Prop := ∀ v, x = .ok v → hasUniqueKeys v = true

theorem buildsUnique_all {xs : List (Built Value)} (each : ∀ x ∈ xs, BuildsUnique x)
    (built : Built.all xs = .ok items) : haveUniqueKeys items = true := by
  have same := all_ok built
  exact haveUniqueKeys_iff.mpr fun item member => each (.ok item) (same ▸ List.mem_map_of_mem member) item rfl

/-- A mapping of entries has no key twice, and neither has a value in it. -/
theorem mapOf_unique {found : List Entry} (each : ∀ entry ∈ found, BuildsUnique entry.2)
    (built : mapOf found = .ok entries) : hasUniqueKeys (.map entries) = true := by
  have grown (pairs done : List (Value × Value)) (values : ∀ pair ∈ pairs, hasUniqueKeys pair.2 = true)
      (unique : (textKeys done).Nodup) (own : entriesHaveUniqueKeys done = true) :
      hasUniqueKeys (.map (pairs.foldl (fun done pair => Value.putKey pair.1 pair.2 done) done)) = true := by
    induction pairs generalizing done with
    | nil => exact Bool.and_eq_true_iff.mpr ⟨decide_eq_true unique, own⟩
    | cons pair rest ih =>
      obtain ⟨first, later⟩ := List.forall_mem_cons.mp values
      exact ih _ later (unique_putKey unique) (values_putKey own first)
  obtain ⟨pairs, read, rfl⟩ := map_ok.mp built
  -- Each pair was built of an entry, so its value has no key twice.
  have same := all_ok read
  refine grown pairs [] (fun pair member => ?_) List.nodup_nil rfl
  have listed : (.ok pair : Built (Value × Value)) ∈ pairs.map .ok := List.mem_map_of_mem member
  rw [← same] at listed
  obtain ⟨entry, member, both⟩ := List.mem_map.mp listed
  exact each entry member pair.2 (both_ok both).2

/-! ## Values of nodes -/

/-- Entries are found whose values have no key twice, if any are found. -/
def GivesUnique {γ : Type} (entriesIn : γ → List Entry) (x : Result γ) : Prop :=
  ∀ a, x = .ok a → ∀ entry ∈ entriesIn a, BuildsUnique entry.2

theorem givesUnique_bind {γ δ : Type} {entriesIn : γ → List Entry} {entriesOut : δ → List Entry}
    {x : Result γ} {f : γ → Result δ} (first : GivesUnique entriesIn x)
    (second : ∀ a, (∀ entry ∈ entriesIn a, BuildsUnique entry.2) → GivesUnique entriesOut (f a)) :
    GivesUnique entriesOut (x >>= f) := by
  cases x with
  | ok a => exact second a (first a rfl)
  | error r => exact nofun

theorem text_unique {tag : Tag} {text : String} : BuildsUnique (Built.here (textValue tag text)) :=
  fun v built => (textValue_ends tag text).2 v (here_ok built)

theorem malformed_unique : BuildsUnique (Built.here malformed) := nofun

theorem inside_unique {x : Built Value} (unique : BuildsUnique x) : BuildsUnique (Built.inside x) :=
  fun v built => unique v (inside_ok built)

theorem list_unique {xs : List (Built Value)} (each : ∀ x ∈ xs, BuildsUnique x) :
    BuildsUnique ((Built.all xs).map .list) := by
  intro v built
  obtain ⟨items, read, rfl⟩ := map_ok.mp built
  exact buildsUnique_all each read

mutual

/-- No mapping in the value of a node has a key twice. -/
theorem valueOf_unique : (node : Yaml.Node) → BuildsUnique (valueOf node)
  | .scalar tag text => by
    unfold valueOf
    split
    · exact inside_unique malformed_unique
    · exact text_unique
  | .list tag items => by
    unfold valueOf
    split
    · exact inside_unique (list_unique (valuesOf_unique items))
    · exact inside_unique (list_unique (pairsOf_unique items))
    · exact inside_unique (list_unique (pairsOf_unique items))
    · exact inside_unique malformed_unique
    · exact inside_unique malformed_unique
    · exact malformed_unique
  | .map tag entries => by
    have given := entriesOf_unique entries
    unfold valueOf
    split
    · refine inside_unique fun v built => ?_
      obtain ⟨found, read, built⟩ := bind_ok_iff.mp built
      obtain ⟨own, mapped, built⟩ := bind_ok_iff.mp built
      cases built
      exact mapOf_unique (given found (here_ok read)) mapped
    · refine inside_unique fun v built => ?_
      obtain ⟨found, read, built⟩ := bind_ok_iff.mp built
      obtain ⟨own, mapped, built⟩ := bind_ok_iff.mp built
      cases built
      rfl
    · exact inside_unique malformed_unique
    · exact inside_unique malformed_unique
    · exact inside_unique malformed_unique
    · split
      · exact text_unique
      · exact malformed_unique

theorem valuesOf_unique : (nodes : List Yaml.Node) → ∀ x ∈ valuesOf nodes, BuildsUnique x
  | [] => by simp [valuesOf]
  | node :: rest => by
    rw [valuesOf]
    exact List.forall_mem_cons.mpr ⟨valueOf_unique node, valuesOf_unique rest⟩

theorem pairsOf_unique : (nodes : List Yaml.Node) → ∀ x ∈ pairsOf nodes, BuildsUnique x
  | [] => by simp [pairsOf]
  | node :: rest => by
    rw [pairsOf]
    exact List.forall_mem_cons.mpr ⟨pairOf_unique node, pairsOf_unique rest⟩

theorem pairOf_unique : (node : Yaml.Node) → BuildsUnique (pairOf node)
  | .map tag [(key, value)] => by
    rw [pairOf]
    intro v built
    obtain ⟨pair, read, rfl⟩ := map_ok.mp built
    obtain ⟨first, second⟩ := both_ok read
    exact haveUniqueKeys_iff.mpr (by
      simpa using ⟨valueOf_unique key pair.1 first, valueOf_unique value pair.2 second⟩)
  | .scalar _ _ | .list _ _ | .map _ [] | .map _ (_ :: _ :: _) => by
    simp only [pairOf]
    exact malformed_unique

theorem entriesOf_unique : (entries : List (Yaml.Node × Yaml.Node)) → GivesUnique Entries.all (entriesOf entries)
  | [] => by
    rw [entriesOf]
    intro found same
    cases same
    simp [Entries.all]
  | (key, value) :: rest => by
    have later := entriesOf_unique rest
    have own := valueOf_unique value
    unfold entriesOf
    split
    · refine givesUnique_bind (takenFrom_unique value) fun first firstUnique => ?_
      refine givesUnique_bind later fun others othersUnique found same => ?_
      cases same
      simp only [Entries.all, List.append_assoc] at othersUnique ⊢
      exact List.forall_mem_append.mpr ⟨firstUnique, othersUnique⟩
    · refine givesUnique_bind later fun others othersUnique found same => ?_
      cases same
      obtain ⟨taken, others⟩ := List.forall_mem_append.mp othersUnique
      exact List.forall_mem_append.mpr ⟨taken, List.forall_mem_cons.mpr ⟨own, others⟩⟩

theorem takenFrom_unique : (node : Yaml.Node) → GivesUnique id (takenFrom node)
  | .map tag entries => by
    rw [takenFrom]
    refine givesUnique_bind (entriesOf_unique entries) fun own ownUnique found same => ?_
    cases same
    exact ownUnique
  | .list tag items => by
    rw [takenFrom]
    exact takenFromEach_unique items
  | .scalar _ _ => by
    rw [takenFrom]
    exact nofun

theorem takenFromEach_unique : (nodes : List Yaml.Node) → GivesUnique id (takenFromEach nodes)
  | [] => by
    rw [takenFromEach]
    intro found same
    cases same
    simp
  | .map tag entries :: rest => by
    rw [takenFromEach]
    refine givesUnique_bind (entriesOf_unique entries) fun first firstUnique => ?_
    refine givesUnique_bind (takenFromEach_unique rest) fun others othersUnique found same => ?_
    cases same
    exact List.forall_mem_append.mpr ⟨othersUnique, firstUnique⟩
  | .scalar _ _ :: _ | .list _ _ :: _ => by
    rw [takenFromEach]
    · exact nofun
    · simp

end

/-- No mapping in a document that is read has a key twice. -/
theorem read_unique {text : String} (read : Yaml.read text = .ok v) : hasUniqueKeys v = true := by
  unfold Yaml.read at read
  cases found : Yaml.Node.ofTokens? (.ofText text.toList) with
  | error r => simp [found, Bind.bind, Except.bind] at read
  | ok node? =>
    cases node? with
    | none =>
      simp only [found, Bind.bind, Except.bind, pure, Except.pure, Except.ok.injEq] at read
      exact read ▸ rfl
    | some node =>
      cases built : valueOf node with
      | error e => simp [found, built, Bind.bind, Except.bind, Except.mapError] at read
      | ok w =>
        simp only [found, built, Bind.bind, Except.bind, Except.mapError, Except.ok.injEq] at read
        exact valueOf_unique node v (read ▸ built)

/-- So a document that is a mapping has no text as a key twice. -/
theorem keys_unique (unique : hasUniqueKeys (.map entries) = true) : (textKeys entries).Nodup :=
  of_decide_eq_true (Bool.and_eq_true_iff.mp unique).1

/-- Nor has a mapping that it has under a name. -/
theorem section_unique {inner : List (Value × Value)} (unique : hasUniqueKeys (.map entries) = true)
    (found : Value.lookup name entries = some (.map inner)) : (textKeys inner).Nodup :=
  keys_unique (unique_of_lookup (Bool.and_eq_true_iff.mp unique).2 found)

end MethodLint.DocumentKeys
