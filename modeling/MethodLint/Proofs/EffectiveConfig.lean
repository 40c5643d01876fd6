import MethodLint.Proofs.ConfigSafety

/-! The configuration that is in effect. What a command sets goes over what its file gives,
and that over the built-in configuration, each value by itself: a null in the file is as good
as nothing, and so is a section that is null. A document is looked at before anything is put
over it, so that no command makes up for a defect in it. -/
namespace MethodLint.EffectiveConfig
open NormalDocuments DocumentKeys Outcomes FileSelection ConfigLoading ConfigSafety CommandLine

variable {name : String} {document config : Value} {entries given : List (Value × Value)} {a : Arguments}

/-! ## Entries that are no sections -/

/-- An entry of a configuration that is none of the sections that are looked at. -/
def isFurther (entry : Value × Value) : Bool := !sectionNames.any fun name => entry.1.isText name

/-- The entries of a configuration that are only carried along. -/
def furtherEntries (config : Value) : List (Value × Value) := (Config.entries config).filter isFurther

theorem section_entry (listed : name ∈ sectionNames) (v : Value) : isFurther (.str name, v) = false := by
  simp [isFurther, Value.isText, listed]

theorem further_put (listed : name ∈ sectionNames) (v : Value) (entries : List (Value × Value)) :
    (Config.put name v entries).filter isFurther = entries.filter isFurther := by
  fun_induction Config.put name v entries with
  | case1 => simp [section_entry listed]
  | case2 old rest => simp [section_entry listed]
  | case3 k old rest other ih => simp only [List.filter_cons, ih]
  | case4 entry rest noText ih => simp only [List.filter_cons, ih]

theorem put_absent (absent : Value.lookup name entries = none) (v : Value) :
    Config.put name v entries = entries ++ [(.str name, v)] := by
  fun_induction Config.put name v entries with
  | case1 => rfl
  | case2 old rest => simp [Value.lookup] at absent
  | case3 k old rest other ih =>
    rw [Value.lookup, if_neg other] at absent
    rw [ih absent, List.cons_append]
  | case4 entry rest noText ih =>
    obtain ⟨k, old⟩ := entry
    have skip : Value.lookup name ((k, old) :: rest) = Value.lookup name rest := by
      cases k with
      | str key => exact absurd rfl (noText key old)
      | _ => rfl
    rw [ih (skip ▸ absent), List.cons_append]

/-- A merge carries along what is given and is no section, as it is and in its order. -/
theorem further_merge (unique : (textKeys given).Nodup)
    (fresh : ∀ name ∈ textKeys given, name ∉ sectionNames → Value.lookup name entries = none) :
    (given.foldl Config.mergeEntry entries).filter isFurther =
      entries.filter isFurther ++ given.filter isFurther := by
  induction given generalizing entries with
  | nil => simp
  | cons entry rest ih =>
    obtain ⟨key, v⟩ := entry
    rw [textKeys_cons] at unique fresh
    obtain ⟨_, later, apart⟩ := List.nodup_append.mp unique
    have step : (Config.mergeEntry entries (key, v)).filter isFurther =
        entries.filter isFurther ++ [(key, v)].filter isFurther := by
      cases key with
      | str s =>
        rw [mergeEntry_text]
        by_cases listed : s ∈ sectionNames
        · rw [further_put listed, List.filter_cons, section_entry listed]
          simp
        · have absent := fresh s (List.mem_append_left _ (mem_textKeys.mpr ⟨v, List.mem_cons_self⟩)) listed
          rw [absent, put_absent absent, List.filter_append]
          rfl
      | _ => exact List.filter_append ..
    -- No key is given twice, so a later one is still new after this entry.
    have still (name : String) (member : name ∈ textKeys rest) (other : name ∉ sectionNames) :
        Value.lookup name (Config.mergeEntry entries (key, v)) = none := by
      have noKey : ¬ key.isText name = true := by
        intro same
        cases key with
        | str s =>
          have same : s = name := by simpa [Value.isText] using same
          subst same
          exact apart s (mem_textKeys.mpr ⟨v, List.mem_cons_self⟩) s member rfl
        | _ => cases same
      rw [lookup_mergeEntry, if_neg noKey]
      exact fresh name (List.mem_append_right _ member) other
    rw [List.foldl_cons, ih later still, step, List.append_assoc, ← List.filter_append]
    rfl

theorem overStandard_further (unique : hasUniqueKeys document = true) :
    furtherEntries (overStandard document) = furtherEntries document := by
  have absent (name : String) (_ : name ∈ textKeys (Config.entries document)) (other : name ∉ sectionNames) :
      Value.lookup name (Config.entries Config.standard) = none := by
    simp only [sectionNames, List.mem_cons, List.not_mem_nil, or_false, not_or] at other
    simp [Config.standard, Config.entries, Value.record, Value.lookup, Ne.symm other.1, Ne.symm other.2]
  exact further_merge (keys_unique (entries_unique unique)) absent

/-! ## What a command sets -/

/-- The thresholds that a command sets, as entries of a section. -/
def overriding (a : Arguments) : List (Value × Value) := (overrides a).map fun entry => (.str entry.1, entry.2)

theorem overriding_unique (a : Arguments) : (textKeys (overriding a)).Nodup := by
  unfold overriding overrides
  cases a.loc <;> cases a.cyclo <;> cases a.maxnesting <;> cases a.noav <;> simp [textKeys]

theorem overriding_values (a : Arguments) :
    Value.lookup "loc" (overriding a) = a.loc ∧ Value.lookup "cyclo" (overriding a) = a.cyclo ∧
      Value.lookup "maxnesting" (overriding a) = a.maxnesting ∧ Value.lookup "noav" (overriding a) = a.noav := by
  unfold overriding overrides
  cases a.loc <;> cases a.cyclo <;> cases a.maxnesting <;> cases a.noav <;> simp [Value.lookup]

theorem mem_overriding {v : Value} (found : Value.lookup name (overriding a) = some v) : (name, v) ∈ overrides a := by
  obtain ⟨entry, member, same⟩ := List.mem_map.mp (mem_of_lookup found)
  obtain ⟨key, rfl⟩ := Prod.mk.inj same
  exact Value.str.inj key ▸ member

theorem mem_overrides {entry : String × Value} (member : entry ∈ overrides a) :
    entry.1 ∈ thresholdNames ∧ Value.lookup entry.1 (overriding a) = some entry.2 := by
  refine ⟨?_, (lookup_iff_mem (overriding_unique a)).mpr (List.mem_map_of_mem member)⟩
  obtain ⟨pair, listed, some⟩ := List.mem_filterMap.mp member
  obtain ⟨v, _, rfl⟩ := Option.map_eq_some_iff.mp some
  simp only [List.mem_cons, List.not_mem_nil, or_false] at listed
  rcases listed with rfl | rfl | rfl | rfl <;> simp [thresholdNames]

theorem override_exclude (document : Value) (given : List (String × Value)) :
    (Config.override (overStandard document) given).getD "exclude" = (overStandard document).getD "exclude" := by
  unfold Config.override
  split
  · rfl
  · exact congrArg (fun found : Option Value => found.getD .null) ((lookup_put ..).trans (if_neg (by decide)))

theorem override_filled (filled : config.isFalsy = false) (given : List (String × Value)) :
    (Config.override config given).isFalsy = false := by
  have put (v : Value) (entries : List (Value × Value)) :
      (Value.map (Config.put "thresholds" v entries)).isFalsy = false := by
    fun_induction Config.put "thresholds" v entries <;> rfl
  unfold Config.override
  split
  · exact filled
  · exact put _ _

theorem override_further (config : Value) (given : List (String × Value)) :
    furtherEntries (Config.override config given) = furtherEntries config := by
  unfold Config.override
  split
  · rfl
  · exact further_put (by simp [sectionNames]) _ _

/-- The section of thresholds has what a command sets, and else what it had. -/
theorem override_section (shaped : IsOptionalMap (config.getD "thresholds")) (a : Arguments) :
    IsOptionalMap ((Config.override config (overrides a)).getD "thresholds") ∧
      ∀ key, ((Config.override config (overrides a)).getD "thresholds").get? key =
        (Value.lookup key (overriding a)).or ((config.getD "thresholds").get? key) := by
  unfold Config.override
  split
  · next none =>
    have none : overriding a = [] := by rw [overriding, List.isEmpty_iff.mp none, List.map_nil]
    exact ⟨shaped, fun key => by rw [none]; rfl⟩
  · have found : (Value.map (Config.put "thresholds" (.map (Config.updated (Config.entries (config.getD "thresholds"))
        (overriding a))) (Config.entries config))).getD "thresholds" =
        .map (Config.updated (Config.entries (config.getD "thresholds")) (overriding a)) :=
      congrArg (fun found : Option Value => found.getD .null) ((lookup_put ..).trans (if_pos rfl))
    refine ⟨.inr ⟨_, found⟩, fun key => (congrArg (·.get? key) found).trans ?_⟩
    rw [← get_entries (config.getD "thresholds")]
    exact lookup_updated (overriding_unique a)

/-- A key that no section has by itself keeps what the document has there. -/
theorem override_kept (unique : hasUniqueKeys document = true) (listed : name ∈ sectionNames)
    (shaped : ∀ name ∈ sectionNames, IsOptionalMap (document.getD name)) {key : String}
    (other : (Config.standard.getD name).get? key = none) (a : Arguments) :
    ((Config.override (overStandard document) (overrides a)).getD name).get? key = (document.getD name).get? key := by
  have kept : ((overStandard document).getD name).get? key = (document.getD name).get? key := by
    rcases overStandard_section unique listed (shaped name listed) with ⟨null, own⟩ | ⟨inner, found, values⟩
    · rw [null, own]
    · rw [found]
      exact (values key).trans (by rw [other, Option.or_none])
  rw [← kept]
  rcases List.mem_pair.mp listed with rfl | rfl
  · rw [(override_section (overStandard_shaped unique listed (shaped _ listed)) a).2 key]
    have free : Value.lookup key (overriding a) = none := by
      by_contra set
      obtain ⟨v, found⟩ := Option.ne_none_iff_exists'.mp set
      have named := (mem_overrides (mem_overriding found)).1
      simp only [thresholdNames, List.mem_cons, List.not_mem_nil, or_false] at named
      rcases named with rfl | rfl | rfl | rfl <;> cases other
    rw [free, Option.none_or]
  · rw [override_exclude]

/-- A value that is a whole number. -/
def IsWhole (v : Value) : Prop := ∃ n, v = .int n

/-- Every threshold that is set is a whole number or a list of none. -/
def SetsNumbers (a : Arguments) : Prop := ∀ entry ∈ overrides a, IsWhole entry.2 ∨ entry.2 = .list []

theorem setsNumbers_iff : SetsNumbers a ↔
    ∀ override ∈ [a.loc, a.cyclo, a.maxnesting, a.noav], ∀ v ∈ override, IsWhole v ∨ v = .list [] := by
  unfold SetsNumbers overrides
  simp [or_imp, forall_and]

theorem integer_whole {f : Flag} {text : String} {v : Value} (ran : integer f text = .ok v) : IsWhole v := by
  unfold integer at ran
  split at ran
  · cases ran
    exact ⟨_, rfl⟩
  · cases ran

theorem applied_sets {b : Arguments} {f : Flag} {texts : List String} (sets : SetsNumbers a)
    (ran : applied a f texts = .ok b) : SetsNumbers b := by
  rw [setsNumbers_iff] at sets ⊢
  have one {text : String} (ran : withOne a f text = .ok b) :
      ∀ override ∈ [b.loc, b.cyclo, b.maxnesting, b.noav], ∀ v ∈ override, IsWhole v ∨ v = .list [] := by
    cases f with
    | loc | cyclo | maxnesting | noav =>
      obtain ⟨v, read, ran⟩ := bind_ok_iff.mp ran
      cases ran
      have whole := integer_whole read
      simp_all
    | format | lang | workers =>
      obtain ⟨_, _, ran⟩ := bind_ok_iff.mp ran
      cases ran
      exact sets
    | _ =>
      cases ran
      exact sets
  have empty : ∀ override ∈ [(withEmpty a f).loc, (withEmpty a f).cyclo, (withEmpty a f).maxnesting,
      (withEmpty a f).noav], ∀ v ∈ override, IsWhole v ∨ v = .list [] := by
    cases f <;> simp_all [withEmpty]
  unfold applied at ran
  split at ran
  · exact one ran
  · cases ran
    exact empty
  · cases ran
    cases f <;> exact sets
  · cases f <;> cases ran <;> exact sets

theorem readWords_sets {p q : Progress} {words : List Word} {steps : Nat} (sets : SetsNumbers p.arguments)
    (ran : readWords steps p words = .ok q) : SetsNumbers q.arguments := by
  have folded (taken : List Taken) {a b : Arguments} (sets : SetsNumbers a)
      (ran : taken.foldlM (fun a one => applied a one.1 one.2) a = .ok b) : SetsNumbers b := by
    induction taken generalizing a with
    | nil =>
      cases ran
      exact sets
    | cons one rest ih =>
      rw [List.foldlM_cons] at ran
      obtain ⟨next, first, ran⟩ := bind_ok_iff.mp ran
      exact ih (applied_sets sets first) ran
  fun_induction readWords steps p words with
  | case1 | case2 =>
    cases ran
    exact sets
  | case3 _ _ _ _ ih => exact ih sets ran
  | case4 => cases ran
  | case5 _ _ _ _ _ _ taken _ _ ih =>
    obtain ⟨next, first, ran⟩ := bind_ok_iff.mp ran
    exact ih next (folded taken sets first) ran
  | case6 _ _ _ _ _ _ _ ih => exact ih sets ran
  | case7 _ _ _ _ _ _ _ _ _ _ _ ih => exact ih sets ran

/-- A command line sets thresholds to whole numbers, but for one that it sets to a list of none. -/
theorem parsed_sets {words : List String} (parsed : Arguments.ofTexts words = .ok a) : SetsNumbers a := by
  unfold Arguments.ofTexts at parsed
  obtain ⟨split, _, parsed⟩ := bind_ok_iff.mp parsed
  obtain ⟨p, ran, parsed⟩ := bind_ok_iff.mp parsed
  have sets := readWords_sets (by simp [SetsNumbers, overrides]) ran
  split at parsed
  · cases parsed
    exact sets
  · cases parsed

/-! ## The thresholds in effect -/

/-- The value that a command sets, or else the one that is written, or else the standard one. -/
def setting (override : Option Value) (written standard : Value) : Value :=
  match override with
  | some v => v
  | none => filled written standard

/-- The thresholds of a command with a document as its configuration. -/
def settings (a : Arguments) (document : Value) : Thresholds where
  cyclo := setting a.cyclo ((document.getD "thresholds").getD "cyclo") Thresholds.standard.cyclo
  maxnesting := setting a.maxnesting ((document.getD "thresholds").getD "maxnesting") Thresholds.standard.maxnesting
  noav := setting a.noav ((document.getD "thresholds").getD "noav") Thresholds.standard.noav
  loc := setting a.loc ((document.getD "thresholds").getD "loc") Thresholds.standard.loc

theorem override_checks (unique : hasUniqueKeys document = true) (shaped : IsOptionalMap (document.getD "thresholds"))
    (a : Arguments) :
    Checks (∀ name ∈ thresholdNames, IsOptionalInt ((Value.lookup name (overriding a)).getD
        (((overStandard document).getD "thresholds").getD name)))
      (thresholdsOf fun name => (Value.lookup name (overriding a)).getD
        (((overStandard document).getD "thresholds").getD name))
      (Config.thresholds (Config.override (overStandard document) (overrides a))) := by
  obtain ⟨shape, found⟩ := override_section (overStandard_shaped unique (by simp [sectionNames]) shaped) a
  have values (key : String) : ((Config.override (overStandard document) (overrides a)).getD "thresholds").getD key =
      (Value.lookup key (overriding a)).getD (((overStandard document).getD "thresholds").getD key) := by
    rw [Value.getD, found]
    cases Value.lookup key (overriding a) <;> rfl
  have checks := thresholds_checks (Config.override (overStandard document) (overrides a)) shape
  simpa only [values] using checks

/-- With whole numbers from the command the thresholds in effect can be taken. -/
theorem override_settings (unique : hasUniqueKeys document = true) (accepted : ¬ Rejected document)
    (whole : ∀ entry ∈ overrides a, IsWhole entry.2) :
    Config.thresholds (Config.override (overStandard document) (overrides a)) = .ok (settings a document) := by
  obtain ⟨shaped, _, _, ints⟩ := (accepted_iff (accepted_root accepted)).mp accepted
  have one {name : String} {override : Option Value} {n : Int} (listed : name ∈ thresholdNames)
      (found : Value.lookup name (overriding a) = override)
      (standard : (Config.standard.getD "thresholds").getD name = .int n) :
      IsOptionalInt ((Value.lookup name (overriding a)).getD
        (((overStandard document).getD "thresholds").getD name)) ∧
      filled ((Value.lookup name (overriding a)).getD (((overStandard document).getD "thresholds").getD name))
        (.int n) = setting override ((document.getD "thresholds").getD name) (.int n) := by
    obtain ⟨fits, kept⟩ := overStandard_threshold unique shaped name standard
    cases override with
    | none =>
      rw [found]
      exact ⟨fits.mpr (ints name listed), kept⟩
    | some v =>
      obtain ⟨m, rfl⟩ : IsWhole v := whole _ (mem_overriding found)
      rw [found]
      exact ⟨.inr ⟨m, rfl⟩, rfl⟩
  obtain ⟨foundLoc, foundCyclo, foundNesting, foundNoav⟩ := overriding_values a
  have cyclo := one (by simp [thresholdNames]) foundCyclo rfl
  have maxnesting := one (by simp [thresholdNames]) foundNesting rfl
  have noav := one (by simp [thresholdNames]) foundNoav rfl
  have loc := one (by simp [thresholdNames]) foundLoc rfl
  rcases override_checks unique shaped a with ⟨_, taken⟩ | ⟨fails, _⟩
  · rw [taken]
    exact congrArg Except.ok (Thresholds.mk.injEq .. ▸ ⟨cyclo.2, maxnesting.2, noav.2, loc.2⟩)
  · exact absurd (by simp [thresholdNames, cyclo.1, maxnesting.1, noav.1, loc.1]) fails

/-- A value from the command that is neither null nor a whole number is a defect. -/
theorem override_unfit (unique : hasUniqueKeys document = true) (accepted : ¬ Rejected document)
    {entry : String × Value} (member : entry ∈ overrides a) (unfit : ¬ IsOptionalInt entry.2) :
    ∃ e, IsDefect e ∧ Config.thresholds (Config.override (overStandard document) (overrides a)) = .error e := by
  obtain ⟨shaped, _⟩ := (accepted_iff (accepted_root accepted)).mp accepted
  obtain ⟨listed, found⟩ := mem_overrides member
  rcases override_checks unique shaped a with ⟨ints, _⟩ | ⟨_, e, defect, failed⟩
  · have int := ints entry.1 listed
    rw [found] at int
    exact absurd int unfit
  · exact ⟨e, defect, failed⟩

theorem override_commanded {words : List String} (unique : hasUniqueKeys document = true)
    (accepted : ¬ Rejected document) (parsed : Arguments.ofTexts words = .ok a) :
    Config.thresholds (Config.override (overStandard document) (overrides a)) = .ok (settings a document) ∨
      (∃ entry ∈ overrides a, entry.2 = .list []) ∧
        ∃ e, IsDefect e ∧ Config.thresholds (Config.override (overStandard document) (overrides a)) = .error e := by
  by_cases none : ∃ entry ∈ overrides a, entry.2 = .list []
  · obtain ⟨entry, member, same⟩ := none
    exact .inr ⟨⟨entry, member, same⟩, override_unfit unique accepted member (by simp [same, IsOptionalInt])⟩
  · refine .inl (override_settings unique accepted fun entry member => ?_)
    exact (parsed_sets parsed entry member).resolve_right fun same => none ⟨entry, member, same⟩

/-! ## The exclusions in effect -/

theorem items_overStandard (unique : hasUniqueKeys document = true) (accepted : ¬ Rejected document) (name : String) :
    items (overStandard document) name = items document name := by
  obtain ⟨_, exclude, _⟩ := (accepted_iff (accepted_root accepted)).mp accepted
  unfold items
  rcases overStandard_value unique (by simp [sectionNames]) exclude name with same | ⟨null, same⟩
  · rw [same]
  · rw [same, null]
    rcases standard_excludes name with none | none <;> rw [none]

theorem override_exclusions (unique : hasUniqueKeys document = true) (accepted : ¬ Rejected document)
    (a : Arguments) (given : List (String × Value)) :
    exclusions a (Config.override (overStandard document) given) = .ok (scanPatterns a document) := by
  have listed := exclusions_sound (overStandard_sound unique accepted) a
  rw [scanPatterns, items_overStandard unique accepted, items_overStandard unique accepted] at listed
  unfold exclusions excluded at listed ⊢
  rw [override_exclude]
  exact listed

/-! ## Scanners -/

theorem override_sound (unique : hasUniqueKeys document = true) (accepted : ¬ Rejected document)
    (whole : ∀ entry ∈ overrides a, IsWhole entry.2) :
    Sound (Config.override (overStandard document) (overrides a)) := by
  have sound := overStandard_sound unique accepted
  refine ⟨override_filled sound.filled _, ⟨_, override_settings unique accepted whole⟩, fun name => ?_⟩
  rw [override_exclude]
  exact sound.lists name

theorem builds_thresholds {root : FilePath} {scanner : Scanner} (filled : config.isFalsy = false)
    (built : Builds a config root scanner) : Config.thresholds config = .ok scanner.thresholds := by
  obtain ⟨exclude, extensions, _, _, made⟩ := built
  obtain ⟨_, _, made⟩ := bind_ok_iff.mp made
  obtain ⟨_, _, made⟩ := bind_ok_iff.mp made
  obtain ⟨_, _, made⟩ := bind_ok_iff.mp made
  obtain ⟨_, _, made⟩ := bind_ok_iff.mp made
  obtain ⟨t, taken, made⟩ := bind_ok_iff.mp made
  cases made
  rwa [Value.orElse, if_neg (by simp [filled])] at taken

/-- What a command comes to with a document as its configuration. -/
structure InEffect (a : Arguments) (document config : Value) : Prop where
  /-- The thresholds are what the command sets, or else the document, or else the standard. -/
  thresholds : (∀ entry ∈ overrides a, IsWhole entry.2) → Config.thresholds config = .ok (settings a document)
  /-- A command line sets whole numbers; where it sets a list of none there is a defect. -/
  commanded : ∀ words, Arguments.ofTexts words = .ok a → Config.thresholds config = .ok (settings a document) ∨
    (∃ entry ∈ overrides a, entry.2 = .list []) ∧ ∃ e, IsDefect e ∧ Config.thresholds config = .error e
  /-- Excluded are the standard patterns, then those of the command, then the directories and
  the patterns of the document. -/
  exclusions : CommandLine.exclusions a config =
    .ok (Config.standardExclusions.map .str ++ a.exclude.map .str ++ items document "directories" ++
      items document "patterns")
  /-- The scanner of the command has these thresholds and these exclusions. -/
  scanner : ∀ root scanner, (∀ entry ∈ overrides a, IsWhole entry.2) → Builds a config root scanner →
    scanner.thresholds = settings a document ∧
      scanner.selection.exclude = .list (Config.standardExclusions.map .str ++ a.exclude.map .str ++
        items document "directories" ++ items document "patterns")
  /-- There is a scanner exactly if all extensions of the document are texts. -/
  built : ∀ root workers, (∀ entry ∈ overrides a, IsWhole entry.2) → a.workers = .int workers →
    ((∃ scanner, Builds a config root scanner) ↔ ∀ v ∈ items document "extensions", IsText v)
  /-- What else is in the sections is kept. -/
  kept : ∀ name ∈ sectionNames, ∀ key, (Config.standard.getD name).get? key = none →
    (config.getD name).get? key = (document.getD name).get? key
  /-- All other entries are carried along as they are. -/
  further : furtherEntries config = furtherEntries document

theorem override_inEffect (unique : hasUniqueKeys document = true) (accepted : ¬ Rejected document)
    (a : Arguments) : InEffect a document (Config.override (overStandard document) (overrides a)) := by
  have patterns : scanPatterns a document = Config.standardExclusions.map .str ++ a.exclude.map .str ++
      items document "directories" ++ items document "patterns" := by
    rw [scanPatterns, List.map_append]
  have same (name : String) :
      items (Config.override (overStandard document) (overrides a)) name = items document name := by
    rw [← items_overStandard unique accepted, items, override_exclude, items]
  refine ⟨override_settings unique accepted, fun words => override_commanded unique accepted,
    patterns ▸ override_exclusions unique accepted a _, fun root scanner whole built => ⟨?_, ?_⟩,
    fun root workers whole int => ?_, fun name listed key other => ?_, ?_⟩
  · have taken := builds_thresholds (override_sound unique accepted whole).filled built
    rw [override_settings unique accepted whole] at taken
    exact (Except.ok.inj taken).symm
  · rw [builds_selection (override_sound unique accepted whole) built, ← patterns, scanPatterns, scanPatterns,
      same, same]
  · rw [builds_iff (override_sound unique accepted whole) int, same]
  · obtain ⟨thresholds, exclude, _⟩ := (accepted_iff (accepted_root accepted)).mp accepted
    refine override_kept unique listed (fun name listed => ?_) other a
    rcases List.mem_pair.mp listed with rfl | rfl
    · exact thresholds
    · exact exclude
  · rw [override_further, overStandard_further unique]

/-! ## Files -/

/-- What becomes of a configuration file that holds a document. -/
structure Effective (files : Files) (name : String) (document : Value) : Prop where
  /-- It is reported for a defect exactly if the document is rejected. -/
  rejected : (∃ defect, Config.load files (.ofText name) = .error (.config defect)) ↔ Rejected document
  /-- Then every command ends with that report, whatever it sets itself. -/
  refused : Rejected document → ∃ defect, Config.load files (.ofText name) = .error (.config defect) ∧
    ∀ a : Arguments, a.config = some name → configOf files a = Session.fail defect.message
  /-- Otherwise it is loaded, and is in effect with what a command sets over it. -/
  loaded : ¬ Rejected document → ∃ config, Config.load files (.ofText name) = .ok config ∧
    furtherEntries config = furtherEntries document ∧
    ∀ a : Arguments, a.config = some name →
      (configOf files a).outcome = .ok (Config.override config (overrides a)) ∧
      InEffect a document (Config.override config (overrides a))

theorem load_document {files : Files} {path : FilePath} {text : String}
    (readable : files.textInParts path = .ok text) (read : Yaml.read text = .ok document) :
    Config.load files path = Config.ofDocument path.text document := by
  rw [Config.load, readable]
  simp only [bind, Except.bind, Config.documentOf, read]

theorem present_of_text {files : Files} {path : FilePath} {text : String}
    (readable : files.textInParts path = .ok text) : files.isPresent path = true := by
  have ended := textInParts_ends files path
  rw [readable] at ended
  cases ended with
  | ok file =>
    obtain ⟨bytes, found⟩ := file
    rw [Files.isPresent, found]
    rfl

/-- The text of a configuration that sets thresholds, one of them to null, and lists a pattern. -/
def layeredText : String :=
  "thresholds:\n  cyclo: 7\n  loc: 10\n  noav: null\nexclude:\n  directories: null\n  patterns: [gen]\n"

/-- A directory with such a configuration. -/
def layeredFiles : Files := ⟨.directory [("c.yaml", .file layeredText.toUTF8.data.toList)], ⟨.root, []⟩⟩

/-- A command with that configuration, which sets a threshold and excludes something itself. -/
def layeredCommand : Arguments where
  config := some "c.yaml"
  cyclo := some (.int 9)
  exclude := ["vendor"]

end MethodLint.EffectiveConfig
