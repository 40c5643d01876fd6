import Mathlib.Data.List.Induction
import MethodLint.Proofs.Outcomes
import MethodLint.Registry

/-! What a registry does over a whole run. After any registrations and lookups it is
what the registrations alone say: an extension belongs to the language that claimed
it last, a language is made as it was registered last, and what is kept for a
language was made that way. So a front end is given out again and again until its
language is registered anew, and never after that. -/
namespace MethodLint.RegistryRuns
open Outcomes Registry

/-! ## Runs -/

/-- What is registered for a language. -/
structure Registration where
  language : String
  label : String
  isComplete : Bool
  extensions : Value

/-- What a run asks of a registry. -/
inductive Step
  | register (registration : Registration)
  | ofPath (path : FilePath)
  | ofLanguage (language : String)
  | list

/-- The registration that a step makes. -/
def Step.registration? : Step → Option Registration
  | .register registration => some registration
  | _ => none

/-- The registry after a step. -/
def after (r : Registry) : Step → Registry
  | .register x => (r.register x.language x.label x.isComplete x.extensions).1
  | .ofPath path => (r.ofPath path).1
  | .ofLanguage language => (r.ofLanguage language).1
  | .list => r

/-- The language that a step looks up, and the front end that it is given. -/
def given (r : Registry) : Step → Option (String × Product)
  | .ofPath path => match (r.ofPath path).2 with
    | .ok (some product, some language) => some (language, product)
    | _ => none
  | .ofLanguage language => match (r.ofLanguage language).2 with
    | .ok (some product) => some (language, product)
    | _ => none
  | _ => none

/-- The registry after some steps from the start of the program. -/
def run (steps : List Step) : Registry := steps.foldl after standard

/-! ## What registrations say -/

/-- The texts before anything else, which are the extensions that can be claimed. -/
def leadingTexts : List Value → List String
  | .str s :: rest => s :: leadingTexts rest
  | _ => []

/-- The extensions that a registration claims. -/
def Registration.claims (x : Registration) : List String :=
  match x.extensions.parts with
  | .ok parts => (leadingTexts parts).map registeredExtension
  | .error _ => []

/-- The language that claimed an extension last. -/
def claimant (past : List Registration) (extension : String) : Option String :=
  (past.reverse.find? fun x => x.claims.contains extension).map Registration.language

/-- How the front end of a language was last registered to be made. -/
def lastMaker (past : List Registration) (language : String) : Option Maker :=
  (past.zipIdx.reverse.find? fun entry => entry.1.language = language).map fun entry =>
    ⟨entry.2, entry.1.label, entry.1.isComplete⟩

/-- The registrations with which the program starts. -/
def builtIn : List Registration :=
  FrontEnd.all.map fun frontEnd =>
    ⟨frontEnd.language, frontEnd.label, true, .list (frontEnd.extensions.map .str)⟩

/-- All registrations up to the end of some steps. -/
def past (steps : List Step) : List Registration := builtIn ++ steps.filterMap Step.registration?

variable {r : Registry} {before : List Registration} {x : Registration} {language key other : String}

theorem claimant_append (extension : String) : claimant (before ++ [x]) extension =
    if x.claims.contains extension then some x.language else claimant before extension := by
  unfold claimant
  by_cases claimed : extension ∈ x.claims <;> simp [claimed]

theorem lastMaker_append (language : String) : lastMaker (before ++ [x]) language =
    if x.language = language then some ⟨before.length, x.label, x.isComplete⟩ else lastMaker before language := by
  unfold lastMaker
  rw [List.zipIdx_append, List.reverse_append]
  by_cases same : x.language = language <;> simp [same]

/-! ## Tables -/

variable {α : Type} {value : α} {table : List (String × α)}

theorem lookup_entry (key other : String) (value : α) (rest : List (String × α)) :
    ((key, value) :: rest).lookup other = if other = key then some value else rest.lookup other := by
  by_cases same : other = key
  · simp [same]
  · have apart : (other == key) = false := by simpa using same
    simp [List.lookup_cons, apart, same]

theorem lookup_put (key other : String) (value : α) (table : List (String × α)) :
    (put key value table).lookup other = if other = key then some value else table.lookup other := by
  induction table with
  | nil => exact lookup_entry key other value []
  | cons entry rest ih =>
    obtain ⟨k, v⟩ := entry
    rw [put]
    split
    · rename_i same
      subst same
      rw [lookup_entry, lookup_entry]
      split <;> rfl
    · rename_i different
      rw [lookup_entry, lookup_entry, ih]
      split
      · rename_i asked
        rw [if_neg fun same => different (asked.symm.trans same)]
      · rfl

theorem lookup_drop (key other : String) (table : List (String × α)) :
    (drop key table).lookup other = if other = key then none else table.lookup other := by
  induction table with
  | nil => simp [drop]
  | cons entry rest ih =>
    obtain ⟨k, v⟩ := entry
    unfold drop at ih ⊢
    by_cases same : k = key
    · subst same
      rw [List.filter_cons_of_neg (by simp), ih, lookup_entry]
      split <;> rfl
    · rw [List.filter_cons_of_pos (by simpa using same), lookup_entry, lookup_entry, ih]
      split
      · rename_i asked
        rw [if_neg fun other => same (asked.symm.trans other)]
      · rfl

/-! ## One registration -/

/-- Claiming changes the languages of the extensions that are claimed, and nothing else. -/
theorem claim_languages (r : Registry) (language : String) (parts : List Value) :
    ∃ table, (r.claim language parts).1 = { r with languages := table } ∧
      ∀ extension, table.lookup extension =
        if ((leadingTexts parts).map registeredExtension).contains extension then some language
        else r.languages.lookup extension := by
  induction parts generalizing r with
  | nil => exact ⟨r.languages, rfl, fun _ => rfl⟩
  | cons part rest ih =>
    cases part with
    | str s =>
      obtain ⟨table, claimed, looked⟩ :=
        ih { r with languages := put (registeredExtension s) language r.languages }
      refine ⟨table, claimed, fun extension => ?_⟩
      rw [looked, lookup_put, leadingTexts, List.map_cons, List.contains_cons]
      by_cases same : extension = registeredExtension s <;> simp [same]
    | _ => exact ⟨r.languages, rfl, fun _ => rfl⟩

theorem register_state (r : Registry) (x : Registration) : after r (.register x) =
    match x.extensions.parts with
    | .error _ => r.withMaker x.language x.label x.isComplete
    | .ok parts => ((r.withMaker x.language x.label x.isComplete).claim x.language parts).1 := by
  unfold after Registry.register
  dsimp only
  cases x.extensions.parts with
  | error => rfl
  | ok parts =>
    dsimp only
    generalize (r.withMaker x.language x.label x.isComplete).claim x.language parts = claimed
    obtain ⟨_, _ | _⟩ := claimed <;> rfl

theorem register_languages (r : Registry) (x : Registration) :
    ∃ table, after r (.register x) = { r.withMaker x.language x.label x.isComplete with languages := table } ∧
      ∀ extension, table.lookup extension =
        if x.claims.contains extension then some x.language else r.languages.lookup extension := by
  rw [register_state]
  unfold Registration.claims
  split
  · rename_i e failed
    rw [failed]
    exact ⟨r.languages, rfl, fun _ => rfl⟩
  · rename_i parts read
    rw [read]
    exact claim_languages _ x.language parts

/-! ## One lookup -/

/-- A lookup gives what is kept for a language, or makes a front end as the language is
registered and keeps it; where that is not possible it changes nothing. -/
inductive LooksUp (r : Registry) (language : String) :
    Registry × Except Fault (Option Product) → Prop where
  | unknown (unregistered : r.makers.lookup language = none) : LooksUp r language (r, .ok none)
  | known (registered : r.makers.lookup language = some maker) (kept : r.kept.lookup language = some product) :
      LooksUp r language (r, .ok (some product))
  | made (registered : r.makers.lookup language = some maker) (fresh : r.kept.lookup language = none)
      (complete : maker.isComplete = true) :
      LooksUp r language
        ({ r with kept := put language ⟨r.products, maker⟩ r.kept, products := r.products + 1 },
          .ok (some ⟨r.products, maker⟩))
  | failed (registered : r.makers.lookup language = some maker) (fresh : r.kept.lookup language = none)
      (incomplete : maker.isComplete = false) :
      LooksUp r language (r, .error (.type (.incompleteFrontEnd maker.label)))

theorem ofLanguage_looksUp (r : Registry) (language : String) : LooksUp r language (r.ofLanguage language) := by
  unfold Registry.ofLanguage
  cases registered : r.makers.lookup language with
  | none => exact .unknown registered
  | some maker =>
    cases kept : r.kept.lookup language with
    | some product => exact .known registered kept
    | none =>
      cases complete : maker.isComplete with
      | true =>
        simp only [complete, ↓reduceIte]
        exact .made registered kept complete
      | false =>
        simp only [complete]
        exact .failed registered kept complete

/-- A file is looked up by the language of its extension. -/
theorem ofPath_eq (r : Registry) (path : FilePath) : r.ofPath path = match r.languageOf? path with
    | none => (r, .ok (none, none))
    | some language =>
      ((r.ofLanguage language).1, (r.ofLanguage language).2.map fun product => (product, some language)) := by
  unfold Registry.ofPath
  cases r.languageOf? path with
  | none => rfl
  | some language =>
    dsimp only
    generalize r.ofLanguage language = looked
    obtain ⟨t, e | product⟩ := looked <;> rfl

/-! ## One step -/

/-- What a step does: a registration sets how a language is made, forgets what is kept for it
and claims extensions; a lookup makes a front end and keeps it, or changes nothing. -/
inductive Changes (r : Registry) : Step → Registry → Prop where
  | registers (x : Registration) (table : List (String × String))
      (claims : ∀ extension, table.lookup extension =
        if x.claims.contains extension then some x.language else r.languages.lookup extension) :
      Changes r (.register x) { r.withMaker x.language x.label x.isComplete with languages := table }
  | makes {step : Step} {language : String} {maker : Maker} (asks : step.registration? = none)
      (registered : r.makers.lookup language = some maker) (fresh : r.kept.lookup language = none)
      (complete : maker.isComplete = true) :
      Changes r step { r with kept := put language ⟨r.products, maker⟩ r.kept, products := r.products + 1 }
  | nothing {step : Step} (asks : step.registration? = none) : Changes r step r

variable {step : Step}

theorem changes_ofLanguage (asks : step.registration? = none) (r : Registry) (language : String) :
    Changes r step (r.ofLanguage language).1 := by
  have looked := ofLanguage_looksUp r language
  generalize r.ofLanguage language = out at looked ⊢
  cases looked with
  | made registered fresh complete => exact .makes asks registered fresh complete
  | _ => exact .nothing asks

theorem after_changes (r : Registry) (step : Step) : Changes r step (after r step) := by
  cases step with
  | register x =>
    obtain ⟨table, state, claims⟩ := register_languages r x
    exact state ▸ .registers x table claims
  | ofLanguage language => exact changes_ofLanguage rfl r language
  | ofPath path =>
    simp only [after, ofPath_eq]
    cases r.languageOf? path with
    | none => exact .nothing rfl
    | some language => exact changes_ofLanguage rfl r language
  | list => exact .nothing rfl

/-! ## What every step preserves -/

/-- The tables of a registry are what some registrations say, and what it keeps was made as
they say. -/
structure Reflects (before : List Registration) (r : Registry) : Prop where
  makers : ∀ language, r.makers.lookup language = lastMaker before language
  languages : ∀ extension, r.languages.lookup extension = claimant before extension
  current : ∀ language product, r.kept.lookup language = some product →
    r.makers.lookup language = some product.maker
  complete : ∀ language product, r.kept.lookup language = some product → product.maker.isComplete = true
  counted : r.registrations = before.length
  numbered : ∀ language product, r.kept.lookup language = some product → product.number < r.products

theorem reflects_empty : Reflects [] empty :=
  ⟨fun _ => rfl, fun _ => rfl, nofun, nofun, rfl, nofun⟩

theorem reflects_registers (reflects : Reflects before r) {table : List (String × String)}
    (claims : ∀ extension, table.lookup extension =
      if x.claims.contains extension then some x.language else r.languages.lookup extension) :
    Reflects (before ++ [x]) { r.withMaker x.language x.label x.isComplete with languages := table } := by
  -- Nothing is kept that was not kept before, and nothing for the language itself.
  have older (language : String) (product : Product)
      (kept : (drop x.language r.kept).lookup language = some product) :
      language ≠ x.language ∧ r.kept.lookup language = some product := by
    rw [lookup_drop] at kept
    split at kept
    · cases kept
    · rename_i different
      exact ⟨different, kept⟩
  constructor
  case makers =>
    intro language
    rw [withMaker, lookup_put, lastMaker_append, reflects.makers, reflects.counted]
    simp only [eq_comm]
  case languages =>
    intro extension
    rw [claims, claimant_append, reflects.languages]
  case current =>
    intro language product kept
    obtain ⟨different, kept⟩ := older language product kept
    rw [withMaker, lookup_put, if_neg different]
    exact reflects.current language product kept
  case complete => exact fun language product kept => reflects.complete language product (older language product kept).2
  case counted =>
    rw [List.length_append]
    exact congrArg (· + 1) reflects.counted
  case numbered => exact fun language product kept => reflects.numbered language product (older language product kept).2

theorem reflects_makes (reflects : Reflects before r) {maker : Maker}
    (registered : r.makers.lookup language = some maker) (complete : maker.isComplete = true) :
    Reflects before { r with kept := put language ⟨r.products, maker⟩ r.kept, products := r.products + 1 } := by
  have newer (other : String) (product : Product)
      (kept : (put language ⟨r.products, maker⟩ r.kept).lookup other = some product) :
      other = language ∧ product = ⟨r.products, maker⟩ ∨ r.kept.lookup other = some product := by
    rw [lookup_put] at kept
    split at kept
    · rename_i same
      cases kept
      exact .inl ⟨same, rfl⟩
    · exact .inr kept
  constructor
  case makers => exact reflects.makers
  case languages => exact reflects.languages
  case counted => exact reflects.counted
  case current =>
    intro other product kept
    rcases newer other product kept with ⟨rfl, rfl⟩ | old
    · exact registered
    · exact reflects.current other product old
  case complete =>
    intro other product kept
    rcases newer other product kept with ⟨_, rfl⟩ | old
    · exact complete
    · exact reflects.complete other product old
  case numbered =>
    intro other product kept
    rcases newer other product kept with ⟨_, rfl⟩ | old
    · exact Nat.lt_succ_self _
    · exact Nat.lt_succ_of_lt (reflects.numbered other product old)

theorem reflects_step (reflects : Reflects before r) (step : Step) :
    Reflects (before ++ step.registration?.toList) (after r step) := by
  have changes := after_changes r step
  generalize after r step = later at changes ⊢
  cases changes with
  | registers x table claims => exact reflects_registers reflects claims
  | makes asks registered fresh complete => simpa [asks] using reflects_makes reflects registered complete
  | nothing asks => simpa [asks] using reflects

/-- After a whole run a registry is what its registrations say. -/
theorem reflects_steps (reflects : Reflects before r) (steps : List Step) :
    Reflects (before ++ steps.filterMap Step.registration?) (steps.foldl after r) := by
  induction steps generalizing before r with
  | nil => simpa using reflects
  | cons step rest ih =>
    have later := ih (reflects_step reflects step)
    rw [List.append_assoc] at later
    rw [List.foldl_cons, List.filterMap_cons]
    cases registered : step.registration? <;> simpa [registered] using later

theorem reflects_run (steps : List Step) : Reflects (past steps) (run steps) := by
  have start : Reflects builtIn standard := by
    have built := reflects_steps reflects_empty (builtIn.map .register)
    rw [List.nil_append, List.filterMap_map] at built
    exact built
  exact reflects_steps start steps

/-! ## Answers -/

/-- What a lookup of a language answers, as far as its last registration says. -/
inductive Answers : Option Maker → Except Fault (Option Product) → Prop where
  | unknown : Answers none (.ok none)
  | made (complete : product.maker.isComplete = true) : Answers (some product.maker) (.ok (some product))
  | failed (incomplete : maker.isComplete = false) :
      Answers (some maker) (.error (.type (.incompleteFrontEnd maker.label)))

theorem claimant_registered {extension : String} (claimed : claimant before extension = some language) :
    ∃ maker, lastMaker before language = some maker := by
  induction before using List.reverseRecOn with
  | nil => cases claimed
  | append_singleton before x ih =>
    rw [claimant_append] at claimed
    rw [lastMaker_append]
    split
    · exact ⟨_, rfl⟩
    · rename_i different
      split at claimed
      · cases claimed
        exact absurd rfl different
      · exact ih claimed

theorem claimant_named {extension : String} (named : ∀ x ∈ before, x.language ≠ "")
    (claimed : claimant before extension = some language) : language ≠ "" := by
  obtain ⟨x, found, rfl⟩ := Option.map_eq_some_iff.mp claimed
  exact named x (List.mem_reverse.mp (List.mem_of_find?_eq_some found))

theorem languageOf_reflects (reflects : Reflects before r) (named : ∀ x ∈ before, x.language ≠ "")
    (path : FilePath) : r.languageOf? path = claimant before path.comparedExtension := by
  rw [languageOf?, reflects.languages]
  cases claimed : claimant before path.comparedExtension with
  | none => rfl
  | some language => simp [Option.filter, claimant_named named claimed]

theorem answers_reflects (reflects : Reflects before r) (language : String) :
    Answers (lastMaker before language) (r.ofLanguage language).2 := by
  have looked := ofLanguage_looksUp r language
  rw [← reflects.makers]
  generalize r.ofLanguage language = out at looked ⊢
  cases looked with
  | unknown unregistered => exact unregistered ▸ .unknown
  | @known maker product registered kept =>
    rw [reflects.current language product kept]
    exact .made (reflects.complete language product kept)
  | @made maker registered fresh complete =>
    rw [registered]
    exact @Answers.made ⟨r.products, maker⟩ complete
  | failed registered fresh incomplete =>
    rw [registered]
    exact .failed incomplete

/-! ## Instances -/

variable {product : Product}

/-- A step that is given a front end looks its language up. -/
theorem given_looked (got : given r step = some (language, product)) :
    after r step = (r.ofLanguage language).1 ∧ (r.ofLanguage language).2 = .ok (some product) := by
  cases step with
  | register x => cases got
  | list => cases got
  | ofLanguage name =>
    simp only [given] at got
    split at got
    · rename_i ran
      cases got
      exact ⟨rfl, ran⟩
    · cases got
  | ofPath path =>
    simp only [given, after, ofPath_eq] at got ⊢
    cases known : r.languageOf? path with
    | none =>
      rw [known] at got
      cases got
    | some name =>
      simp only [known] at got ⊢
      split at got
      · rename_i ran
        cases answer : (r.ofLanguage name).2 with
        | error e => simp [answer, Except.map] at ran
        | ok found =>
          simp only [answer, Except.map, Except.ok.injEq, Prod.mk.injEq, Option.some.injEq] at ran
          cases got
          obtain ⟨rfl, rfl⟩ := ran
          exact ⟨rfl, answer⟩
      · cases got

/-- What is given is kept, and numbered among what was made. -/
theorem given_kept (reflects : Reflects before r) (got : given r step = some (language, product)) :
    (after r step).kept.lookup language = some product ∧ product.number < (after r step).products := by
  obtain ⟨state, answer⟩ := given_looked got
  have later := reflects_step reflects step
  rw [state] at later ⊢
  have looked := ofLanguage_looksUp r language
  have kept : (r.ofLanguage language).1.kept.lookup language = some product := by
    generalize r.ofLanguage language = out at looked answer ⊢
    cases looked with
    | unknown => cases answer
    | failed => cases answer
    | known registered kept =>
      cases answer
      exact kept
    | made =>
      cases answer
      rw [lookup_put, if_pos rfl]
  exact ⟨kept, later.numbered language product kept⟩

/-- What is kept stays until its language is registered anew. -/
theorem kept_stays (kept : r.kept.lookup language = some product)
    (other : ∀ x, step = .register x → x.language ≠ language) :
    (after r step).kept.lookup language = some product := by
  have changes := after_changes r step
  generalize after r step = later at changes ⊢
  cases changes with
  | registers x =>
    rw [withMaker, lookup_drop, if_neg (other x rfl).symm]
    exact kept
  | makes _ _ fresh =>
    rw [lookup_put]
    split
    · rename_i same
      subst same
      cases kept.symm.trans fresh
    · exact kept
  | nothing => exact kept

/-- The front end was made, and is not kept for the language. -/
structure Gone (language : String) (product : Product) (r : Registry) : Prop where
  made : product.number < r.products
  kept : ∀ other, r.kept.lookup language = some other → other ≠ product

theorem gone_register (made : product.number < r.products) (same : x.language = language) :
    Gone language product (after r (.register x)) := by
  obtain ⟨table, state, _⟩ := register_languages r x
  rw [state]
  refine ⟨made, fun other kept => ?_⟩
  simp only [withMaker, lookup_drop, if_pos same.symm] at kept
  cases kept

/-- What is gone stays so whatever happens, and what is given later is something else. -/
theorem gone_step (gone : Gone language product r) (step : Step) : Gone language product (after r step) := by
  have changes := after_changes r step
  generalize after r step = later at changes ⊢
  cases changes with
  | registers x =>
    refine ⟨gone.made, fun other kept => ?_⟩
    simp only [withMaker, lookup_drop] at kept
    split at kept
    · cases kept
    · exact gone.kept other kept
  | makes =>
    refine ⟨Nat.lt_succ_of_lt gone.made, fun other kept => ?_⟩
    rw [lookup_put] at kept
    split at kept
    · cases kept
      rintro rfl
      exact absurd gone.made (Nat.lt_irrefl _)
    · exact gone.kept other kept
  | nothing => exact gone

theorem products_le (r : Registry) (step : Step) : r.products ≤ (after r step).products := by
  have changes := after_changes r step
  generalize after r step = later at changes ⊢
  cases changes with
  | makes => exact Nat.le_succ _
  | registers | nothing => exact Nat.le_refl _

/-- Along a run that does not register the language anew, what is kept stays. -/
theorem kept_steps (kept : r.kept.lookup language = some product) (steps : List Step)
    (other : ∀ x, .register x ∈ steps → x.language ≠ language) :
    (steps.foldl after r).kept.lookup language = some product := by
  induction steps generalizing r with
  | nil => exact kept
  | cons step rest ih =>
    refine ih (kept_stays kept fun x same => other x (same ▸ List.mem_cons_self)) fun x member => ?_
    exact other x (List.mem_cons_of_mem _ member)

theorem gone_steps (gone : Gone language product r) (steps : List Step) :
    Gone language product (steps.foldl after r) := by
  induction steps generalizing r with
  | nil => exact gone
  | cons step rest ih => exact ih (gone_step gone step)

/-- Along a run that does, it is gone. -/
theorem registered_steps (made : product.number < r.products) (steps : List Step)
    (anew : ∃ x, .register x ∈ steps ∧ x.language = language) : Gone language product (steps.foldl after r) := by
  induction steps generalizing r with
  | nil =>
    obtain ⟨x, member, _⟩ := anew
    exact absurd member List.not_mem_nil
  | cons step rest ih =>
    obtain ⟨x, member, same⟩ := anew
    rcases List.mem_cons.mp member with rfl | later
    · exact gone_steps (gone_register made same) rest
    · exact ih (Nat.lt_of_lt_of_le made (products_le r step)) ⟨x, later, same⟩

/-- Two lookups of a language are given the same front end exactly if the language is not
registered anew between them. -/
theorem given_same_iff {steps later : List Step} {first second : Step} {other : Product}
    (got : given (run steps) first = some (language, product))
    (gotLater : given (run (steps ++ first :: later)) second = some (language, other)) :
    other = product ↔ ∀ x, .register x ∈ later → x.language ≠ language := by
  have reflects := reflects_run steps
  obtain ⟨kept, made⟩ := given_kept reflects got
  obtain ⟨keptLater, _⟩ := given_kept (reflects_run _) gotLater
  have state : run (steps ++ first :: later) = later.foldl after (after (run steps) first) := List.foldl_append
  rw [state] at gotLater keptLater
  constructor
  · rintro rfl x member same
    have gone := gone_step (registered_steps made later ⟨x, member, same⟩) second
    exact gone.kept _ keptLater rfl
  · intro never
    have stays := kept_steps kept later never
    obtain ⟨_, answer⟩ := given_looked gotLater
    have looked := ofLanguage_looksUp (later.foldl after (after (run steps) first)) language
    generalize (later.foldl after (after (run steps) first)).ofLanguage language = out at looked answer
    cases looked with
    | unknown => cases answer
    | failed => cases answer
    | known registered kept =>
      cases answer
      exact Option.some.inj (kept.symm.trans stays)
    | made registered fresh =>
      rw [stays] at fresh
      cases fresh

/-! ## Whole runs -/

/-- A registry answers as some registrations say. Every extension belongs to a registered
language, and what is kept for a language was made as it was registered last. A file has no
front end exactly if no registration claimed its extension; otherwise it has the language that
claimed it last, and what a lookup of this language answers. No lookup changes what is
registered, and one that fails changes nothing at all. -/
structure Follows (before : List Registration) (r : Registry) : Prop where
  registered : ∀ extension language, r.languages.lookup extension = some language →
    ∃ maker, r.makers.lookup language = some maker
  current : ∀ language product, r.kept.lookup language = some product →
    r.makers.lookup language = some product.maker
  unclaimed : ∀ path, (r.ofPath path).2 = .ok (none, none) ↔ claimant before path.comparedExtension = none
  claimed : ∀ path language, claimant before path.comparedExtension = some language →
    ∃ maker answer, lastMaker before language = some maker ∧ Answers (some maker) answer ∧
      (r.ofPath path).2 = answer.map fun product => (product, some language)
  answers : ∀ language, Answers (lastMaker before language) (r.ofLanguage language).2
  tables : ∀ step, step.registration? = none →
    (after r step).makers = r.makers ∧ (after r step).languages = r.languages
  failures : ∀ language e, (r.ofLanguage language).2 = .error e → (r.ofLanguage language).1 = r
  pathFailures : ∀ path e, (r.ofPath path).2 = .error e → (r.ofPath path).1 = r

theorem tables_kept (r : Registry) (registered : step.registration? = none) :
    (after r step).makers = r.makers ∧ (after r step).languages = r.languages := by
  have changes := after_changes r step
  generalize after r step = later at changes ⊢
  cases changes with
  | registers x => cases registered
  | makes | nothing => exact ⟨rfl, rfl⟩

theorem failed_unchanged {e : Fault} (failed : (r.ofLanguage language).2 = .error e) :
    (r.ofLanguage language).1 = r := by
  have looked := ofLanguage_looksUp r language
  generalize r.ofLanguage language = out at looked failed ⊢
  cases looked with
  | failed => rfl
  | _ => cases failed

theorem follows_reflects (reflects : Reflects before r) (named : ∀ x ∈ before, x.language ≠ "") :
    Follows before r := by
  have languageOf := languageOf_reflects reflects named
  have answers := answers_reflects reflects
  refine ⟨fun extension language known => ?_, reflects.current, fun path => ?_,
    fun path language claimed => ?_, answers, fun step registered => tables_kept r registered,
    fun language e failed => failed_unchanged failed, fun path e failed => ?_⟩
  · rw [reflects.languages] at known
    rw [reflects.makers]
    exact claimant_registered known
  · rw [ofPath_eq, languageOf]
    cases claimant before path.comparedExtension with
    | none => exact iff_of_true rfl rfl
    | some language =>
      refine iff_of_false (fun answer => ?_) nofun
      dsimp only at answer
      cases looked : (r.ofLanguage language).2 <;> simp [looked, Except.map] at answer
  · obtain ⟨maker, last⟩ := claimant_registered claimed
    refine ⟨maker, _, last, last ▸ answers language, ?_⟩
    rw [ofPath_eq, languageOf, claimed]
  · rw [ofPath_eq] at failed ⊢
    split
    · rfl
    · rename_i language known
      rw [known] at failed
      dsimp only at failed ⊢
      cases looked : (r.ofLanguage language).2 with
      | ok product => simp [looked, Except.map] at failed
      | error other => exact failed_unchanged looked

/-- After any registrations and lookups a registry answers as the registrations say, and two
lookups of a language are given the same front end exactly if the language is not registered
anew between them. -/
theorem registry_follows_registrations (steps : List Step)
    (named : ∀ x, .register x ∈ steps → x.language ≠ "") :
    Follows (past steps) (run steps) ∧
      ∀ language product other first later second, given (run steps) first = some (language, product) →
        given (run (steps ++ first :: later)) second = some (language, other) →
        (other = product ↔ ∀ x, .register x ∈ later → x.language ≠ language) := by
  refine ⟨follows_reflects (reflects_run steps) fun x member => ?_, fun _ _ _ _ _ _ => given_same_iff⟩
  rcases List.mem_append.mp member with start | later
  · have namedStart : ∀ x ∈ builtIn, x.language ≠ "" := by decide
    exact namedStart x start
  · obtain ⟨step, listed, registers⟩ := List.mem_filterMap.mp later
    cases step with
    | register y =>
      cases registers
      exact named _ listed
    | _ => cases registers

/-- A language that is registered anew, with an extension in another case and without its dot. -/
def renewal : Step := .register ⟨"python", "OtherParser", true, .list [.str "PY"]⟩

/-- The extension still belongs to the language, and what was made before is not given again. -/
theorem renewed_front_end :
    (∀ x, .register x ∈ [Step.ofLanguage "python", renewal] → x.language ≠ "") ∧
    claimant (past [.ofLanguage "python", renewal]) ".py" = some "python" ∧
    Follows (past [.ofLanguage "python", renewal]) (run [.ofLanguage "python", renewal]) ∧
    ∃ product other, given (run []) (.ofLanguage "python") = some ("python", product) ∧
      given (run [.ofLanguage "python", renewal]) (.ofPath ⟨.here, ["a.py"]⟩) = some ("python", other) ∧
      other ≠ product := by
  have named : ∀ x, .register x ∈ [Step.ofLanguage "python", renewal] → x.language ≠ "" := by
    intro x member
    simp only [renewal, List.mem_cons, List.not_mem_nil, or_false, reduceCtorEq, false_or,
      Step.register.injEq] at member
    rw [member]
    decide
  have later : ∀ product other, given (run []) (.ofLanguage "python") = some ("python", product) →
      given (run [.ofLanguage "python", renewal]) (.ofPath ⟨.here, ["a.py"]⟩) = some ("python", other) →
      other ≠ product := by
    intro product other got gotLater same
    have renewed := (registry_follows_registrations [] nofun).2 "python" product other _ [renewal] _ got gotLater
    exact renewed.mp same _ (List.mem_singleton.mpr rfl) rfl
  have claimed : claimant (past [.ofLanguage "python", renewal]) ".py" = some "python" := by decide +kernel
  have first : given (run []) (.ofLanguage "python") = some ("python", ⟨0, ⟨0, "PythonParser", true⟩⟩) := by
    decide +kernel
  have second : given (run [.ofLanguage "python", renewal]) (.ofPath ⟨.here, ["a.py"]⟩) =
      some ("python", ⟨1, ⟨2, "OtherParser", true⟩⟩) := by decide +kernel
  exact ⟨named, claimed, (registry_follows_registrations _ named).1, _, _, first, second, later _ _ first second⟩

end MethodLint.RegistryRuns
