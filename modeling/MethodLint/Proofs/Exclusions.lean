import Mathlib.Data.List.Basic
import MethodLint.Proofs.RegistryRuns
import MethodLint.Scan

/-! What a scan asks of one path. The text of a path below a root falls into the
names that it goes through, so a pattern without a star is one of these names; and
the question for the language of a file is the one that the registry answers. -/
namespace MethodLint.Exclusions
open Outcomes

/-! ## Paths and their texts -/

/-- The path below a root that goes through some names. -/
def under (names : List String) : FilePath := ⟨.here, names⟩

/-- A name without a slash, as entries of directories have them. -/
def IsName (name : String) : Prop := '/' ∉ name.toList

instance (name : String) : Decidable (IsName name) := inferInstanceAs (Decidable (_ ∉ _))

variable {names patterns extensions languages : List String} {path : FilePath}

theorem pieces_text (filled : names ≠ []) (named : ∀ name ∈ names, IsName name) :
    FilePath.pieces (under names).text = names := by
  have text : (under names).text = "/".intercalate names := by
    simp [FilePath.text, under, filled, FilePath.Anchor.text]
  have apart : (['/'].intercalate (names.map String.toList)).splitOn '/' = names.map String.toList :=
    List.splitOn_intercalate '/' (by simpa [IsName] using named) (by simpa using filled)
  rw [text, FilePath.pieces, String.toList_intercalate]
  refine (congrArg (List.map String.ofList) apart).trans ?_
  simp

/-! ## Patterns -/

/-- A pattern that starts with a star matches a path that ends with the rest of it; any
other matches a path that goes through it. -/
def Matches (pattern : String) (names : List String) : Prop :=
  match pattern.toList with
  | '*' :: rest => rest <:+ (under names).text.toList
  | _ => pattern ∈ names

theorem matches_iff (filled : names ≠ []) (named : ∀ name ∈ names, IsName name) (pattern : String) :
    matchesPattern (under names).text pattern = true ↔ Matches pattern names := by
  unfold matchesPattern Matches
  rw [pieces_text filled named]
  cases pattern.toList with
  | nil => exact List.contains_iff_mem
  | cons first rest =>
    by_cases star : first = '*'
    · subst star
      exact List.isSuffixOf_iff_suffix
    · simp [star]

theorem excludedBy_texts (p : FilePath) (patterns : List String) :
    isExcludedBy p (patterns.map .str) = .ok (patterns.any (matchesPattern p.text)) := by
  induction patterns with
  | nil => rfl
  | cons pattern rest ih =>
    rw [List.map_cons, isExcludedBy, List.any_cons]
    cases matchesPattern p.text pattern
    · exact ih
    · rfl

/-! ## Extensions -/

theorem normalExtensions_texts (extensions : List String) : ∃ normal,
    normalExtensions (extensions.map .str) = .ok normal ∧
      ∀ extension, extension ∈ normal ↔ extension ∈ extensions.map normalExtension := by
  induction extensions with
  | nil => exact ⟨[], rfl, fun _ => Iff.rfl⟩
  | cons first rest ih =>
    obtain ⟨later, read, same⟩ := ih
    rw [List.map_cons, normalExtensions, read]
    by_cases known : later.contains (normalExtension first) = true
    · refine ⟨later, by simp only [bind, Except.bind, known, ↓reduceIte]; rfl, fun extension => ?_⟩
      rw [List.map_cons, List.mem_cons, same]
      refine ⟨.inr, fun either => either.elim (fun here => ?_) id⟩
      rw [here, ← same]
      simpa using known
    · refine ⟨normalExtension first :: later, by simp only [bind, Except.bind, known]; rfl, fun extension => ?_⟩
      rw [List.map_cons, List.mem_cons, List.mem_cons, same]

/-! ## Languages -/

/-- The built-in front end for an extension is the one that the registry has for it at the start. -/
theorem ofPath_language (path : FilePath) :
    (FrontEnd.ofPath? path).map FrontEnd.language = Registry.standard.languageOf? path := by
  have table : Registry.standard.languages =
      [(".py", "python"), (".pyw", "python"), (".json", "tree"), (".yaml", "tree"), (".yml", "tree")] := by
    decide +kernel
  rw [FrontEnd.ofPath?, Registry.languageOf?, table]
  generalize path.comparedExtension = extension
  simp only [RegistryRuns.lookup_entry, FrontEnd.ofExtension?, FrontEnd.all, FrontEnd.extensions,
    List.find?_cons, List.contains_cons, List.contains_nil]
  by_cases py : extension = ".py"
  · subst py; rfl
  by_cases pyw : extension = ".pyw"
  · subst pyw; rfl
  by_cases json : extension = ".json"
  · subst json; rfl
  by_cases yaml : extension = ".yaml"
  · subst yaml; rfl
  by_cases yml : extension = ".yml"
  · subst yml; rfl
  rw [beq_false_of_ne py, beq_false_of_ne pyw, beq_false_of_ne json, beq_false_of_ne yaml, beq_false_of_ne yml]
  simp [py, pyw, json, yaml, yml]

theorem wantsLanguage_iff (selection : Selection) (asked : selection.languages = languages.map .str)
    (path : FilePath) : selection.wantsLanguage path = true ↔
      ∃ language ∈ languages, Registry.standard.languageOf? path = some language := by
  unfold Selection.wantsLanguage
  rw [asked, ← ofPath_language]
  cases FrontEnd.ofPath? path with
  | none => simp [Value.isNull]
  | some frontEnd =>
    dsimp only [Option.map_some]
    rw [List.any_map, List.any_eq_true]
    refine exists_congr fun language => and_congr_right fun _ => ?_
    rw [Option.some.injEq, Function.comp_apply, Value.isText, decide_eq_true_eq]
    exact eq_comm

/-! ## Selections -/

/-- The selection asks for these languages, and leaves out these patterns and extensions. -/
structure Asks (selection : Selection) (patterns extensions languages : List String) : Prop where
  exclude : selection.exclude = .list (patterns.map .str)
  extensions : ∀ extension,
    extension ∈ selection.excludedExtensions ↔ extension ∈ extensions.map normalExtension
  languages : selection.languages = languages.map .str

variable {selection : Selection}

theorem excludes_texts (asks : Asks selection patterns extensions languages) (path : FilePath) :
    selection.excludes path = .ok (patterns.any (matchesPattern path.text)) := by
  rw [Selection.excludes, asks.exclude]
  exact excludedBy_texts path patterns

/-- A file is asked for by its extension: it is not left out for it, and has one of the languages. -/
structure Asked (extensions languages : List String) (path : FilePath) : Prop where
  extension : path.comparedExtension ∉ extensions.map normalExtension
  language : ∃ language ∈ languages, Registry.standard.languageOf? path = some language

/-- A selection takes the files that it does not exclude and that are asked for. -/
theorem takes_texts (asks : Asks selection patterns extensions languages) (path : FilePath) :
    ∃ taken, selection.takes path = .ok taken ∧
      (taken = true ↔ patterns.any (matchesPattern path.text) = false ∧ Asked extensions languages path) := by
  rw [Selection.takes, excludes_texts asks]
  cases patterns.any (matchesPattern path.text) with
  | true => exact ⟨false, rfl, by simp⟩
  | false =>
    refine ⟨_, rfl, ?_⟩
    rw [Bool.and_eq_true, wantsLanguage_iff selection asks.languages, Bool.not_eq_true',
      ← Bool.not_eq_true, List.contains_iff_mem, asks.extensions]
    exact ⟨fun both => ⟨rfl, both.1, both.2⟩, fun both => ⟨both.2.extension, both.2.language⟩⟩

/-! ## Scanners -/

/-- The languages that a scan looks for: those that are asked for, or the standard one. -/
def askedLanguages (languages : List String) : List String :=
  if languages = [] then [FrontEnd.source.language] else languages

theorem givenParts_texts (texts : List String) :
    (Value.list (texts.map .str)).givenParts = .ok (texts.map .str) := by
  cases texts <;> rfl

theorem orElse_texts {texts : List String} (given : texts ≠ []) (standard : Value) :
    (Value.list (texts.map .str)).orElse standard = .list (texts.map .str) := by
  cases texts with
  | nil => exact absurd rfl given
  | cons => rfl

theorem languages_texts (languages : List String) :
    ((Value.list (languages.map .str)).orElse Scanner.standardLanguages).parts
      = .ok ((askedLanguages languages).map .str) := by
  unfold askedLanguages
  split
  · next none => subst none; rfl
  · next given => rw [orElse_texts given]; rfl

theorem atLeastOne_int (workers : Int) : ∃ count, Scanner.atLeastOne (.int workers) = .ok count := by
  unfold Scanner.atLeastOne
  rw [show (Value.int workers).exceeds (.int 1) = .ok (decide (1 < workers)) from rfl]
  exact ⟨_, rfl⟩

/-- With some patterns a scanner asks for just what it is given, as far as its configuration is
accepted. -/
theorem make_asks (root : FilePath) (excluding : patterns ≠ []) (extensions languages : List String)
    (workers : Int) {config : Value} {thresholds : Thresholds}
    (configured : Config.thresholds (config.orElse Config.standard) = .ok thresholds)
    (reports : Bool) :
    ∃ scanner, Scanner.make root (.list (patterns.map .str)) (.list (extensions.map .str))
        (.list (languages.map .str)) (.int workers) config reports = .ok scanner ∧
      scanner.root = root ∧ Asks scanner.selection patterns extensions (askedLanguages languages) := by
  obtain ⟨normal, read, same⟩ := normalExtensions_texts extensions
  obtain ⟨count, counted⟩ := atLeastOne_int workers
  refine ⟨⟨root, ⟨.list (patterns.map .str), normal, (askedLanguages languages).map .str⟩, count,
    thresholds, reports⟩, ?_, rfl, rfl, same, rfl⟩
  simp only [Scanner.make, bind, Except.bind, givenParts_texts, read, languages_texts, counted,
    configured, orElse_texts excluding]
  rfl

end MethodLint.Exclusions
