import MethodLint.CommandLine.Run
import MethodLint.Proofs.ConfigLoading
import MethodLint.Proofs.FileSelection

/-! How far a configuration that was loaded can be relied on. Its sections and its
thresholds are checked when it is loaded, so what it excludes can always be put
together. The items of its lists are not checked, and one that is no text stops
whoever comes to it: among the extensions it stops every scan, among the patterns those
that meet a path which no pattern before it matches. -/
namespace MethodLint.ConfigSafety
open Outcomes Exclusions FileSelection DocumentReading ConfigLoading CommandLine

variable {config : Value} {patterns : List Value} {path root : FilePath} {entry : FileEntry}
variable {entries : List (String × FileEntry)} {files : Files} {selection : Selection}
variable {scanner : Scanner} {a : Arguments}

/-- A value that is a text. -/
def IsText (v : Value) : Prop := ∃ s, v = .str s

theorem texts_map (names : List String) : ∀ v ∈ names.map Value.str, IsText v := by
  intro v member
  obtain ⟨name, _, rfl⟩ := List.mem_map.mp member
  exact ⟨name, rfl⟩

/-! ## Patterns that are no texts -/

/-- A path comes to a pattern that is no text, and no pattern before that one matches it. -/
inductive Stuck (path : FilePath) : List Value → Prop
  | here {v : Value} {rest : List Value} (noText : ¬ IsText v) : Stuck path (v :: rest)
  | later {pattern : String} {rest : List Value} (other : matchesPattern path.text pattern = false)
      (stuck : Stuck path rest) : Stuck path (.str pattern :: rest)

theorem not_stuck (texts : ∀ v ∈ patterns, IsText v) : ¬ Stuck path patterns := by
  intro stuck
  induction stuck with
  | here noText => exact noText (texts _ List.mem_cons_self)
  | later _ _ ih => exact ih fun v member => texts v (List.mem_cons_of_mem _ member)

/-- A value behind texts of which none matches stops a path. -/
theorem stuck_behind {names : List String} {v : Value} {rest : List Value}
    (others : names.any (matchesPattern path.text) = false) (noText : ¬ IsText v) :
    Stuck path (names.map .str ++ v :: rest) := by
  induction names with
  | nil => exact .here noText
  | cons name names ih =>
    rw [List.any_cons, Bool.or_eq_false_iff] at others
    exact .later others.1 (ih others.2)

/-- Whether a path is excluded can be told exactly if the path is not stuck; and where it is
not excluded, all patterns are texts. -/
theorem excludedBy_ends (path : FilePath) (patterns : List Value) :
    (Stuck path patterns ∧ ∃ e, isExcludedBy path patterns = .error e) ∨
      (¬ Stuck path patterns ∧ ∃ excluded, isExcludedBy path patterns = .ok excluded ∧
        (excluded = false → ∀ v ∈ patterns, IsText v)) := by
  induction patterns with
  | nil => exact .inr ⟨nofun, false, rfl, by simp⟩
  | cons v rest ih =>
    cases v with
    | str pattern =>
      cases matching : matchesPattern path.text pattern with
      | true =>
        refine .inr ⟨fun stuck => ?_, true, by rw [isExcludedBy, if_pos matching], nofun⟩
        cases stuck with
        | here noText => exact noText ⟨pattern, rfl⟩
        | later apart => rw [matching] at apart; cases apart
      | false =>
        have same : isExcludedBy path (.str pattern :: rest) = isExcludedBy path rest := by
          rw [isExcludedBy, matching]
          rfl
        rw [same]
        rcases ih with ⟨stuck, stops⟩ | ⟨free, excluded, told, texts⟩
        · exact .inl ⟨.later matching stuck, stops⟩
        · refine .inr ⟨fun stuck => ?_, excluded, told, fun kept => ?_⟩
          · cases stuck with
            | here noText => exact noText ⟨pattern, rfl⟩
            | later _ later => exact free later
          · exact List.forall_mem_cons.mpr ⟨⟨pattern, rfl⟩, texts kept⟩
    | _ => exact .inl ⟨.here (by simp [IsText]), _, rfl⟩

/-! ## Selections -/

theorem excludes_list (given : selection.exclude = .list patterns) (path : FilePath) :
    selection.excludes path = isExcludedBy path patterns := by
  rw [Selection.excludes, given]
  rfl

/-- Whether an entry is excluded decides what is found at it: nothing where it cannot be told. -/
theorem foundAt_excludes (path : FilePath) (entry : FileEntry) (e : Fault)
    (stops : selection.excludes path = .error e) : selection.foundAt path entry = .error e := by
  cases entry with
  | file bytes =>
    rw [Selection.foundAt, Selection.takes, stops]
    rfl
  | directory entries =>
    rw [Selection.foundAt, stops]
    rfl

theorem foundAt_file {excluded : Bool} (told : selection.excludes path = .ok excluded) (bytes : List UInt8) :
    ∃ paths, selection.foundAt path (.file bytes) = .ok paths := by
  rw [Selection.foundAt, Selection.takes, told]
  cases excluded with
  | true => exact ⟨_, rfl⟩
  | false => exact ⟨_, rfl⟩

theorem foundAt_directory {excluded : Bool} (told : selection.excludes path = .ok excluded)
    (inside : excluded = false → ∃ found, selection.foundAmong path entries = .ok found) :
    ∃ paths, selection.foundAt path (.directory entries) = .ok paths := by
  rw [Selection.foundAt, told]
  cases excluded with
  | true => exact ⟨_, rfl⟩
  | false =>
    obtain ⟨found, ran⟩ := inside rfl
    exact ⟨arrange found, by rw [ran]; rfl⟩

theorem excludes_total (given : selection.exclude = .list patterns) (texts : ∀ v ∈ patterns, IsText v)
    (path : FilePath) : ∃ excluded, selection.excludes path = .ok excluded := by
  rw [excludes_list given]
  rcases excludedBy_ends path patterns with ⟨stuck, _⟩ | ⟨_, excluded, told, _⟩
  · exact absurd stuck (not_stuck texts)
  · exact ⟨excluded, told⟩

/-- What is found among entries is what is found at the first, and among the others. -/
theorem foundAmong_cons {directory : FilePath} {listed : String × FileEntry} {rest : List (String × FileEntry)}
    {found : List Found} : selection.foundAmong directory (listed :: rest) = .ok found ↔
      ∃ paths others, selection.foundAt (directory.child listed.1) listed.2 = .ok paths ∧
        selection.foundAmong directory rest = .ok others ∧ found = foundWith (fun _ => paths) listed :: others := by
  obtain ⟨name, entry⟩ := listed
  cases entry <;>
    · rw [Selection.foundAmong]
      constructor
      · intro ran
        obtain ⟨paths, first, ran⟩ := bind_ok_iff.mp ran
        obtain ⟨others, later, ran⟩ := bind_ok_iff.mp ran
        cases ran
        exact ⟨paths, others, first, later, rfl⟩
      · rintro ⟨paths, others, first, later, rfl⟩
        rw [first, later]
        rfl

mutual

/-- With texts as patterns it can be told of every entry what is to be taken. -/
theorem foundAt_texts (given : selection.exclude = .list patterns) (texts : ∀ v ∈ patterns, IsText v) :
    (path : FilePath) → (entry : FileEntry) → ∃ paths, selection.foundAt path entry = .ok paths
  | path, .file bytes => by
    obtain ⟨excluded, told⟩ := excludes_total given texts path
    exact foundAt_file told bytes
  | path, .directory entries => by
    obtain ⟨excluded, told⟩ := excludes_total given texts path
    exact foundAt_directory told fun _ => foundAmong_texts given texts path entries

theorem foundAmong_texts (given : selection.exclude = .list patterns) (texts : ∀ v ∈ patterns, IsText v) :
    (directory : FilePath) → (entries : List (String × FileEntry)) →
      ∃ found, selection.foundAmong directory entries = .ok found
  | _, [] => ⟨[], by rw [Selection.foundAmong]⟩
  | directory, (name, entry) :: rest => by
    obtain ⟨paths, first⟩ := foundAt_texts given texts (directory.child name) entry
    obtain ⟨found, later⟩ := foundAmong_texts given texts directory rest
    exact ⟨_, foundAmong_cons.mpr ⟨paths, found, first, later, rfl⟩⟩

end

/-- What is to be taken at an entry can be told exactly if its path is not stuck. Of a
directory nothing more is asked, since all patterns are texts where it is entered. -/
theorem foundAt_iff (given : selection.exclude = .list patterns) (path : FilePath) (entry : FileEntry) :
    (∃ paths, selection.foundAt path entry = .ok paths) ↔ ¬ Stuck path patterns := by
  rcases excludedBy_ends path patterns with ⟨stuck, e, stops⟩ | ⟨free, excluded, told, texts⟩
  · rw [foundAt_excludes path entry e ((excludes_list given path).trans stops)]
    exact iff_of_false nofun (not_not_intro stuck)
  · refine iff_of_true ?_ free
    have told := (excludes_list given path).trans told
    cases entry with
    | file bytes => exact foundAt_file told bytes
    | directory entries => exact foundAt_directory told fun kept => foundAmong_texts given (texts kept) path entries

theorem foundAmong_iff (given : selection.exclude = .list patterns) (directory : FilePath)
    (entries : List (String × FileEntry)) : (∃ found, selection.foundAmong directory entries = .ok found) ↔
      ∀ listed ∈ entries, ¬ Stuck (directory.child listed.1) patterns := by
  induction entries with
  | nil => exact iff_of_true ⟨[], by rw [Selection.foundAmong]⟩ (by simp)
  | cons listed rest ih =>
    obtain ⟨name, entry⟩ := listed
    rw [List.forall_mem_cons, ← ih, ← foundAt_iff given (directory.child name) entry]
    constructor
    · rintro ⟨found, ran⟩
      obtain ⟨paths, others, first, later, _⟩ := foundAmong_cons.mp ran
      exact ⟨⟨paths, first⟩, others, later⟩
    · rintro ⟨⟨paths, first⟩, others, later⟩
      exact ⟨_, foundAmong_cons.mpr ⟨paths, others, first, later, rfl⟩⟩

/-- A selection below a directory can be made exactly if no entry of the directory is stuck. -/
theorem paths_iff (given : selection.exclude = .list patterns)
    (directory : files.find root = .ok (.directory entries)) :
    (∃ paths, selection.paths files root = .ok paths) ↔
      ∀ listed ∈ entries, ¬ Stuck (under [listed.1]) patterns := by
  refine Iff.trans ?_ (foundAmong_iff given (under []) entries)
  rw [paths_directory directory]
  constructor
  · rintro ⟨paths, ran⟩
    obtain ⟨below, ran, _⟩ := bind_ok_iff.mp ran
    obtain ⟨found, ran, _⟩ := bind_ok_iff.mp ran
    exact ⟨found, ran⟩
  · rintro ⟨found, ran⟩
    exact ⟨_, by rw [Selection.below, show (⟨.here, []⟩ : FilePath) = under [] from rfl, ran]; rfl⟩

/-! ## Extensions -/

theorem normalExtensions_iff (extensions : List Value) :
    (∃ normal, normalExtensions extensions = .ok normal) ↔ ∀ v ∈ extensions, IsText v := by
  induction extensions with
  | nil => exact iff_of_true ⟨[], rfl⟩ (by simp)
  | cons v rest ih =>
    rw [List.forall_mem_cons, ← ih]
    cases v with
    | str extension =>
      rw [normalExtensions]
      constructor
      · rintro ⟨normal, ran⟩
        obtain ⟨later, ran, _⟩ := bind_ok_iff.mp ran
        exact ⟨⟨extension, rfl⟩, later, ran⟩
      · rintro ⟨_, later, ran⟩
        exact ⟨_, by rw [ran]; rfl⟩
    | _ => exact iff_of_false (by rintro ⟨_, ran⟩; cases ran) (by simp [IsText])

theorem hashable_texts {extensions : List Value} (texts : ∀ v ∈ extensions, IsText v) :
    checkAllHashable extensions = .ok () := by
  induction extensions with
  | nil => rfl
  | cons v rest ih =>
    obtain ⟨⟨s, rfl⟩, later⟩ := List.forall_mem_cons.mp texts
    exact ih later

/-! ## Scanners -/

/-- What a configuration lists under a name of its exclusions. -/
def items (config : Value) (name : String) : List Value :=
  match (config.getD "exclude").getD name with
  | .list items => items
  | _ => []

theorem excluded_items (sound : Sound config) (name : String) :
    excluded config name = .ok (items config name) := by
  unfold excluded items
  rcases sound.lists name with null | ⟨listed, found⟩
  · rw [null]
    rfl
  · rw [found]
    cases listed <;> rfl

/-- The patterns that a scan leaves out: the standard ones, those of the command, and those
that its configuration lists. -/
def scanPatterns (a : Arguments) (config : Value) : List Value :=
  (Config.standardExclusions ++ a.exclude).map .str ++ items config "directories" ++ items config "patterns"

theorem exclusions_sound (sound : Sound config) (a : Arguments) :
    exclusions a config = .ok (scanPatterns a config) := by
  rw [exclusions, excluded_items sound, excluded_items sound]
  rfl

/-- The scanner of a command and a configuration, built step by step. -/
def Builds (a : Arguments) (config : Value) (root : FilePath) (scanner : Scanner) : Prop :=
  ∃ exclude extensions, exclusions a config = .ok exclude ∧ excludedExtensions a config = .ok extensions ∧
    Scanner.make root (.list exclude) (.list extensions) (.list a.languages) a.workers config a.metrics
      = .ok scanner

theorem givenParts_list (items : List Value) : (Value.list items).givenParts = .ok items := by
  cases items <;> rfl

theorem builds_iff (sound : Sound config) {workers : Int} (whole : a.workers = .int workers) (root : FilePath) :
    (∃ scanner, Builds a config root scanner) ↔ ∀ v ∈ items config "extensions", IsText v := by
  constructor
  · rintro ⟨scanner, exclude, extensions, _, listed, made⟩
    rw [excludedExtensions, excluded_items sound] at listed
    obtain ⟨own, same, listed⟩ := bind_ok_iff.mp listed
    obtain ⟨_, _, listed⟩ := bind_ok_iff.mp listed
    cases same
    cases listed
    rw [Scanner.make, givenParts_list] at made
    obtain ⟨_, same, made⟩ := bind_ok_iff.mp made
    obtain ⟨normal, ran, _⟩ := bind_ok_iff.mp made
    cases same
    exact fun v member => (normalExtensions_iff _).mp ⟨normal, ran⟩ v (List.mem_append_right _ member)
  · intro texts
    obtain ⟨t, taken⟩ := sound.thresholds
    obtain ⟨count, counted⟩ := atLeastOne_int workers
    have all : ∀ v ∈ a.excludeExt.map Value.str ++ items config "extensions", IsText v :=
      List.forall_mem_append.mpr ⟨texts_map _, texts⟩
    obtain ⟨normal, ran⟩ := (normalExtensions_iff _).mpr all
    have listed : excludedExtensions a config = .ok (a.excludeExt.map .str ++ items config "extensions") := by
      rw [excludedExtensions, excluded_items sound]
      simp only [bind, Except.bind, hashable_texts texts]
      rfl
    have languages : ∃ asked, ((Value.list a.languages).orElse Scanner.standardLanguages).parts = .ok asked := by
      cases a.languages with
      | nil => exact ⟨_, rfl⟩
      | cons => exact ⟨_, rfl⟩
    obtain ⟨asked, languages⟩ := languages
    have configured : config.orElse Config.standard = config := if_neg (by simp [sound.filled])
    have selected : (Value.list (scanPatterns a config)).orElse Scanner.standardExclude =
        .list (scanPatterns a config) := rfl
    refine ⟨⟨root, ⟨.list (scanPatterns a config), normal, asked⟩, count, t, a.metrics⟩, _, _,
      exclusions_sound sound a, listed, ?_⟩
    simp only [Scanner.make, bind, Except.bind, givenParts_list, ran, languages, whole, counted, configured, taken,
      selected]
    rfl

theorem builds_selection (sound : Sound config) (built : Builds a config root scanner) :
    scanner.selection.exclude = .list (scanPatterns a config) := by
  obtain ⟨exclude, extensions, excluded, _, made⟩ := built
  rw [exclusions_sound sound] at excluded
  cases excluded
  obtain ⟨_, _, made⟩ := bind_ok_iff.mp made
  obtain ⟨_, _, made⟩ := bind_ok_iff.mp made
  obtain ⟨_, _, made⟩ := bind_ok_iff.mp made
  obtain ⟨_, _, made⟩ := bind_ok_iff.mp made
  obtain ⟨_, _, made⟩ := bind_ok_iff.mp made
  cases made
  rfl

/-! ## What can be relied on -/

/-- What a loaded configuration is good for, whatever else a command says. -/
structure Usable (config : Value) : Prop where
  /-- What is to be left out can be put together. -/
  exclusions : ∀ a, exclusions a config = .ok (scanPatterns a config)
  /-- There is a scanner exactly if all extensions are texts. -/
  scanner : ∀ (a : Arguments) root workers, a.workers = .int workers →
    ((∃ scanner, Builds a config root scanner) ↔ ∀ v ∈ items config "extensions", IsText v)
  /-- A file that is named itself is selected. -/
  file : ∀ a root scanner files, Builds a config root scanner → files.isFile root = true →
    scanner.selection.paths files root = .ok [root]
  /-- In a directory files are selected exactly if none of its entries comes to a pattern
  that is no text. -/
  directory : ∀ a root scanner files entries, Builds a config root scanner →
    files.find root = .ok (.directory entries) →
    ((∃ paths, scanner.selection.paths files root = .ok paths) ↔
      ∀ listed ∈ entries, ¬ Stuck (under [listed.1]) (scanPatterns a config))
  /-- A configuration that lists only texts is safe to use. -/
  texts : (∀ name ∈ ["directories", "extensions", "patterns"], ∀ v ∈ items config name, IsText v) →
    ∀ (a : Arguments) root workers files, a.workers = .int workers →
      ∃ scanner, Builds a config root scanner ∧ ∃ paths, scanner.selection.paths files root = .ok paths

theorem sound_usable (sound : Sound config) : Usable config := by
  refine ⟨exclusions_sound sound, fun a root workers whole => builds_iff sound whole root, ?_, ?_, ?_⟩
  · intro a root scanner files _ isFile
    rw [Selection.paths, if_pos isFile]
  · exact fun a root scanner files entries built directory => paths_iff (builds_selection sound built) directory
  · intro texts a root workers files whole
    obtain ⟨scanner, built⟩ := (builds_iff sound whole root).mpr (texts "extensions" (by simp))
    have given := builds_selection sound built
    have patterns : ∀ v ∈ scanPatterns a config, IsText v :=
      List.forall_mem_append.mpr ⟨List.forall_mem_append.mpr ⟨texts_map _, texts "directories" (by simp)⟩,
        texts "patterns" (by simp)⟩
    refine ⟨scanner, built, ?_⟩
    by_cases isFile : files.isFile root = true
    · exact ⟨[root], if_pos isFile⟩
    · cases found : files.find root with
      | error absence => exact ⟨[], by simp only [Selection.paths, isFile, found]; rfl⟩
      | ok entry =>
        cases entry with
        | file bytes => exact absurd (by rw [Files.isFile, found]) isFile
        | directory entries => exact (paths_iff given found).mpr fun listed _ => not_stuck patterns

/-- What holds of a configuration file, whatever is in it. -/
structure Reliable (files : Files) (path : FilePath) : Prop where
  /-- It is loaded and can be used, or it is rejected for a defect, or it cannot be read. -/
  loads : Ends Usable (fun e => IsDefect e ∨ Unread files path e) (Config.load files path)
  /-- A file that cannot be read is reported as such. -/
  unread : ∀ e, Unread files path e → Config.load files path = .error e
  /-- A file is reported missing exactly if it is. -/
  missing : ∀ e, Config.load files path = .error e →
    (e.category = .fileMissing ↔ files.find path = .error .missing)
  /-- A file that is there is loaded unless it has a defect, or its bytes are no text, or a
  value in it cannot be built. -/
  present : ∀ bytes e, files.find path = .ok (.file bytes) → Config.load files path = .error e →
    IsDefect e ∨ e.category = .undecodable ∨ Stops e

/-- A directory with a configuration that lists a number among its patterns. -/
def numberedFiles : Files :=
  ⟨.directory [("a.py", .file []), ("c.yaml", .file "exclude:\n  patterns: [1]\n".toUTF8.data.toList)], ⟨.root, []⟩⟩

end MethodLint.ConfigSafety
