import MethodLint.Proofs.Exclusions

/-! The files that a scan selects. A walk that leaves out directories on its way and
asks of every file on its own takes the files of which no enclosing directory, nor the
file itself, is excluded, and which are asked for. They come in an order of their
names, whatever the order in which directories list their entries. -/
namespace MethodLint.FileSelection
open Outcomes Exclusions

/-! ## Trees of files -/

/-- There is a file at the end of a path of names. -/
inductive FileAt : FileEntry → List String → Prop
  | here (bytes : List UInt8) : FileAt (.file bytes) []
  | inside {entries : List (String × FileEntry)} {name : String} {entry : FileEntry} {rest : List String}
      (listed : (name, entry) ∈ entries) (below : FileAt entry rest) :
      FileAt (.directory entries) (name :: rest)

/-- The entries of a directory have different names, without slashes. -/
inductive Proper : FileEntry → Prop
  | file (bytes : List UInt8) : Proper (.file bytes)
  | directory {entries : List (String × FileEntry)} (different : (entries.map Prod.fst).Nodup)
      (named : ∀ listed ∈ entries, IsName listed.1) (inner : ∀ listed ∈ entries, Proper listed.2) :
      Proper (.directory entries)

/-- A tree whose directories list their entries in another order. -/
inductive Relisted : FileEntry → FileEntry → Prop
  | listing {entries others : List (String × FileEntry)} (same : entries.Perm others) :
      Relisted (.directory entries) (.directory others)
  | inner {entry other : FileEntry} (before : List (String × FileEntry)) (name : String)
      (after : List (String × FileEntry)) (relisted : Relisted entry other) :
      Relisted (.directory (before ++ (name, entry) :: after))
        (.directory (before ++ (name, other) :: after))
  | trans {tree middle other : FileEntry} (first : Relisted tree middle) (second : Relisted middle other) :
      Relisted tree other

variable {entry other tree : FileEntry} {entries : List (String × FileEntry)}
  {names around rest : List String}

theorem fileAt_file {bytes : List UInt8} : FileAt (.file bytes) rest ↔ rest = [] :=
  ⟨fun present => by cases present; rfl, fun none => none ▸ .here bytes⟩

theorem fileAt_directory : FileAt (.directory entries) names ↔
    ∃ listed ∈ entries, ∃ rest, FileAt listed.2 rest ∧ names = listed.1 :: rest := by
  constructor
  · rintro ⟨⟩
    next name entry rest below listed => exact ⟨(name, entry), listed, rest, below, rfl⟩
  · rintro ⟨⟨name, entry⟩, listed, rest, below, rfl⟩
    exact .inside listed below

/-- Another order of the entries leaves all files where they are. -/
theorem fileAt_relisted (relisted : Relisted tree other) : FileAt tree names ↔ FileAt other names := by
  induction relisted generalizing names with
  | listing same => simp only [fileAt_directory, same.mem_iff]
  | inner before name after _ ih =>
    simp only [fileAt_directory, List.mem_append, List.mem_cons, or_and_right, exists_or, exists_eq_left, ih]
  | trans _ _ first second => exact first.trans second

theorem proper_relisted (relisted : Relisted tree other) (proper : Proper tree) : Proper other := by
  induction relisted with
  | listing same =>
    obtain ⟨_⟩ | ⟨different, named, inner⟩ := proper
    exact .directory ((same.map Prod.fst).nodup_iff.mp different)
      (fun listed there => named listed (same.mem_iff.mpr there))
      fun listed there => inner listed (same.mem_iff.mpr there)
  | inner before name after _ ih =>
    obtain ⟨_⟩ | ⟨different, named, inner⟩ := proper
    rw [List.forall_mem_append, List.forall_mem_cons] at named inner
    refine .directory (by simpa using different) ?_ ?_
    · exact List.forall_mem_append.mpr ⟨named.1, List.forall_mem_cons.mpr named.2⟩
    · exact List.forall_mem_append.mpr
        ⟨inner.1, List.forall_mem_cons.mpr ⟨ih inner.2.1, inner.2.2⟩⟩
  | trans _ _ first second => exact second (first proper)

/-! ## The order of a walk -/

/-- A file comes before another one in a walk: the files of a directory come first, by
name, and then what its directories hold, by the names of these. -/
inductive Before : List String → List String → Prop
  | files {a b : String} (less : a < b) : Before [a] [b]
  | deeper (a b c : String) (q : List String) : Before [a] (b :: c :: q)
  | apart {a b : String} (less : a < b) (c d : String) (p q : List String) :
      Before (a :: c :: p) (b :: d :: q)
  | within (a : String) {p q : List String} (inner : Before p q) : Before (a :: p) (a :: q)

theorem before_filled {p q : List String} (before : Before p q) : p ≠ [] ∧ q ≠ [] := by
  cases before <;> simp

theorem before_asymm {p q : List String} (before : Before p q) : ¬ Before q p := by
  induction before with
  | files less =>
    rintro (back | _ | _ | ⟨_, inner⟩)
    · exact String.lt_asymm less back
    · exact (before_filled inner).1 rfl
  | deeper a b c q =>
    rintro (_ | _ | _ | ⟨_, inner⟩)
    exact (before_filled inner).2 rfl
  | apart less c d p q =>
    rintro (_ | _ | back | ⟨_, inner⟩)
    · exact String.lt_asymm less back
    · exact String.lt_irrefl _ less
  | within a inner ih =>
    rintro (back | _ | back | ⟨_, outer⟩)
    · exact String.lt_irrefl _ back
    · exact (before_filled inner).2 rfl
    · exact String.lt_irrefl _ back
    · exact ih outer

theorem before_append (around : List String) {p q : List String} (before : Before p q) :
    Before (around ++ p) (around ++ q) := by
  induction around with
  | nil => exact before
  | cons name _ ih => exact .within name ih

/-! ## What is found in a directory -/

/-- What is found at one entry is arranged before what is found at another one. -/
def Precedes (f g : Found) : Prop :=
  (f.isDirectory = false ∧ g.isDirectory = true) ∨ (f.isDirectory = g.isDirectory ∧ f.name < g.name)

variable {found : List Found}

theorem mem_arrange {path : FilePath} : path ∈ arrange found ↔ ∃ f ∈ found, path ∈ f.paths := by
  simp only [arrange, List.mem_flatMap, List.mem_append, List.mem_filter, List.mem_mergeSort]
  refine exists_congr fun f => and_congr_left fun _ => ?_
  cases f.isDirectory <;> simp

/-- Sorting different names puts them in their strict order. -/
theorem sorted_names (different : (found.map Found.name).Nodup) :
    (found.mergeSort fun a b => decide (a.name ≤ b.name)).Pairwise fun f g => f.name < g.name := by
  have sorted := @List.pairwise_mergeSort Found (fun a b => decide (a.name ≤ b.name))
    (fun _ _ _ => by simpa using String.le_trans) (fun _ _ => by simpa using String.le_total _ _) found
  have apart : (found.mergeSort fun a b => decide (a.name ≤ b.name)).Pairwise fun f g => f.name ≠ g.name :=
    List.pairwise_map.mp (((List.mergeSort_perm found _).map Found.name).nodup_iff.mpr different)
  refine sorted.imp₂ (fun f g below other => String.not_le.mp fun back => ?_) apart
  exact other (String.le_antisymm (of_decide_eq_true below) back)

/-- Arranged paths keep the order that they have at each entry, and the order of the entries. -/
theorem arrange_ordered {R : FilePath → FilePath → Prop} (different : (found.map Found.name).Nodup)
    (each : ∀ f ∈ found, f.paths.Pairwise R)
    (across : ∀ f ∈ found, ∀ g ∈ found, Precedes f g → ∀ p ∈ f.paths, ∀ q ∈ g.paths, R p q) :
    (arrange found).Pairwise R := by
  have sorted := sorted_names different
  have same {f : Found} : f ∈ found.mergeSort (fun a b => decide (a.name ≤ b.name)) ↔ f ∈ found :=
    List.mem_mergeSort
  unfold arrange
  generalize found.mergeSort (fun a b => decide (a.name ≤ b.name)) = byName at sorted same
  refine List.pairwise_flatMap.mpr ⟨fun f there => each f ?_, List.pairwise_append.mpr ⟨?_, ?_, ?_⟩⟩
  · rcases List.mem_append.mp there with there | there
    · exact same.mp (List.mem_filter.mp there).1
    · exact same.mp (List.mem_filter.mp there).1
  · refine (sorted.filter _).imp_of_mem fun first second less => ?_
    obtain ⟨here, file⟩ := List.mem_filter.mp first
    obtain ⟨there, other⟩ := List.mem_filter.mp second
    simp only [Bool.not_eq_true'] at file other
    exact across _ (same.mp here) _ (same.mp there) (.inr ⟨file.trans other.symm, less⟩)
  · refine (sorted.filter _).imp_of_mem fun first second less => ?_
    obtain ⟨here, directory⟩ := List.mem_filter.mp first
    obtain ⟨there, other⟩ := List.mem_filter.mp second
    exact across _ (same.mp here) _ (same.mp there) (.inr ⟨directory.trans other.symm, less⟩)
  · intro f first g second
    obtain ⟨here, file⟩ := List.mem_filter.mp first
    obtain ⟨there, directory⟩ := List.mem_filter.mp second
    exact across _ (same.mp here) _ (same.mp there) (.inl ⟨by simpa using file, directory⟩)

/-! ## Wanted files -/

variable {patterns extensions languages : List String}

/-- A pattern matches the path through some names. -/
def Excluded (patterns names : List String) : Prop := ∃ pattern ∈ patterns, Matches pattern names

/-- Neither the path through some names nor one of the directories around it is excluded. -/
def Kept (patterns names : List String) : Prop :=
  ∀ start, start ≠ [] → start <+: names → ¬ Excluded patterns start

/-- A file that a scan has to select, by the names that lead to it from the root. -/
structure Wanted (patterns extensions languages names : List String) : Prop where
  kept : Kept patterns names
  asked : Asked extensions languages (under names)

theorem kept_snoc {name : String} :
    Kept patterns (around ++ [name]) ↔ Kept patterns around ∧ ¬ Excluded patterns (around ++ [name]) := by
  refine ⟨fun kept => ⟨fun start filled inside => ?_, ?_⟩, fun ⟨outer, last⟩ start filled inside => ?_⟩
  · exact kept start filled (inside.trans (List.prefix_append _ _))
  · exact kept _ (by simp) List.prefix_rfl
  · rcases List.prefix_concat_iff.mp inside with rfl | inside
    · exact last
    · exact outer start filled inside

theorem kept_start (kept : Kept patterns (around ++ rest)) : Kept patterns around :=
  fun start filled inside => kept start filled (inside.trans (List.prefix_append _ _))

theorem any_matches (filled : names ≠ []) (named : ∀ name ∈ names, IsName name) :
    patterns.any (matchesPattern (under names).text) = true ↔ Excluded patterns names := by
  rw [List.any_eq_true]
  exact exists_congr fun pattern => and_congr_right fun _ => matches_iff filled named pattern

/-! ## The walk -/

/-- The paths that a walk takes of an entry at the end of some names: those of the wanted
files, in their order. -/
structure Takes (patterns extensions languages : List String) (entry : FileEntry)
    (names : List String) (paths : List FilePath) : Prop where
  exact : ∀ path, path ∈ paths ↔ ∃ rest, FileAt entry rest ∧
    Wanted patterns extensions languages (names ++ rest) ∧ path = under (names ++ rest)
  ordered : paths.Pairwise fun p q => Before p.parts q.parts

/-- What is found at an entry whose paths are known. -/
def foundWith (paths : String × FileEntry → List FilePath) (listed : String × FileEntry) : Found :=
  ⟨listed.1, match listed.2 with | .file _ => false | .directory _ => true, paths listed⟩

variable {selection : Selection}

theorem foundAmong_each {directory : FilePath} {paths : String × FileEntry → List FilePath}
    (each : ∀ listed ∈ entries, selection.foundAt (directory.child listed.1) listed.2 = .ok (paths listed)) :
    selection.foundAmong directory entries = .ok (entries.map (foundWith paths)) := by
  induction entries with
  | nil => rw [Selection.foundAmong]; rfl
  | cons listed others ih =>
    obtain ⟨name, entry⟩ := listed
    obtain ⟨first, later⟩ := List.forall_mem_cons.mp each
    cases entry <;> rw [Selection.foundAmong, first, ih later] <;> rfl

/-- Of two entries the one that precedes has the earlier files. -/
theorem before_of_precedes {first second : String × FileEntry} {paths : String × FileEntry → List FilePath}
    (precedes : Precedes (foundWith paths first) (foundWith paths second)) {p q : List String}
    (one : FileAt first.2 p) (two : FileAt second.2 q) : Before (first.1 :: p) (second.1 :: q) := by
  obtain ⟨a, firstEntry⟩ := first
  obtain ⟨b, secondEntry⟩ := second
  cases one with
  | here =>
    cases two with
    | here => exact .files (precedes.resolve_left fun both => nomatch both.2).2
    | inside => exact .deeper ..
  | inside =>
    cases two with
    | here => exact absurd precedes (by simp [Precedes, foundWith])
    | inside => exact .apart (precedes.resolve_left fun both => nomatch both.1).2 ..

/-- From what is taken of each entry follows what is taken of all the entries of a directory. -/
theorem foundAmong_takes (different : (entries.map Prod.fst).Nodup)
    (each : ∀ listed ∈ entries, ∃ paths,
      selection.foundAt ((under around).child listed.1) listed.2 = .ok paths ∧
        Takes patterns extensions languages listed.2 (around ++ [listed.1]) paths) :
    ∃ found, selection.foundAmong (under around) entries = .ok found ∧
      Takes patterns extensions languages (.directory entries) around (arrange found) := by
  choose! paths found takes using each
  refine ⟨_, foundAmong_each found, fun path => ?_, arrange_ordered ?_ ?_ ?_⟩
  · simp only [mem_arrange, List.mem_map, exists_exists_and_eq_and, fileAt_directory]
    constructor
    · rintro ⟨listed, there, taken⟩
      obtain ⟨rest, present, wanted, rfl⟩ := ((takes listed there).exact path).mp taken
      rw [List.append_assoc] at wanted ⊢
      exact ⟨_, ⟨listed, there, rest, present, rfl⟩, wanted, rfl⟩
    · rintro ⟨_, ⟨listed, there, rest, present, rfl⟩, wanted, rfl⟩
      refine ⟨listed, there, ((takes listed there).exact _).mpr ⟨rest, present, ?_⟩⟩
      rw [List.append_assoc]
      exact ⟨wanted, rfl⟩
  · rw [List.map_map]
    exact different
  · rintro _ mapped
    obtain ⟨listed, there, rfl⟩ := List.mem_map.mp mapped
    exact (takes listed there).ordered
  · rintro _ firstMapped _ secondMapped precedes p one q two
    obtain ⟨first, here, rfl⟩ := List.mem_map.mp firstMapped
    obtain ⟨second, there, rfl⟩ := List.mem_map.mp secondMapped
    obtain ⟨rest, present, _, rfl⟩ := ((takes first here).exact p).mp one
    obtain ⟨other, alsoPresent, _, rfl⟩ := ((takes second there).exact q).mp two
    simpa [under] using before_append around (before_of_precedes precedes present alsoPresent)

/-- In a kept directory the walk takes of every entry just the wanted files. -/
theorem foundAt_takes (asks : Asks selection patterns extensions languages) (proper : Proper entry)
    {name : String} (kept : Kept patterns around) (named : ∀ part ∈ around ++ [name], IsName part) :
    ∃ paths, selection.foundAt ((under around).child name) entry = .ok paths ∧
      Takes patterns extensions languages entry (around ++ [name]) paths := by
  induction proper generalizing around name with
  | file bytes =>
    have excluded := @any_matches _ patterns (List.concat_ne_nil name around) named
    obtain ⟨taken, decided, exactly⟩ := takes_texts asks (under (around ++ [name]))
    rw [← Bool.not_eq_true, excluded] at exactly
    refine ⟨if taken then [under (around ++ [name])] else [], ?_, fun path => ?_, ?_⟩
    · rw [Selection.foundAt, show (under around).child name = under (around ++ [name]) from rfl, decided]
      cases taken <;> rfl
    · simp only [fileAt_file, exists_eq_left, List.append_nil]
      have wanted : taken = true ↔ Wanted patterns extensions languages (around ++ [name]) :=
        exactly.trans ⟨fun both => ⟨kept_snoc.mpr ⟨kept, both.1⟩, both.2⟩,
          fun wanted => ⟨(kept_snoc.mp wanted.kept).2, wanted.asked⟩⟩
      rw [← wanted]
      cases taken <;> simp
    · cases taken <;> simp
  | directory different inside _ ih =>
    have excluded := @any_matches _ patterns (List.concat_ne_nil name around) named
    rw [Selection.foundAt, show (under around).child name = under (around ++ [name]) from rfl,
      excludes_texts asks]
    cases matched : patterns.any (matchesPattern (under (around ++ [name])).text) with
    | true =>
      refine ⟨[], rfl, fun path => ?_, .nil⟩
      simp only [List.not_mem_nil, false_iff]
      rintro ⟨rest, _, wanted, _⟩
      exact (kept_snoc.mp (kept_start wanted.kept)).2 (excluded.mp matched)
    | false =>
      have enclosing : Kept patterns (around ++ [name]) :=
        kept_snoc.mpr ⟨kept, fun matching => by rw [excluded.mpr matching] at matched; cases matched⟩
      obtain ⟨found, read, takes⟩ := foundAmong_takes different fun listed there =>
        ih listed there enclosing (List.forall_mem_append.mpr ⟨named, by simpa using inside listed there⟩)
      exact ⟨arrange found, by rw [read]; rfl, takes⟩

/-! ## Selections -/

/-- A selection takes of every directory just the wanted files, each once, in the order
of a walk. -/
def SelectsExactly (patterns extensions languages : List String) (selection : Selection) : Prop :=
  ∀ (files : Files) (root : FilePath) (entries : List (String × FileEntry)),
    files.find root = .ok (.directory entries) → Proper (.directory entries) →
    ∃ taken : List (List String),
      selection.paths files root = .ok (taken.map fun names => root.join (under names)) ∧
      (∀ names, names ∈ taken ↔
        FileAt (.directory entries) names ∧ Wanted patterns extensions languages names) ∧
      taken.Nodup ∧ taken.Pairwise Before

/-- A selection does not depend on the order in which directories list their entries. -/
def IgnoresListing (selection : Selection) : Prop :=
  ∀ (files others : Files) (root : FilePath) (tree other : FileEntry),
    files.find root = .ok tree → others.find root = .ok other → Proper tree → Relisted tree other →
    selection.paths others root = selection.paths files root

theorem paths_directory {files : Files} {root : FilePath}
    (found : files.find root = .ok (.directory entries)) :
    selection.paths files root = do return (← selection.below (.ok (.directory entries))).map root.join := by
  rw [Selection.paths, Files.isFile, found]
  rfl

/-- A selection that asks for some files takes exactly these. -/
theorem asks_selects (asks : Asks selection patterns extensions languages) :
    SelectsExactly patterns extensions languages selection := by
  intro files root entries present proper
  obtain ⟨_⟩ | ⟨different, named, inner⟩ := proper
  have kept : Kept patterns [] := fun start filled inside => absurd (List.prefix_nil.mp inside) filled
  obtain ⟨found, read, takes⟩ := @foundAmong_takes _ [] _ _ _ selection different fun listed there =>
    foundAt_takes asks (inner listed there) kept (by simpa using named listed there)
  have exact (names : List String) : names ∈ (arrange found).map FilePath.parts ↔
      FileAt (.directory entries) names ∧ Wanted patterns extensions languages names := by
    simp only [List.mem_map, takes.exact]
    constructor
    · rintro ⟨_, ⟨rest, there, wanted, rfl⟩, rfl⟩
      exact ⟨there, wanted⟩
    · rintro ⟨there, wanted⟩
      exact ⟨_, ⟨names, there, wanted, rfl⟩, rfl⟩
  have ordered : ((arrange found).map FilePath.parts).Pairwise Before := List.pairwise_map.mpr takes.ordered
  refine ⟨(arrange found).map FilePath.parts, ?_, exact, ?_, ordered⟩
  · rw [paths_directory present, Selection.below, show (⟨.here, []⟩ : FilePath) = under [] from rfl, read]
    refine congrArg Except.ok ((List.map_congr_left fun path taken => ?_).trans List.map_map.symm)
    obtain ⟨names, _, _, rfl⟩ := (takes.exact path).mp taken
    rfl
  · refine ordered.imp fun before same => ?_
    subst same
    exact before_asymm before before

/-- A list of files is determined by which files it has, if it is in the order of a walk. -/
theorem ordered_unique {first second : List (List String)} (same : ∀ names, names ∈ first ↔ names ∈ second)
    (once : first.Nodup) (onceToo : second.Nodup) (ordered : first.Pairwise Before)
    (orderedToo : second.Pairwise Before) : first = second :=
  List.Perm.eq_of_pairwise (fun _ _ _ _ before after => absurd after (before_asymm before)) ordered orderedToo
    ((List.perm_ext_iff_of_nodup once onceToo).mpr same)

theorem relisted_directories (relisted : Relisted tree other) :
    (∃ entries, tree = .directory entries) ∧ ∃ entries, other = .directory entries := by
  induction relisted with
  | listing | inner => exact ⟨⟨_, rfl⟩, _, rfl⟩
  | trans _ _ first second => exact ⟨first.1, second.2⟩

theorem ignores_listing (exact : SelectsExactly patterns extensions languages selection) :
    IgnoresListing selection := by
  intro files others root tree other present presentToo proper relisted
  obtain ⟨⟨entries, rfl⟩, entriesToo, rfl⟩ := relisted_directories relisted
  obtain ⟨taken, paths, members, once, ordered⟩ := exact files root entries present proper
  obtain ⟨takenToo, pathsToo, membersToo, onceToo, orderedToo⟩ :=
    exact others root entriesToo presentToo (proper_relisted relisted proper)
  have same (names : List String) : names ∈ takenToo ↔ names ∈ taken := by
    rw [members, membersToo, fileAt_relisted relisted]
  rw [paths, pathsToo, ordered_unique same onceToo once orderedToo ordered]

/-- With some patterns a scanner selects of a directory exactly the wanted files, each
once, in an order that does not depend on how directories list their entries; a root
that is a file is selected alone. Where no language is asked for, the standard one is. -/
theorem selection_exact (root : FilePath) (patterns extensions languages : List String)
    (excluding : patterns ≠ []) (workers : Int) (config : Value) (thresholds : Thresholds)
    (configured : Config.thresholds (config.orElse Config.standard) = .ok thresholds) (reports : Bool) :
    ∃ scanner, Scanner.make root (.list (patterns.map .str)) (.list (extensions.map .str))
        (.list (languages.map .str)) (.int workers) config reports = .ok scanner ∧
      scanner.root = root ∧
      SelectsExactly patterns extensions (askedLanguages languages) scanner.selection ∧
      IgnoresListing scanner.selection ∧
      ∀ files file, files.isFile file = true → scanner.selection.paths files file = .ok [file] := by
  obtain ⟨scanner, made, rooted, asks⟩ :=
    make_asks root excluding extensions languages workers configured reports
  refine ⟨scanner, made, rooted, asks_selects asks, ignores_listing (asks_selects asks), ?_⟩
  intro files file named
  rw [Selection.paths, named]
  rfl

/-- A file and a directory with another one. -/
def sampleTree : List (String × FileEntry) :=
  [(".venv", .directory [("x.py", .file [])]), ("main.py", .file [])]

theorem sampleTree_proper : Proper (.directory sampleTree) := by
  have inner : Proper (.directory [("x.py", .file [])]) :=
    .directory (by decide) (by simpa using (by decide : IsName "x.py")) (by simpa using .file [])
  refine .directory (by decide) ?_ ?_
  · simpa [sampleTree] using (⟨by decide, by decide⟩ : IsName ".venv" ∧ IsName "main.py")
  · simpa [sampleTree] using And.intro inner (.file [])

theorem sampleTree_files : FileAt (.directory sampleTree) names ↔
    names = [".venv", "x.py"] ∨ names = ["main.py"] := by
  simp [sampleTree, fileAt_directory, fileAt_file]

theorem main_wanted : Wanted [".venv"] [] ["python"] ["main.py"] := by
  refine ⟨fun start filled inside => ?_, by decide, "python", by decide, by decide +kernel⟩
  obtain ⟨_, rfl, nothing⟩ := (List.prefix_cons_iff.mp inside).resolve_left filled
  obtain rfl := List.prefix_nil.mp nothing
  exact fun excluded => absurd ((any_matches filled (by decide)).mpr excluded) (by decide)

theorem excluded_unwanted : ¬ Wanted [".venv"] [] ["python"] [".venv", "x.py"] :=
  fun wanted => wanted.kept [".venv"] (by simp) (by simp)
    ((any_matches (by simp) (by decide)).mp (by decide))

theorem excluding_selection_exact : [".venv"] ≠ [] ∧
    Config.thresholds (Value.null.orElse Config.standard) = .ok .standard ∧
    ∃ scanner, Scanner.make ⟨.root, []⟩ (.list [.str ".venv"]) (.list []) (.list [.str "python"])
        (.int 1) .null false = .ok scanner ∧
      scanner.selection.paths ⟨.directory sampleTree, ⟨.root, []⟩⟩ ⟨.root, []⟩
        = .ok [⟨.root, ["main.py"]⟩] := by
  have configured : Config.thresholds (Value.null.orElse Config.standard) = .ok .standard := by rfl
  obtain ⟨scanner, made, _, exact, _⟩ := selection_exact ⟨.root, []⟩ [".venv"] [] ["python"] (by simp) 1 .null
    .standard configured false
  obtain ⟨taken, paths, members, once, ordered⟩ := exact ⟨.directory sampleTree, ⟨.root, []⟩⟩ ⟨.root, []⟩
    sampleTree rfl sampleTree_proper
  have same (names : List String) : names ∈ taken ↔ names ∈ [["main.py"]] := by
    rw [members, sampleTree_files, List.mem_singleton]
    refine ⟨fun ⟨place, wanted⟩ => place.resolve_left fun there => ?_, ?_⟩
    · exact excluded_unwanted (there ▸ wanted)
    · rintro rfl
      exact ⟨.inr rfl, main_wanted⟩
  refine ⟨by simp, configured, scanner, made, ?_⟩
  rw [paths, ordered_unique same once (by simp) ordered (List.pairwise_singleton _ _)]
  rfl

/-- Where no language is asked for, some files are selected all the same. -/
theorem no_languages_select_source : ∃ scanner,
    Scanner.make ⟨.root, []⟩ (.list [.str ".venv"]) (.list []) (.list []) (.int 1) .null false = .ok scanner ∧
      ¬ SelectsExactly [".venv"] [] [] scanner.selection := by
  have configured : Config.thresholds (Value.null.orElse Config.standard) = .ok .standard := by rfl
  obtain ⟨scanner, made, _, asks⟩ :=
    make_asks ⟨.root, []⟩ (List.cons_ne_nil ".venv" []) [] [] 1 configured false
  refine ⟨scanner, made, fun exact => ?_⟩
  obtain ⟨taken, paths, members, _⟩ := asks_selects asks ⟨.directory sampleTree, ⟨.root, []⟩⟩ ⟨.root, []⟩
    sampleTree rfl sampleTree_proper
  obtain ⟨claimed, same, none, _⟩ := exact ⟨.directory sampleTree, ⟨.root, []⟩⟩ ⟨.root, []⟩
    sampleTree rfl sampleTree_proper
  have selected : ["main.py"] ∈ taken := (members _).mpr ⟨sampleTree_files.mpr (.inr rfl), main_wanted⟩
  have empty : claimed = [] := List.eq_nil_iff_forall_not_mem.mpr fun names there => by
    obtain ⟨_, ⟨_, _, _, asked, _⟩⟩ := (none names).mp there
    exact absurd asked List.not_mem_nil
  rw [paths, empty, Except.ok.injEq, List.map_nil, List.map_eq_nil_iff] at same
  exact absurd selected (same ▸ List.not_mem_nil)

end MethodLint.FileSelection
