import MethodLint.Proofs.Exclusions

/-! Keys of extensions. An extension that is registered is put in lower case before it gets
its dot, one that is excluded gets the dot first. The keys are the same: the small form of a
final sigma depends on what stands before it, but a dot in front is one of the characters
that are looked past there, and no character but the dot itself becomes a dot. So what an
extension leaves out of a scan are the files that it would be registered for. -/
namespace MethodLint.ExtensionKeys
open Text Outcomes Registry RegistryRuns Exclusions

variable {e language label : String} {r : Registry} {path : FilePath}

/-! ## Dots in lower case -/

/-- A dot farthest in front does not make a difference to what a sigma looks for. -/
theorem cased_behind_dot (before : List Char) : nextIsCased (before ++ ['.']) = nextIsCased before := by
  induction before with
  | nil =>
    have skipped : caseIgnorable.contains '.' = true := by decide +kernel
    simp only [List.nil_append, nextIsCased, skipped, if_true]
  | cons c rest ih => rw [List.cons_append, nextIsCased, nextIsCased, ih]

theorem lowerFrom_behind_dot (before text : List Char) :
    lowerFrom (before ++ ['.']) text = lowerFrom before text := by
  induction text generalizing before with
  | nil => rfl
  | cons c rest ih => rw [lowerFrom, lowerFrom, cased_behind_dot, ← List.cons_append, ih]

theorem lowerChar_dot : lowerChar '.' = '.' := by decide +kernel

/-- Putting a dot in front and lowering commute, whatever follows. -/
theorem lower_dotted (e : String) : lower ("." ++ e) = "." ++ lower e := by
  apply String.toList_injective
  have later : lowerFrom ['.'] e.toList = lowerFrom [] e.toList := lowerFrom_behind_dot [] e.toList
  simp [lower, lowerFrom, lowerChar_dot, later]

/-- A run that is found spans the code point. -/
theorem findCaseRun_spans {runs : Array CaseRun} {n steps low high : Nat} {run : CaseRun}
    (found : findCaseRun runs n steps low high = some run) :
    run ∈ runs.toList ∧ run.first ≤ n ∧ n ≤ run.last := by
  induction steps generalizing low high with
  | zero => cases found
  | succ steps ih =>
    rw [findCaseRun] at found
    split at found
    · split at found
      · cases found
      · rename_i middle here
        split at found
        · exact ih found
        · split at found
          · exact ih found
          · rename_i above below
            cases found
            exact ⟨Array.mem_toList_iff.mpr (Array.mem_of_getElem? here), Nat.le_of_not_lt above,
              Nat.le_of_not_lt below⟩
    · cases found

/-- No run leads to the code point of the dot. -/
theorem runs_miss_dot : ∀ run ∈ caseRuns.toList, ¬ (run.first + run.shift ≤ 46 ∧ 46 ≤ run.last + run.shift) := by
  decide +kernel

theorem code_dot {n : Nat} (dot : Char.ofNat n = '.') : n = 46 := by
  by_cases valid : n.isValidChar
  · rw [Char.ofNat, dif_pos valid] at dot
    exact congrArg Char.toNat dot
  · rw [Char.ofNat, dif_neg valid] at dot
    exact absurd dot (by decide)

/-- No other character becomes a dot. -/
theorem lowerChar_eq_dot {c : Char} (dot : lowerChar c = '.') : c = '.' := by
  unfold lowerChar at dot
  split at dot
  · exact dot
  · rename_i run found
    split at dot
    · obtain ⟨listed, above, below⟩ := findCaseRun_spans found
      have code := code_dot dot
      refine absurd ?_ (runs_miss_dot run listed)
      omega
    · exact dot

/-- A lowered text has a dot in front exactly if the text has. -/
theorem lower_startsWith_dot (e : String) : (lower e).startsWith "." = e.startsWith "." := by
  have front (s : String) : s.startsWith "." = true ↔ ∃ rest, s.toList = '.' :: rest := by
    rw [String.startsWith_string_iff]
    exact ⟨fun ⟨rest, same⟩ => ⟨rest, same.symm⟩, fun ⟨rest, same⟩ => ⟨rest, same.symm⟩⟩
  rw [Bool.eq_iff_iff, front, front, lower, String.toList_ofList]
  cases e.toList with
  | nil => exact Iff.rfl
  | cons c rest =>
    constructor
    · rintro ⟨later, dotted⟩
      rw [lowerFrom] at dotted
      split at dotted
      · split at dotted <;> cases dotted
      · split at dotted
        · cases dotted
        · obtain ⟨dot, _⟩ := List.cons.inj dotted
          exact ⟨rest, by rw [lowerChar_eq_dot dot]⟩
    · rintro ⟨later, dotted⟩
      obtain ⟨rfl, _⟩ := List.cons.inj dotted
      refine ⟨lowerFrom ['.'] rest, ?_⟩
      rw [lowerFrom]
      simp [lowerChar_dot]

/-! ## Keys -/

/-- Both ways of writing an extension for comparison come to the same. -/
theorem keys_agree (e : String) : registeredExtension e = normalExtension e := by
  simp only [registeredExtension, normalExtension, lower_startsWith_dot]
  split
  · rfl
  · rw [lower_dotted]

theorem normal_single (e : String) : normalExtensions [.str e] = .ok [registeredExtension e] := by
  rw [keys_agree]
  rfl

/-! ## Registrations -/

/-- A registry with one more registration, which is for one extension. -/
def registered (r : Registry) (language label e : String) : Registry :=
  (r.register language label true (.list [.str e])).1

/-- Once the extension is registered, the file is given a front end that this registration makes. -/
def Resolves (r : Registry) (language label e : String) (path : FilePath) : Prop :=
  ((registered r language label e).ofPath path).2 =
    .ok (some ⟨r.products, ⟨r.registrations, label, true⟩⟩, some language)

/-- The tables after the registration: the extension has its language, which has its maker and
nothing kept. -/
structure Registers (r : Registry) (language label e : String) (after : Registry) : Prop where
  languages : ∀ extension, after.languages.lookup extension =
    if extension = registeredExtension e then some language else r.languages.lookup extension
  maker : after.makers.lookup language = some ⟨r.registrations, label, true⟩
  fresh : after.kept.lookup language = none
  products : after.products = r.products

theorem registered_registers (r : Registry) (language label e : String) :
    Registers r language label e (registered r language label e) := by
  obtain ⟨table, state, claims⟩ := register_languages r ⟨language, label, true, .list [.str e]⟩
  have after : registered r language label e = { r.withMaker language label true with languages := table } := state
  have claimed : Registration.claims ⟨language, label, true, .list [.str e]⟩ = [registeredExtension e] := rfl
  rw [after]
  constructor
  case languages =>
    intro extension
    rw [claims, claimed]
    simp
  case maker =>
    rw [withMaker, lookup_put, if_pos rfl]
  case fresh =>
    rw [withMaker, lookup_drop, if_pos rfl]
  case products => rfl

/-- A file is given the new front end if its extension is the registered one, or if its language
already was the one that is registered again. -/
theorem resolves_iff : Resolves r language label e path ↔ language ≠ "" ∧
    (path.comparedExtension = registeredExtension e ∨ r.languageOf? path = some language) := by
  obtain ⟨languages, maker, nothing, products⟩ := registered_registers r language label e
  have asked : Resolves r language label e path ↔
      (registered r language label e).languageOf? path = some language := by
    unfold Resolves
    rw [ofPath_eq]
    cases found : (registered r language label e).languageOf? path with
    | none =>
      constructor <;> intro same <;> cases same
    | some other =>
      dsimp only
      constructor
      · intro resolved
        cases answer : ((registered r language label e).ofLanguage other).2 with
        | error fault =>
          rw [answer] at resolved
          cases resolved
        | ok product =>
          rw [answer] at resolved
          exact congrArg Prod.snd (Except.ok.inj resolved)
      · intro same
        obtain rfl := Option.some.inj same
        simp only [ofLanguage, maker, nothing, products, if_true, Except.map]
  rw [asked, languageOf?, languages, languageOf?]
  by_cases key : path.comparedExtension = registeredExtension e
  · simp [key]
  · rw [if_neg key]
    constructor
    · intro known
      obtain ⟨_, named⟩ := Option.filter_eq_some_iff.mp known
      exact ⟨by simpa using named, .inr known⟩
    · rintro ⟨_, same | known⟩
      · exact absurd same key
      · exact known

/-! ## Exclusions -/

/-- A selection that leaves out these extensions in place of its own. -/
def leaving (s : Selection) (extensions : List String) : Selection := { s with excludedExtensions := extensions }

/-- A scan that excludes the extension does not take the file, whatever else it asks for. -/
def Drops (e : String) (path : FilePath) : Prop :=
  ∀ s : Selection, normalExtensions [.str e] = .ok s.excludedExtensions → s.takes path ≠ .ok true

variable {s : Selection} {key : String}

theorem takes_eq (s : Selection) (path : FilePath) : s.takes path = (s.excludes path).map fun out =>
    !out && (!s.excludedExtensions.contains path.comparedExtension && s.wantsLanguage path) := by
  unfold Selection.takes
  generalize path.comparedExtension = suffix
  cases s.excludes path with
  | error e => rfl
  | ok out => cases out <;> rfl

theorem takes_leaving (s : Selection) (key : String) (path : FilePath) : (leaving s [key]).takes path =
    ((leaving s []).takes path).map fun taken => taken && path.comparedExtension != key := by
  have same : (leaving s [key]).excludes path = (leaving s []).excludes path := rfl
  have wanted : (leaving s [key]).wantsLanguage path = (leaving s []).wantsLanguage path := by
    unfold Selection.wantsLanguage
    cases FrontEnd.ofPath? path <;> rfl
  rw [takes_eq, takes_eq, same, wanted]
  generalize path.comparedExtension = suffix
  cases (leaving s []).excludes path with
  | error e => rfl
  | ok out =>
    refine congrArg Except.ok ?_
    simp only [leaving, List.contains_cons, List.contains_nil, Bool.or_false, Bool.not_false, Bool.true_and, bne]
    rw [Bool.and_comm (!(suffix == key)), Bool.and_assoc]

theorem drops_iff : Drops e path ↔ path.comparedExtension = registeredExtension e := by
  constructor
  · intro drops
    by_contra other
    -- A selection without patterns asks for whatever language the file has, so only the extension
    -- could keep it from taking the file.
    have asked : ∃ languages,
        (⟨.list [], [registeredExtension e], languages⟩ : Selection).wantsLanguage path = true := by
      unfold Selection.wantsLanguage
      cases FrontEnd.ofPath? path with
      | none => exact ⟨[.null], rfl⟩
      | some frontEnd => exact ⟨[.str frontEnd.language], by simp [Value.isText]⟩
    obtain ⟨languages, wanted⟩ := asked
    apply drops ⟨.list [], [registeredExtension e], languages⟩ (normal_single e)
    have free : (⟨.list [], [registeredExtension e], languages⟩ : Selection).excludes path = .ok false := rfl
    rw [takes_eq, free, wanted]
    simp [Except.map, other]
  · intro same selection excluding taken
    have only : selection.excludedExtensions = [registeredExtension e] :=
      (Except.ok.inj excluding).symm.trans (Except.ok.inj (normal_single e))
    rw [takes_eq, only, same] at taken
    cases out : selection.excludes path with
    | error fault => rw [out] at taken; cases taken
    | ok out => simp [out, Except.map] at taken

/-! ## Walks -/

/-- What was found at an entry, less the files with an extension. -/
def narrowed (key : String) (found : Found) : Found :=
  { found with paths := found.paths.filter fun path => path.comparedExtension != key }

theorem arrange_narrowed (key : String) (found : List Found) :
    arrange (found.map (narrowed key)) = (arrange found).filter fun path => path.comparedExtension != key := by
  have sorted : (found.map (narrowed key)).mergeSort (fun a b => decide (a.name ≤ b.name)) =
      (found.mergeSort fun a b => decide (a.name ≤ b.name)).map (narrowed key) :=
    (List.map_mergeSort (f := narrowed key) fun _ _ _ _ => rfl).symm
  unfold arrange
  simp only [sorted, List.filter_map, ← List.map_append, List.flatMap_map, List.filter_flatMap]
  rfl

mutual

/-- What a walk takes of an entry where an extension is left out too. -/
theorem foundAt_leaving (s : Selection) (key : String) (path : FilePath) (entry : FileEntry) :
    (leaving s [key]).foundAt path entry =
      ((leaving s []).foundAt path entry).map (List.filter fun path => path.comparedExtension != key) := by
  cases entry with
  | file bytes =>
    rw [Selection.foundAt, Selection.foundAt, takes_leaving]
    cases (leaving s []).takes path with
    | error e => rfl
    | ok taken =>
      refine congrArg Except.ok ?_
      cases taken with
      | false => rfl
      | true => simp only [Bool.true_and, if_true, List.filter_cons, List.filter_nil]
  | directory entries =>
    have same : (leaving s [key]).excludes path = (leaving s []).excludes path := rfl
    rw [Selection.foundAt, Selection.foundAt, same, foundAmong_leaving]
    cases (leaving s []).excludes path with
    | error e => rfl
    | ok out =>
      cases out with
      | true => rfl
      | false =>
        cases (leaving s []).foundAmong path entries with
        | error e => rfl
        | ok found => exact congrArg Except.ok (arrange_narrowed key found)

theorem foundAmong_leaving (s : Selection) (key : String) (directory : FilePath) (entries : List (String × FileEntry)) :
    (leaving s [key]).foundAmong directory entries =
      ((leaving s []).foundAmong directory entries).map (List.map (narrowed key)) := by
  match entries with
  | [] =>
    rw [Selection.foundAmong, Selection.foundAmong]
    rfl
  | (name, entry) :: rest =>
    cases entry <;> rw [Selection.foundAmong, Selection.foundAmong, foundAt_leaving, foundAmong_leaving]
    all_goals
      cases (leaving s []).foundAt (directory.child name) _ with
      | error e => rfl
      | ok paths =>
        cases (leaving s []).foundAmong directory rest with
        | error e => rfl
        | ok others => rfl

end

theorem below_leaving (s : Selection) (key : String) (root : Except Absence FileEntry) :
    (leaving s [key]).below root =
      ((leaving s []).below root).map (List.filter fun path => path.comparedExtension != key) := by
  unfold Selection.below
  split
  · rename_i entries
    rw [foundAmong_leaving]
    cases (leaving s []).foundAmong ⟨.here, []⟩ entries with
    | error e => rfl
    | ok found => exact congrArg Except.ok (arrange_narrowed key found)
  · rfl

/-! ## Scanners -/

section Scanners

variable {root : FilePath} {exclude languages workers config : Value} {reports : Bool} {s : Scanner}

/-- A scanner that leaves out one extension is one that leaves out none, but for its selection. -/
theorem made_leaving (e : String)
    (made : Scanner.make root exclude (.list []) languages workers config reports = .ok s) :
    leaving s.selection [] = s.selection ∧
      Scanner.make root exclude (.list [.str e]) languages workers config reports =
        .ok { s with selection := leaving s.selection [registeredExtension e] } := by
  have none : normalExtensions [] = .ok [] := rfl
  have given : (Value.list []).givenParts = .ok [] := rfl
  have single : (Value.list [.str e]).givenParts = .ok [.str e] := rfl
  unfold Scanner.make at made ⊢
  rw [given] at made
  rw [single]
  simp only [bind, Except.bind, none, normal_single] at made ⊢
  cases asked : (languages.orElse Scanner.standardLanguages).parts with
  | error fault => rw [asked] at made; cases made
  | ok parts =>
    cases counted : Scanner.atLeastOne workers with
    | error fault => rw [asked, counted] at made; cases made
    | ok count =>
      cases configured : Config.thresholds (config.orElse Config.standard) with
      | error fault => rw [asked, counted, configured] at made; cases made
      | ok thresholds =>
        rw [asked, counted, configured] at made
        cases made
        exact ⟨rfl, rfl⟩

end Scanners

/-- The key of a registered extension is the key of the excluded one. A registration that names the
extension gives its front end to the files that an exclusion drops, and besides to those that its
language had already; of a language that had none, it is these files alone. Excluding the extension
takes them out of what is found below a directory, and leaves the rest as it is. -/
theorem excluded_as_registered (e : String) (r : Registry) (language label : String) (named : language ≠ "") :
    registeredExtension e = normalExtension e ∧ normalExtensions [.str e] = .ok [registeredExtension e] ∧
    (∀ path, Resolves r language label e path ↔ Drops e path ∨ r.languageOf? path = some language) ∧
    ((∀ path, r.languageOf? path ≠ some language) → ∀ path, Drops e path ↔ Resolves r language label e path) ∧
    ∀ root exclude languages workers config reports s,
      Scanner.make root exclude (.list []) languages workers config reports = .ok s →
      ∃ t, Scanner.make root exclude (.list [.str e]) languages workers config reports = .ok t ∧
        ∀ entry, t.selection.below entry = (s.selection.below entry).map
          (List.filter fun path => path.comparedExtension != registeredExtension e) := by
  have resolves (path : FilePath) :
      Resolves r language label e path ↔ Drops e path ∨ r.languageOf? path = some language := by
    rw [resolves_iff, drops_iff]
    exact and_iff_right named
  refine ⟨keys_agree e, normal_single e, resolves, ?_, ?_⟩
  · intro fresh path
    rw [resolves path, or_iff_left (fresh path)]
  · intro root exclude languages workers config reports s made
    obtain ⟨none, narrower⟩ := made_leaving e made
    refine ⟨_, narrower, fun entry => ?_⟩
    rw [← none]
    exact below_leaving s.selection _ entry

/-- Two letters, the last of which is a final sigma once a dot is in front. -/
theorem sigma_excluded_as_registered : "go" ≠ "" ∧ registeredExtension "TΣ" = ".tς" ∧
    (∀ path, Registry.standard.languageOf? path ≠ some "go") ∧
    (∀ path, Drops "TΣ" path ↔ Resolves Registry.standard "go" "GoParser" "TΣ" path) ∧
    ∃ s t, Scanner.make ⟨.root, []⟩ .null (.list []) (.list [.null]) (.int 1) .null false = .ok s ∧
      Scanner.make ⟨.root, []⟩ .null (.list [.str "TΣ"]) (.list [.null]) (.int 1) .null false = .ok t ∧
      t.selection.below (.ok (.directory [("a.tς", .file [])])) =
        (s.selection.below (.ok (.directory [("a.tς", .file [])]))).map
          (List.filter fun path => path.comparedExtension != registeredExtension "TΣ") := by
  have fresh : ∀ path, Registry.standard.languageOf? path ≠ some "go" := by
    intro path known
    rw [← ofPath_language] at known
    cases found : FrontEnd.ofPath? path with
    | none => rw [found] at known; cases known
    | some frontEnd =>
      rw [found] at known
      cases frontEnd <;> exact absurd known (by decide)
  obtain ⟨_, _, _, same, walks⟩ := excluded_as_registered "TΣ" Registry.standard "go" "GoParser" (by decide)
  obtain ⟨t, made, narrower⟩ := walks ⟨.root, []⟩ .null (.list [.null]) (.int 1) .null false _ rfl
  exact ⟨by decide, by decide +kernel, fresh, same fresh, _, t, rfl, made, narrower _⟩

end MethodLint.ExtensionKeys
