import MethodLint.Proofs.AcceptedDocuments
import MethodLint.Proofs.DocumentNodes
import MethodLint.Proofs.ScanReports
import MethodLint.Proofs.TreeDumps

/-! The compilation unit of a document. A tree whose root is one already stays as it is but
for a path that it lacks, and any other tree becomes the only child of a new one. Nobody
who analyzes the unit can tell: it has the methods of the tree itself, at the same levels,
also where levels are counted by links upwards and the root has got one to follow. -/
namespace MethodLint.WrappedDocuments
open Node Walks Outcomes Findings Documents LinkedTrees LinkedWalks DumpedOutlines AcceptedDocuments DocumentNodes
open OutlineFunctions TreeDumps ScanReports

variable {files : Files} {path : FilePath} {s t : Store} {v : Value} {n m tree : Node} {h h' : Header} {a b p : Nat}
  {below : List Node}

/-! ## The unit of a tree -/

/-- The compilation unit that is made of a tree. -/
def unitOf (path : FilePath) (n : Node) : Node :=
  if n.kind = Kind.compilationUnit then .mk (Tree.withPath path n.header) n.children else Tree.wrapped path n

/-- The header of a new unit around a node. -/
def unitHeader (path : FilePath) (h : Header) : Header :=
  ⟨Kind.compilationUnit, h.beginLine, h.endLine, .compilationUnit (.str path.text)⟩

/-- The unit of a tree in a store: the root gets a path, or a new node takes it in. -/
def unitAt (path : FilePath) (s : Store) (root : Nat) : Nat × Store :=
  if (s.cell root).header.kind = Kind.compilationUnit then
    (root, s.setCell root { s.cell root with header := Tree.withPath path (s.cell root).header })
  else
    (s.cells.size, (s.create (unitHeader path (s.cell root).header) []).2.addChild s.cells.size root)

/-- The path that is given, or that of the file. -/
def pathOr (path : FilePath) (given : Value) : Value := if given.isNull then .str path.text else given

theorem pathOr_given (path : FilePath) (given : Value) : pathOr path given ≠ .null := by
  unfold pathOr
  split
  · nofun
  · rename_i present
    exact fun null => present (Flags.isNull_iff.mpr null)

/-- A compilation unit with a path: the tree itself, up to its path, or a new one around it. -/
inductive IsUnitOf (path : FilePath) (n : Node) : Node → Prop where
  | same (kind : n.kind = "CompilationUnit") (own : n.header.variant = .compilationUnit given) :
      IsUnitOf path n (.mk { n.header with variant := .compilationUnit (pathOr path given) } n.children)
  | around (kind : n.kind ≠ "CompilationUnit") :
      IsUnitOf path n (.mk ⟨"CompilationUnit", n.header.beginLine, n.header.endLine,
        .compilationUnit (.str path.text)⟩ [n])

theorem isUnitOf_path (unit : IsUnitOf path n m) :
    ∃ given, m.header.variant = .compilationUnit given ∧ given ≠ .null := by
  cases unit with
  | same _ _ => exact ⟨_, rfl, pathOr_given path _⟩
  | around _ => exact ⟨_, rfl, nofun⟩

theorem withPath_kind (path : FilePath) (h : Header) : (Tree.withPath path h).kind = h.kind := by
  unfold Tree.withPath
  split <;> rfl

theorem isUnitOf_unitOf (path : FilePath) (sound : Everywhere Sound [n]) : IsUnitOf path n (unitOf path n) := by
  obtain ⟨⟨name, first, last, variant⟩, below⟩ := n
  by_cases kind : name = Kind.compilationUnit
  · have made : unitOf path (.mk ⟨name, first, last, variant⟩ below) =
        .mk (Tree.withPath path ⟨name, first, last, variant⟩) below := if_pos kind
    have shape : variant.shape = .compilationUnit :=
      (everywhere_node_iff.mp sound).1.shape.trans (congrArg Shape.ofKind kind)
    cases variant <;> cases shape
    rename_i given
    have header : Tree.withPath path ⟨name, first, last, .compilationUnit given⟩ =
        ⟨name, first, last, .compilationUnit (pathOr path given)⟩ := by
      unfold pathOr
      cases null : given.isNull with
      | true => exact withPath_absent path null
      | false => exact withPath_given path null
    rw [made, header]
    exact IsUnitOf.same (n := .mk ⟨name, first, last, .compilationUnit given⟩ below) kind rfl
  · have made : unitOf path (.mk ⟨name, first, last, variant⟩ below) =
        Tree.wrapped path (.mk ⟨name, first, last, variant⟩ below) := if_neg kind
    rw [made]
    exact .around kind

/-! ## Its methods -/

/-- The unit of a tree has the methods of the tree. -/
theorem methods_unitOf (path : FilePath) (n : Node) : methods (unitOf path n) = methods n := by
  obtain ⟨h, below⟩ := n
  have other {unit : Header} (kind : unit.kind = Kind.compilationUnit) : unit.kind ≠ Kind.methodDeclaration := by
    rw [kind]
    decide
  unfold unitOf
  split
  · rename_i kind
    have own : h.kind = Kind.compilationUnit := kind
    rw [header_mk, children_mk, methods_unit _ (other ((withPath_kind path h).trans own)), methods_unit _ (other own)]
  · rw [Tree.wrapped, methods_unit _ (other rfl), ← methods_among]

/-- Two trees are gone through alike by every analysis: they have the same methods at the
same levels, and give the same violations, records and faults. -/
structure PassedAlike (n m : Node) : Prop where
  declarations : n.pass.declarations = m.pass.declarations
  analyze : ∀ t file, (n.analyze t file).outcome = (m.analyze t file).outcome
  measure : ∀ t, (n.measureMethods t).outcome = (m.measureMethods t).outcome

theorem passedAlike (same : methods n = methods m) : PassedAlike n m := by
  refine ⟨congrArg (List.map declared) same, fun t file => ?_, fun t => ?_⟩
  · rw [analyze_outcome, analyze_outcome, same]
  · rw [measureMethods_outcome, measureMethods_outcome, same]

/-! ## Links -/

mutual

/-- Below a node everything stays as it is, whatever becomes of the node itself: it is none of
those below it, for what is at each of these is smaller. -/
theorem holds_apart (n : Node) {b : Nat} (whole : Holds s m a) (larger : s.cells.size ≤ t.cells.size)
    (same : ∀ i < s.cells.size, i ≠ a → t.cell i = s.cell i) (held : Holds s n b) (smaller : n.size < m.size) :
    Holds t n b := by
  cases n with
  | mk h below =>
    have different : b ≠ a := by
      rintro rfl
      rw [holds_unique _ held whole] at smaller
      exact Nat.lt_irrefl _ smaller
    obtain ⟨inside, header, inner⟩ := held
    have cell := same b inside different
    refine .node (Nat.lt_of_lt_of_le inside larger) (by rw [cell, header]) ?_
    rw [cell]
    refine holdsAll_apart below whole larger same inner ?_
    rw [Node.size] at smaller
    omega

theorem holdsAll_apart (nodes : List Node) {p : Nat} {addresses : List Nat} (whole : Holds s m a)
    (larger : s.cells.size ≤ t.cells.size) (same : ∀ i < s.cells.size, i ≠ a → t.cell i = s.cell i)
    (held : HoldsAll s p nodes addresses) (smaller : size.sizeAll nodes < m.size) : HoldsAll t p nodes addresses := by
  cases held with
  | nil => exact .nil
  | @cons n b _ later _ here link rest =>
    rw [Node.size.sizeAll] at smaller
    have different : b ≠ a := by
      rintro rfl
      rw [holds_unique _ here whole] at smaller
      omega
    refine .cons (holds_apart n whole larger same here (by omega)) ?_
      (holdsAll_apart later whole larger same rest (by omega))
    rw [same b (holds_inside here) different, link]

end

/-- A tree whose root gets another header or another parent, and nothing else changes. -/
theorem holds_changed (held : Holds s (.mk h below) a) (larger : s.cells.size ≤ t.cells.size)
    (same : ∀ i < s.cells.size, i ≠ a → t.cell i = s.cell i) (header : (t.cell a).header = h')
    (children : (t.cell a).children = (s.cell a).children) : Holds t (.mk h' below) a := by
  have ⟨inside, _, inner⟩ := held
  refine .node (Nat.lt_of_lt_of_le inside larger) header ?_
  rw [children]
  refine holdsAll_apart below held larger same inner ?_
  rw [Node.size]
  omega

/-- A new unit that takes a tree in. -/
theorem wrapped_holds (path : FilePath) (held : Holds s n a) :
    Holds ((s.create (unitHeader path n.header) []).2.addChild s.cells.size a) (Tree.wrapped path n) s.cells.size := by
  have inside := holds_inside held
  have header := holds_header held
  have size : ((s.create (unitHeader path n.header) []).2.addChild s.cells.size a).cells.size = s.cells.size + 1 := by
    simp
  have taken (i : Nat) : ((s.create (unitHeader path n.header) []).2.addChild s.cells.size a).cell i =
      if i = a then { s.cell a with parent := some s.cells.size }
      else if i = s.cells.size then ⟨unitHeader path n.header, [a], none, none⟩ else s.cell i := by
    rw [cell_addChild (by simp) (by simp; omega) (by omega), cell_create, cell_create, cell_create, if_pos rfl,
      if_neg (by omega : a ≠ s.cells.size)]
    by_cases root : i = a
    · rw [if_pos root, if_pos root]
    · by_cases new : i = s.cells.size
      · rw [if_neg root, if_neg root, if_pos new, if_pos new]
        rfl
      · simp only [if_neg root, if_neg new]
  generalize (s.create (unitHeader path n.header) []).2.addChild s.cells.size a = t at size taken ⊢
  have unit : t.cell s.cells.size = ⟨unitHeader path n.header, [a], none, none⟩ := by
    rw [taken, if_neg (by omega), if_pos rfl]
  have root : t.cell a = { s.cell a with parent := some s.cells.size } := by rw [taken, if_pos rfl]
  have child : Holds t n a := by
    obtain ⟨h, below⟩ := n
    refine holds_changed held (by omega) (fun i old different => ?_) (by rw [root, header, header_mk]) (by rw [root])
    rw [taken, if_neg different, if_neg (by omega)]
  refine .node (size ▸ Nat.lt_succ_self _) (by rw [unit]; rfl) ?_
  rw [unit]
  exact .cons child (by rw [root]) .nil

/-- Where a store has a tree, it has the unit of the tree once this is made. -/
theorem unitAt_holds (path : FilePath) (held : Holds s n a) :
    Holds (unitAt path s a).2 (unitOf path n) (unitAt path s a).1 := by
  unfold unitAt unitOf
  rw [holds_header held]
  by_cases kind : n.kind = Kind.compilationUnit
  · rw [if_pos kind, if_pos (show n.header.kind = Kind.compilationUnit from kind)]
    have cell := cell_setCell (holds_inside held) { s.cell a with header := Tree.withPath path n.header }
    obtain ⟨h, below⟩ := n
    refine holds_changed held (by simp) (fun i _ different => ?_) ?_ ?_
    · rw [cell, if_neg different]
    · rw [cell, if_pos rfl]
    · rw [cell, if_pos rfl]
  · rw [if_neg kind, if_neg (show ¬ n.header.kind = Kind.compilationUnit from kind)]
    exact wrapped_holds path held

/-! ## Documents -/

/-- What is made of the document in a file. -/
structure Transparent (files : Files) (path : FilePath) (v : Value) (n unit : Node) : Prop where
  /-- The unit is a compilation unit with a path, and the tree of the document but for that. -/
  isUnit : unit.kind = "CompilationUnit" ∧ ∃ given, unit.header.variant = .compilationUnit given ∧ given ≠ .null
  made : IsUnitOf path n unit
  /-- It is analyzed as the tree is. -/
  alike : PassedAlike unit n
  /-- So it is where both are put together of linked nodes and levels are counted by links
  upwards. -/
  linked : ∀ (s : Store) (name : String), ∃ root loaded, s.read v = .ok (root, loaded) ∧
    AnalyzedAs (loaded.hold name root) root n ∧
      AnalyzedAs ((unitAt path loaded root).2.hold name (unitAt path loaded root).1) (unitAt path loaded root).1 unit
  /-- As many methods are measured as the document has. -/
  measured : ∀ t ms, (n.measureMethods t).outcome = .ok ms → ms.length = methodCount v
  /-- A scan that does not fail counts as many, can measure them, and finds what there is in the
  tree. -/
  scanned : ∀ (s : Scanner) f findings, FrontEnd.ofPath? path = some .document →
    (s.scanFile files path).outcome = .ok f → f.outcome = .ok findings →
      findings.methodCount = methodCount v ∧
        (n.analyze s.thresholds (some (s.shownPath files path))).outcome = .ok findings.violations ∧
        ∃ ms, (n.measureMethods s.thresholds).outcome = .ok ms ∧ ms.length = findings.methodCount

theorem parse_made (parsed : (FrontEnd.document.parse files path).outcome = .ok tree) :
    ∃ v n, Loads files path v ∧ Node.ofValue v = .ok n ∧ tree = unitOf path n := by
  unfold FrontEnd.parse at parsed
  rw [Traced.outcome_bind, Traced.outcome_of] at parsed
  obtain ⟨text, readable, made⟩ := bind_ok_iff.mp parsed
  obtain ⟨v, n, loaded, described, rfl⟩ := unitOf_parts made
  exact ⟨v, n, ⟨text, readable, loaded⟩, described, rfl⟩

theorem measured_length {t : Thresholds} {ms : List Measured} (measured : (n.measureMethods t).outcome = .ok ms) :
    ms.length = (methods n).length := by
  rw [measureMethods_outcome] at measured
  exact (mapM_ok_forall measured).length_eq.symm

/-- A file that does not fail has the findings of its analysis. -/
theorem scanFile_analyzed {scanner : Scanner} {frontEnd : FrontEnd} {f : FileResult} {findings : FileFindings}
    (reads : FrontEnd.ofPath? path = some frontEnd) (ran : (scanner.scanFile files path).outcome = .ok f)
    (fine : f.outcome = .ok findings) : (scanner.analyzeFile files path frontEnd).outcome = .ok findings := by
  unfold Scanner.scanFile at ran
  simp only [reads, Traced.outcome_bind, Traced.attempt] at ran
  cases analyzed : (scanner.analyzeFile files path frontEnd).outcome with
  | ok other =>
    rw [analyzed] at ran
    cases ran
    exact congrArg Except.ok (Except.ok.inj fine)
  | error e =>
    rw [analyzed] at ran
    cases failed : Scanner.failure? (scanner.shownPath files path) e with
    | none =>
      simp only [bind, Except.bind, failed] at ran
      cases ran
    | some failure =>
      simp only [bind, Except.bind, failed] at ran
      cases ran
      cases fine

/-- Whatever document a file holds, if it is accepted, it describes a tree, and the file is
parsed as the unit of the tree, which is analyzed as the tree itself is; a scan counts the
methods in the document. -/
theorem documents_wrapped_transparently (parsed : (FrontEnd.document.parse files path).outcome = .ok tree) :
    ∃ v n, Loads files path v ∧ Node.ofValue v = .ok n ∧ Transparent files path v n tree := by
  obtain ⟨v, n, loads, described, rfl⟩ := parse_made parsed
  have sound := ofValue_sound n described
  have alike := passedAlike (methods_unitOf path n)
  have count := methodCount_eq described
  refine ⟨v, n, loads, described, ⟨?_, ?_⟩, isUnitOf_unitOf path sound, alike, ?_, ?_, ?_⟩
  · exact parse_kind parsed
  · exact isUnitOf_path (isUnitOf_unitOf path sound)
  · intro s name
    obtain ⟨loaded, read, _, held⟩ := read_ok s described
    exact ⟨_, loaded, read, analyzed_holds held name, analyzed_holds (unitAt_holds path held) name⟩
  · intro t ms measured
    rw [measured_length measured, count]
  · intro s f findings reads ran fine
    have analyzed := scanFile_analyzed reads ran fine
    rw [analyzeFile_outcome, parsed] at analyzed
    obtain ⟨_, same, analyzed⟩ := bind_ok_iff.mp analyzed
    cases same
    obtain ⟨_, analyzedUnit, analyzed⟩ := bind_ok_iff.mp analyzed
    obtain ⟨_, _, analyzed⟩ := bind_ok_iff.mp analyzed
    obtain ⟨ms, _, measured, _⟩ := analyze_measured analyzedUnit
    rw [alike.measure] at measured
    rw [alike.analyze] at analyzedUnit
    cases analyzed
    have counted := count_methods (parse_kind parsed)
    rw [methods_unitOf, ← count] at counted
    exact ⟨counted, analyzedUnit, ms, measured, by rw [measured_length measured, ← count, counted]⟩

/-- A directory with the document of a method that has another one in it. -/
def nestedFiles : Files :=
  ⟨.directory [("t.json", .file ("\x7b\"kind\": \"MethodDeclaration\", \"name\": \"f\", \"children\": "
    ++ "[\x7b\"kind\": \"MethodDeclaration\", \"name\": \"g\"\x7d]\x7d").toUTF8.data.toList)], ⟨.root, []⟩⟩

/-- Its root is a method, which is wrapped, and both are counted. -/
theorem nested_methods_wrapped : ∃ tree v n,
    (FrontEnd.document.parse nestedFiles ⟨.root, ["t.json"]⟩).outcome = .ok tree ∧
      Transparent nestedFiles ⟨.root, ["t.json"]⟩ v n tree ∧ n.kind = "MethodDeclaration" ∧ methodCount v = 2 := by
  have loaded : ((FrontEnd.textOf nestedFiles ⟨.root, ["t.json"]⟩ >>= Tree.valueOf ⟨.root, ["t.json"]⟩).toOption.map
      fun v => (kindIn v, methodCount v, (Node.ofValue v).toOption.isSome)) = some ("MethodDeclaration", 2, true) := by
    decide +kernel
  cases value : FrontEnd.textOf nestedFiles ⟨.root, ["t.json"]⟩ >>= Tree.valueOf ⟨.root, ["t.json"]⟩ with
  | error e =>
    rw [value] at loaded
    cases loaded
  | ok w =>
    rw [value] at loaded
    simp only [Except.toOption, Option.map_some, Option.some.injEq, Prod.mk.injEq] at loaded
    obtain ⟨kind, count, describes⟩ := loaded
    obtain ⟨text, readable, read⟩ := bind_ok_iff.mp value
    cases made : Node.ofValue w with
    | error e =>
      rw [made] at describes
      cases describes
    | ok k =>
      obtain ⟨tree, parsed⟩ := parse_loaded ⟨text, readable, read⟩ made
      obtain ⟨v, n, ⟨_, again, reread⟩, described, transparent⟩ := documents_wrapped_transparently parsed
      cases readable.symm.trans again
      cases read.symm.trans reread
      exact ⟨tree, w, n, parsed, transparent, (kind_described described).trans kind, count⟩

end MethodLint.WrappedDocuments
