import MethodLint.Proofs.FrontEndTrees
import MethodLint.Proofs.RoundTrips

/-! Outlines of sources as trees like any other. Whatever a source holds, its
outline has nothing malformed in it, so an analysis of it never ends for that
reason; and since every node has the shape of its kind, the outline may be written
down, read back and analyzed with the same result. -/
namespace MethodLint.DumpedOutlines
open Node Source SourceParts Walks Outcomes Flags Findings Documents OutlineFunctions OutlineHeaders
open LinkedTrees LinkedWalks

/-! ## Nothing is malformed -/

/-- The node has the shape of its kind and lines that are whole numbers or left out; a
method has a name, and conditional expressions and labels have their flags. -/
structure WellMade (h : Header) : Prop where
  sound : Sound h
  named : h.kind = Kind.methodDeclaration → ∃ name, h.variant = .methodDeclaration (.str name)
  ternary : h.kind = Kind.conditionalExpr → ∃ flag, h.variant = .conditionalExpr (.bool flag)
  label : h.kind = Kind.switchLabel → ∃ flag, h.variant = .switchLabel (.bool flag)

variable {h : Header} {n root : Node} {nodes : List Node}

theorem whole_ofLine (line : Option Int) : IsWhole (.ofLine? line) := by
  cases line with
  | none => exact .inl rfl
  | some n => exact .inr ⟨n, rfl⟩

/-- What the field of its shape holds in a node of an outline. -/
inductive Filled : Variant → Prop where
  | plain : Filled .plain
  | method (name : Option String) : Filled (.methodDeclaration (.ofText? name))
  | conditional (isTernary : Bool) : Filled (.conditionalExpr (.bool isTernary))
  | label (isDefault : Bool) : Filled (.switchLabel (.bool isDefault))
  | declarator (id : String) : Filled (.variableDeclarator (.str id))

theorem form_filled (form : Form) (lines : Lines) : Filled (form.header lines).variant := by
  cases form <;> first | exact .plain | exact .conditional _

theorem laid_filled (laid : Laid h) : Filled h.variant := by
  cases laid with
  | form form lines => exact form_filled form lines
  | plain shapeless lines => exact .plain
  | method name lines => exact .method name
  | declarator id lines => exact .declarator id
  | label isDefault lines => exact .label isDefault

theorem laid_sound (laid : Laid h) : Sound h := by
  cases laid with
  | form form lines =>
    have shape : (form.header lines).shape = Shape.ofKind (form.header lines).kind := by cases form <;> rfl
    have first : (form.header lines).beginLine = .ofLine? lines.first := by cases form <;> rfl
    have last : (form.header lines).endLine = .ofLine? lines.last := by cases form <;> rfl
    exact ⟨shape, first ▸ whole_ofLine lines.first, last ▸ whole_ofLine lines.last⟩
  | plain shapeless lines => exact ⟨shapeless.symm, whole_ofLine lines.first, whole_ofLine lines.last⟩
  | _ => exact ⟨rfl, whole_ofLine _, whole_ofLine _⟩

/-- A node of an outline is well made, if it has a name where it declares a method. -/
theorem laid_wellMade (laid : Laid h)
    (named : h.kind = Kind.methodDeclaration → ∃ name, h.variant = .methodDeclaration (.str name)) :
    WellMade h := by
  have sound := laid_sound laid
  have shape := sound.shape
  have filled := laid_filled laid
  refine ⟨sound, named, fun kind => ?_, fun kind => ?_⟩
  · rw [kind, Header.shape] at shape
    generalize h.variant = variant at shape filled ⊢
    cases filled with
    | conditional isTernary => exact ⟨isTernary, rfl⟩
    | _ => cases shape
  · rw [kind, Header.shape] at shape
    generalize h.variant = variant at shape filled ⊢
    cases filled with
    | label isDefault => exact ⟨isDefault, rfl⟩
    | _ => cases shape

theorem outline_wellMade (m : Module) (path : String) (lineCount : Int)
    (grammatical : areGrammatical m.body = true) : Everywhere WellMade [m.outline path lineCount] := by
  refine everywhere_node ⟨⟨rfl, .inr ⟨1, rfl⟩, .inr ⟨lineCount, rfl⟩⟩, ?_, ?_, ?_⟩ fun d member => ?_
  · exact fun kind => absurd kind (by decide : Kind.compilationUnit ≠ Kind.methodDeclaration)
  · exact fun kind => absurd kind (by decide : Kind.compilationUnit ≠ Kind.conditionalExpr)
  · exact fun kind => absurd kind (by decide : Kind.compilationUnit ≠ Kind.switchLabel)
  · refine laid_wellMade (outlineAll_laid m.body _ d member) fun kind => ?_
    have declared : d ∈ among declaresMethod (outlineAll m.body ⟨[], []⟩).1 :=
      List.mem_filter.mpr ⟨member, decide_eq_true kind⟩
    obtain ⟨f, _, named, _, scopes, rfl⟩ := item_of_mem (outlineAll_functions m.body grammatical _) declared
    obtain ⟨name, names⟩ := Option.isSome_iff_exists.mp named
    exact ⟨name, by rw [header_mk, names]; rfl⟩

theorem wellMade_flagged (made : Everywhere WellMade [n]) : ¬ Unflagged n := by
  obtain ⟨h, below⟩ := n
  obtain ⟨here, inner⟩ := everywhere_node_iff.mp made
  rintro (⟨kind, unflagged⟩ | ⟨_, label, among, kind, unflagged⟩)
  · obtain ⟨flag, variant⟩ := here.ternary kind
    exact unflagged ⟨_, variant, by simp⟩
  · have child : label ∈ preorderAll below := preorder_top (List.mem_of_mem_dropLast among)
    obtain ⟨flag, variant⟩ := (inner label child).label kind
    exact unflagged ⟨_, variant, by simp⟩

/-- No method of a tree whose nodes are all well made is malformed. -/
theorem wellMade_methods (made : Everywhere WellMade [root]) : ∀ d ∈ methods root, ¬ Malformed d := by
  intro d member
  rw [methods_among, among, List.mem_filter] at member
  obtain ⟨inside, kind⟩ := member
  rintro (nameless | ⟨below, deeper, unflagged⟩)
  · obtain ⟨name, variant⟩ := (made d inside).named (of_decide_eq_true kind)
    exact nameless ⟨_, variant, by simp⟩
  · rw [descendants_preorder] at deeper
    exact wellMade_flagged (everywhere_below made (preorder_below _ inside deeper)) unflagged

/-! ## Faults of other sorts -/

/-- A fault that says something else than that a tree is malformed. -/
def Other (e : Fault) : Prop := ∀ defect, e ≠ .tree defect

variable {α : Type} {x : Except Fault α} {bad : Prop}

theorem ends_other (guarded : Guarded bad x) (fine : ¬ bad) : Ends (fun _ => True) Other x := by
  rcases guarded with ⟨_, a, rfl⟩ | ⟨holds, _⟩
  · exact .ok trivial
  · exact absurd holds fine

theorem never_malformed {good : α → Prop} (holds : Ends good Other x) (defect : TreeDefect) :
    x ≠ .error (.tree defect) := by
  rintro rfl
  obtain _ | other := holds
  exact other defect rfl

theorem exceeds_other (a b : Value) : Ends (fun _ => True) Other (a.exceeds b) := by
  unfold Value.exceeds
  split
  · exact .ok trivial
  · exact .error nofun

theorem anyExceeds_other (threshold : Value) (levels : List Nat) :
    Ends (fun _ => True) Other (Method.anyExceeds threshold levels) := by
  induction levels with
  | nil => exact .ok trivial
  | cons level rest ih =>
    refine ends_bind (exceeds_other _ _) fun beyond _ => ?_
    split
    · exact .ok trivial
    · exact ih

theorem loc_other (m : Method) : Ends (fun _ => True) Other m.loc := by
  unfold Method.loc Value.sub
  split
  · exact .ok trivial
  · split
    · exact .ok trivial
    · exact .error nofun

theorem policy_other (s : Snapshot) (t : Thresholds) : Ends (fun _ => True) Other (isBrainMethod s t) := by
  unfold isBrainMethod
  refine ends_bind (exceeds_other _ _) fun long _ => ?_
  split
  · exact .ok trivial
  · refine ends_bind (exceeds_other _ _) fun complex _ => ?_
    split
    · exact .ok trivial
    · split
      · exact .ok trivial
      · exact exceeds_other _ _

variable {d : Node} {m : Method}

theorem below_flagged (fine : ¬ Malformed d) (made : Method.ofNode d = .ok m) :
    ¬ ∃ below ∈ m.descendants, Unflagged below := by
  obtain ⟨_, _, _, _, children⟩ := ofNode_ok made
  rw [method_descendants, children, ← descendants_preorder]
  exact fun unflagged => fine (.inr unflagged)

theorem ofNode_other (fine : ¬ Malformed d) :
    Ends (fun m => Method.ofNode d = .ok m) Other (Method.ofNode d) := by
  rcases guarded_ofNode d with ⟨_, m, made⟩ | ⟨nameless, _⟩
  · rw [made]
    exact .ok rfl
  · exact absurd (.inl nameless) fine

theorem measure_other (fine : ¬ Malformed d) (made : Method.ofNode d = .ok m) (t : Thresholds) :
    Ends (fun _ => True) Other (m.measure t) := by
  unfold Method.measure Method.measureAt
  refine ends_bind (loc_other m) fun _ _ => ?_
  refine ends_bind (ends_other (guarded_cyclo m) (below_flagged fine made)) fun _ _ => ?_
  exact ends_bind (anyExceeds_other _ _) fun _ _ => .ok trivial

theorem finding_other (fine : ¬ Malformed d) (t : Thresholds) (file : Option String) :
    Ends (fun _ => True) Other (finding t file d) := by
  refine ends_bind (ofNode_other fine) fun m made => ?_
  refine ends_bind (measure_other fine made t) fun s _ => ?_
  exact ends_bind (policy_other s t) fun _ _ => .ok trivial

theorem declared_other (fine : ¬ Malformed d) (t : Thresholds) :
    Ends (fun _ => True) Other (d.declared.measure t).outcome := by
  rw [declared_measure]
  refine ends_bind (ofNode_other fine) fun m made => ?_
  exact ends_bind (measure_other fine made t) fun _ _ => .ok trivial

/-- With nothing malformed in a tree, whatever the thresholds are, an analysis does not
end with a malformed tree. -/
theorem analysis_other (fine : ∀ d ∈ methods root, ¬ Malformed d) (t : Thresholds) (file : Option String)
    (defect : TreeDefect) : (root.analyze t file).outcome ≠ .error (.tree defect) ∧
      (root.measureMethods t).outcome ≠ .error (.tree defect) := by
  have findings := ends_mapM (methods root) fun d member => finding_other (fine d member) t file
  have measured := ends_mapM (methods root) fun d member => declared_other (fine d member) t
  rw [analyze_outcome, measureMethods_outcome]
  constructor
  · have kept (found : List (Option Violation)) : Ends (fun _ => True) Other (.ok (found.filterMap id)) :=
      .ok trivial
    exact never_malformed (ends_bind findings fun found _ => kept found) defect
  · exact never_malformed measured defect

/-- With whole numbers for thresholds it has an answer. -/
theorem analysis_answers (fine : ∀ d ∈ methods root, ¬ Malformed d) (lines : LinesKnown root)
    (cyclo maxnesting noav loc : Int) (file : Option String) :
    (∃ violations, (root.analyze (.ofInts cyclo maxnesting noav loc) file).outcome = .ok violations) ∧
      ∃ measured, (root.measureMethods (.ofInts cyclo maxnesting noav loc)).outcome = .ok measured := by
  have finding (d : Node) (member : d ∈ methods root) :
      ∃ found, finding (.ofInts cyclo maxnesting noav loc) file d = .ok found := by
    rcases guarded_finding cyclo maxnesting noav loc file d (lines d member) with ⟨_, answer⟩ | ⟨malformed, _⟩
    · exact answer
    · exact absurd malformed (fine d member)
  have measure (d : Node) (member : d ∈ methods root) :
      ∃ found, (d.declared.measure (.ofInts cyclo maxnesting noav loc)).outcome = .ok found := by
    obtain ⟨_, found⟩ := finding d member
    obtain ⟨m, made, found⟩ := bind_ok_iff.mp found
    obtain ⟨s, measured, _⟩ := bind_ok_iff.mp found
    refine ⟨⟨m, s, Method.deepest d.declared.levels⟩, ?_⟩
    rw [declared_measure, made]
    simp only [bind, Except.bind, measured]
  obtain ⟨found, findings, _⟩ := mapM_total (P := fun _ _ => True) fun d member =>
    (finding d member).imp fun _ answer => ⟨answer, trivial⟩
  obtain ⟨measured, measurements, _⟩ := mapM_total (P := fun _ _ => True) fun d member =>
    (measure d member).imp fun _ answer => ⟨answer, trivial⟩
  rw [analyze_outcome, measureMethods_outcome, findings]
  exact ⟨⟨_, rfl⟩, measured, measurements⟩

/-! ## Written down and read back -/

/-- An analysis of a store from an address on gives what an analysis of the tree gives. -/
structure AnalyzedAs (s : Store) (a : Nat) (n : Node) : Prop where
  analyze : ∀ t file, (s.pass a).analyze t file = n.analyze t file
  measure : ∀ t, (s.pass a).measure t = n.measureMethods t

theorem analyzed_holds {s : Store} {a : Nat} (held : Holds s n a) (name : String) :
    AnalyzedAs (s.hold name a) a n := by
  have pass := pass_holds (holds_hold held name a) (living_hold (holds_inside held) name)
  exact ⟨fun t file => by rw [pass, Node.analyze], fun t => by rw [pass, Node.measureMethods]⟩

/-- The outline of a source that keeps to the grammar is well made. An analysis of it does not
end with a malformed tree, and has an answer if the thresholds are whole numbers; it has
the same result whether the nodes of the outline are linked as they are laid out or
read from what is written of it. -/
theorem outline_analyzed_alike (m : Module) (path : String) (lineCount : Int)
    (grammatical : areGrammatical m.body = true) :
    let tree := m.outline path lineCount
    Everywhere WellMade [tree] ∧
      (∀ t file defect, (tree.analyze t file).outcome ≠ .error (.tree defect) ∧
        (tree.measureMethods t).outcome ≠ .error (.tree defect)) ∧
      (∀ cyclo maxnesting noav loc file,
        (∃ violations, (tree.analyze (.ofInts cyclo maxnesting noav loc) file).outcome = .ok violations) ∧
          ∃ measured, (tree.measureMethods (.ofInts cyclo maxnesting noav loc)).outcome = .ok measured) ∧
      ∀ (s : Store) (name : String),
        AnalyzedAs ((s.insert tree).2.hold name (s.insert tree).1) (s.insert tree).1 tree ∧
        ∃ root loaded, s.read tree.toValue = .ok (root, loaded) ∧
          AnalyzedAs (loaded.hold name root) root tree := by
  intro tree
  have made := outline_wellMade m path lineCount grammatical
  have fine := wellMade_methods made
  refine ⟨made, analysis_other fine, analysis_answers fine (FrontEndTrees.module_lines m path lineCount), ?_⟩
  intro s name
  have sound : Everywhere Sound [tree] := everywhere_imp made fun _ here => here.sound
  obtain ⟨first, _, stays⟩ := insert_holds tree s
  obtain ⟨loaded, read, _, held⟩ := read_ok s (ofValue_toValue tree sound)
  refine ⟨?_, s.cells.size, loaded, read, analyzed_holds held name⟩
  rw [first]
  exact analyzed_holds (stays _ ⟨Nat.le_refl _, rfl, rfl, fun _ _ _ => rfl⟩) name

/-- A function that matches on its argument and chooses between two values in a case. -/
def chosenInCase : Module where
  body := [.function (some "pick") ⟨some 1, some 4⟩ ["row"]
    [.matching ⟨some 2, some 4⟩ (.name "row" .load ⟨some 2, some 2⟩)
      [.mk (.plain .sequencePattern ⟨some 3, some 3⟩ []) none
        (.plain .returning ⟨some 4, some 4⟩ [.plain .choice ⟨some 4, some 4⟩
          [.name "row" .load ⟨some 4, some 4⟩, .plain .trueConstant ⟨some 4, some 4⟩ [],
            .plain .falseConstant ⟨some 4, some 4⟩ []]]) []]] []]

/-- It keeps to the grammar and has a method, which is measured alike after its outline was
written down and read back. -/
theorem chosen_in_case_analyzed_alike :
    areGrammatical chosenInCase.body = true ∧ (functionsAmong chosenInCase.body).length = 1 ∧
      let tree := chosenInCase.outline "a.py" 4
      Everywhere WellMade [tree] ∧
        (∃ measured, (tree.measureMethods .standard).outcome = .ok measured) ∧
        ∃ root loaded, Store.empty.read tree.toValue = .ok (root, loaded) ∧
          ((loaded.hold "tree" root).pass root).measure .standard = tree.measureMethods .standard := by
  have grammatical : areGrammatical chosenInCase.body = true := by decide
  obtain ⟨made, _, answers, alike⟩ := outline_analyzed_alike chosenInCase "a.py" 4 grammatical
  obtain ⟨_, root, loaded, read, analyzed⟩ := alike .empty "tree"
  exact ⟨grammatical, rfl, made, (answers 4 3 5 65 none).2, root, loaded, read, analyzed.measure _⟩

end MethodLint.DumpedOutlines
