import MethodLint.FrontEnd
import MethodLint.Proofs.OutlineHeaders

/-! What a front end promises of the trees that it makes, and how it fails. The
lines of every node are known or left out, whether the tree was read from a
document or laid out from a source; and a front end refuses a file with a reason,
except where the document of a tree cannot even be loaded. -/
namespace MethodLint.FrontEndTrees
open Node Source Walks Outcomes Flags Findings OutlineHeaders

/-! ## Lines of nodes -/

/-- Both lines of a node are known or left out. -/
def HasLines (h : Header) : Prop := IsLine h.beginLine ∧ IsLine h.endLine

theorem linesKnown_node {h : Header} {below : List Node} (here : HasLines h) (inner : Everywhere HasLines below) :
    LinesKnown (.mk h below) := by
  intro d member
  have all := everywhere_node here inner
  simp only [methods, descendants_preorder, List.mem_filter] at member
  exact all d (by simpa [preorderAll] using member.1)

/-! ## Trees of documents -/

/-- A defect of a tree, or of the types in its document. -/
def Defective (e : Fault) : Prop := Tree.isDefect e = true

theorem checkLine_ends (kind field : String) (v : Value) :
    Ends (fun _ => IsLine v) Defective (Header.checkLine kind field v) := by
  cases v with
  | null => exact .ok (.inl rfl)
  | int n => exact .ok (.inr rfl)
  | _ => exact .error rfl

theorem checkNames_ends (kind : String) (fields : List (Value × Value)) :
    Ends (fun _ => True) Defective (Header.checkNames kind fields) := by
  unfold Header.checkNames
  refine ends_bind (@ends_mapM _ String (fun _ => True) Defective _ fields fun field _ => ?_)
    fun names _ => ?_
  · split
    · exact .ok trivial
    · exact .error rfl
  · split
    · exact .ok trivial
    · exact .error rfl

theorem make_ends (kind : String) (fields : List (Value × Value)) :
    Ends HasLines Defective (Header.make kind fields) := by
  unfold Header.make
  refine ends_bind (checkNames_ends kind fields) fun _ _ => ?_
  refine ends_bind (checkLine_ends kind _ _) fun _ first => ?_
  refine ends_bind (checkLine_ends kind _ _) fun _ last => ?_
  exact .ok ⟨first, last⟩

theorem ofValue_ends (v : Value) : Ends HasLines Defective (Header.ofValue v) := by
  unfold Header.ofValue
  split
  · split
    · exact .error rfl
    · exact make_ends _ _
  · exact .error rfl

theorem strangeChildren_ends (v : Value) : Ends (Everywhere HasLines) Defective (strangeChildren v) := by
  unfold strangeChildren
  split
  · exact .ok everywhere_nil
  · split <;> exact .error rfl

/-- The nodes that are put together from headers and what is below each. -/
theorem everywhere_zip {headers : List Header} {subtrees : List (List Node)}
    (here : ∀ h ∈ headers, HasLines h) (below : ∀ nodes ∈ subtrees, Everywhere HasLines nodes) :
    Everywhere HasLines (List.zipWith Node.mk headers subtrees) := by
  induction headers generalizing subtrees with
  | nil => exact everywhere_nil
  | cons h rest ih =>
    cases subtrees with
    | nil => exact everywhere_nil
    | cons nodes others =>
      rw [List.forall_mem_cons] at here below
      exact everywhere_cons (everywhere_node here.1 below.1) (ih here.2 below.2)

mutual

theorem childrenOf_ends (v : Value) : Ends (Everywhere HasLines) Defective (childrenOf v) := by
  cases v with
  | map entries => exact childrenOfEntries_ends entries
  | _ => exact .ok everywhere_nil

theorem childrenOfEntries_ends (entries : List (Value × Value)) :
    Ends (Everywhere HasLines) Defective (childrenOfEntries entries) := by
  match entries with
  | [] => exact .ok everywhere_nil
  | (key, v) :: rest =>
    have later := childrenOfEntries_ends rest
    cases key with
    | str name =>
      rw [childrenOfEntries]
      split
      · exact ofChildren_ends v
      · exact later
    | _ => exact later

theorem ofChildren_ends (v : Value) : Ends (Everywhere HasLines) Defective (ofChildren v) := by
  cases v with
  | list items | tuple items =>
    refine ends_bind (ends_mapM items fun item _ => ofValue_ends item) fun headers here => ?_
    exact ends_bind (childrenOfEach_ends items) fun subtrees below =>
      .ok (everywhere_zip here below)
  | _ => exact strangeChildren_ends _

theorem childrenOfEach_ends (items : List Value) :
    Ends (fun subtrees => ∀ nodes ∈ subtrees, Everywhere HasLines nodes) Defective (childrenOfEach items) := by
  match items with
  | [] => exact .ok fun nodes member => absurd member List.not_mem_nil
  | v :: rest =>
    rw [childrenOfEach]
    refine ends_bind (childrenOfEach_ends rest) fun later known => ?_
    exact ends_bind (childrenOf_ends v) fun first here =>
      .ok (List.forall_mem_cons.mpr ⟨here, known⟩)

end

/-- A value describes a tree with known lines, or its defect is found. -/
theorem tree_ends (v : Value) :
    Ends (fun root => HasLines root.header ∧ Everywhere HasLines root.children) Defective (Node.ofValue v) := by
  refine ends_bind (ofValue_ends v) fun header here => ?_
  exact ends_bind (childrenOf_ends v) fun children below => .ok ⟨here, below⟩

/-! ## Trees of sources -/

theorem isLine_ofLine (line : Option Int) : IsLine (.ofLine? line) := by
  cases line with
  | none => exact .inl rfl
  | some n => exact .inr rfl

theorem laid_lines {h : Header} (laid : Laid h) : HasLines h := by
  cases laid with
  | form form lines =>
    have first : (form.header lines).beginLine = .ofLine? lines.first := by cases form <;> rfl
    have last : (form.header lines).endLine = .ofLine? lines.last := by cases form <;> rfl
    exact ⟨first ▸ isLine_ofLine lines.first, last ▸ isLine_ofLine lines.last⟩
  | plain _ lines => exact ⟨isLine_ofLine lines.first, isLine_ofLine lines.last⟩
  | method name lines => exact ⟨isLine_ofLine lines.first, isLine_ofLine lines.last⟩
  | declarator id lines => exact ⟨isLine_ofLine lines.first, isLine_ofLine lines.last⟩
  | label isDefault lines => exact ⟨isLine_ofLine lines.first, isLine_ofLine lines.last⟩

theorem module_lines (m : Module) (path : String) (lineCount : Int) :
    LinesKnown (m.outline path lineCount) :=
  linesKnown_node ⟨.inr rfl, .inr rfl⟩
    (everywhere_imp (outlineAll_laid m.body _) fun _ => laid_lines)

/-! ## Files -/

/-- A file is refused with a reason. -/
def Refused (e : Fault) : Prop := ∃ path reason, e = .source path reason

theorem textOf_ends (files : Files) (path : FilePath) :
    Ends (fun text => FrontEnd.textOf files path = .ok text) Refused (FrontEnd.textOf files path) := by
  unfold FrontEnd.textOf
  cases files.text path with
  | ok text => exact .ok rfl
  | error e => exact .error ⟨_, _, rfl⟩

theorem source_ends (path text : String) :
    Ends LinesKnown Refused (Source.unitOf path text).outcome := by
  unfold Source.unitOf
  split
  · exact .error ⟨_, _, rfl⟩
  · exact .error ⟨_, _, rfl⟩
  · rename_i source _
    by_cases held : depthLimit < depthAll source.body
    · simp only [held, if_true]
      exact .error ⟨_, _, rfl⟩
    · by_cases laid : layoutLimit < depthAll source.body
      · simp only [held, laid, if_false, if_true]
        exact .error ⟨_, _, rfl⟩
      · simp only [held, laid, if_false]
        exact .ok (module_lines _ _ _)

theorem treeOf_ends (path : FilePath) (v : Value) :
    Ends (fun root => HasLines root.header ∧ Everywhere HasLines root.children) Refused (Tree.treeOf path v) := by
  have described := tree_ends v
  unfold Tree.treeOf
  cases read : Node.ofValue v with
  | ok root =>
    rw [read] at described
    cases described with
    | ok lines => exact .ok lines
  | error e =>
    rw [read] at described
    cases described with
    | error defective =>
      simp only [show Tree.isDefect e = true from defective]
      exact .error ⟨_, _, rfl⟩

theorem valueOf_ends (path : FilePath) (text : String) :
    Ends (fun _ => True) (fun e => Refused e ∨ Tree.valueOf path text = .error e)
      (Tree.valueOf path text) := by
  cases Tree.valueOf path text with
  | ok v => exact .ok trivial
  | error e => exact .error (.inr rfl)

/-- The document of a tree may be one that cannot be loaded; once it is, its file is
refused or has known lines. -/
theorem document_ends (path : FilePath) (text : String) :
    Ends LinesKnown (fun e => Refused e ∨ Tree.valueOf path text = .error e)
      (Tree.unitOf path text).outcome := by
  unfold Tree.unitOf
  rw [Traced.outcome_bind, Traced.outcome_of]
  refine ends_bind (valueOf_ends path text) fun v _ => ?_
  rw [Traced.outcome_bind, Traced.outcome_of]
  refine ends_bind (ends_weaken (treeOf_ends path v) fun e => Or.inl) fun root lines => ?_
  split
  · refine .ok (linesKnown_node ?_ lines.2)
    unfold Tree.withPath
    split
    · exact lines.1
    · exact lines.1
  · obtain ⟨h, below⟩ := root
    exact .ok (linesKnown_node lines.1 (everywhere_node lines.1 lines.2))

end MethodLint.FrontEndTrees
