import MethodLint.CommandLine.Run
import MethodLint.Proofs.AsciiTexts
import MethodLint.Proofs.RereadTrees

/-! Dumps of trees. A command that dumps the tree of a file stops exactly if a field of a
node holds a value that the format does not have; else its dump is a document of the
format, and the tree that is read from it is the dumped one with its fields read again. -/
namespace MethodLint.TreeDumps
open Node Walks Outcomes Documents NormalDocuments JsonTexts JsonWriting JsonRoundTrips PlainValues OutlineHeaders
open DumpedOutlines RereadTrees CommandLine

variable {files : Files} {path : FilePath} {tree root : Node} {h : Header} {v : Value} {text : String}

/-! ## Trees of files -/

/-- A compilation unit with a path, all of whose nodes can be written down. -/
structure IsUnit (tree : Node) : Prop where
  sound : Everywhere Sound [tree]
  kind : tree.kind = Kind.compilationUnit
  path : tree.header.variant.detail.isNull = false

theorem withPath_absent (path : FilePath) (absent : h.variant.detail.isNull = true) :
    Tree.withPath path h = { h with variant := .of h.shape (.str path.text) } := if_pos absent

theorem withPath_given (path : FilePath) (given : h.variant.detail.isNull = false) : Tree.withPath path h = h :=
  if_neg (Bool.eq_false_iff.mp given)

/-- A root that gets a path unless it has one. -/
theorem withPath_unit (path : FilePath) (sound : Everywhere Sound [root]) (kind : root.kind = Kind.compilationUnit) :
    IsUnit (.mk (Tree.withPath path root.header) root.children) ∧
      (Tree.withPath path root.header = root.header ∨
        Tree.withPath path root.header =
          { root.header with variant := .compilationUnit (.str path.text) }) := by
  obtain ⟨h, below⟩ := root
  obtain ⟨here, inner⟩ := everywhere_node_iff.mp sound
  have shape : h.shape = .compilationUnit := here.shape.trans (congrArg Shape.ofKind kind)
  rw [header_mk, children_mk]
  cases given : h.variant.detail.isNull with
  | true =>
    rw [withPath_absent path given, shape]
    refine ⟨⟨everywhere_node ⟨?_, here.beginLine, here.endLine⟩ inner, kind, rfl⟩, .inr rfl⟩
    exact (congrArg Shape.ofKind kind).symm
  | false =>
    rw [withPath_given path given]
    exact ⟨⟨sound, kind, given⟩, .inl rfl⟩

/-- A root of another kind in a compilation unit of its own. -/
theorem wrapped_unit (path : FilePath) (sound : Everywhere Sound [root]) : IsUnit (Tree.wrapped path root) := by
  have here : Sound root.header := by
    obtain ⟨h, below⟩ := root
    exact (everywhere_node_iff.mp sound).1
  exact ⟨everywhere_node ⟨rfl, here.beginLine, here.endLine⟩ sound, rfl, rfl⟩

/-- The tree of a document is made of what is read from it. -/
theorem unitOf_parts (made : (Tree.unitOf path text).outcome = .ok tree) : ∃ v root,
    Tree.valueOf path text = .ok v ∧ Node.ofValue v = .ok root ∧
      tree = if root.kind = Kind.compilationUnit then .mk (Tree.withPath path root.header) root.children
        else Tree.wrapped path root := by
  unfold Tree.unitOf at made
  rw [Traced.outcome_bind, Traced.outcome_of] at made
  obtain ⟨v, loaded, made⟩ := bind_ok_iff.mp made
  rw [Traced.outcome_bind, Traced.outcome_of] at made
  obtain ⟨root, described, made⟩ := bind_ok_iff.mp made
  refine ⟨v, root, loaded, ?_, ?_⟩
  · unfold Tree.treeOf at described
    split at described
    · rename_i same
      cases described
      exact same
    · split at described <;> cases described
  · split at made
    · rename_i unit
      rw [if_pos unit]
      cases made
      rfl
    · rename_i other
      rw [if_neg other]
      cases made
      rfl

theorem document_unit (made : (Tree.unitOf path text).outcome = .ok tree) : IsUnit tree := by
  obtain ⟨v, root, _, described, rfl⟩ := unitOf_parts made
  have sound := ofValue_sound root described
  split
  · rename_i unit
    exact (withPath_unit path sound unit).1
  · exact wrapped_unit path sound

theorem source_outline {name : String} (made : (Source.unitOf name text).outcome = .ok tree) :
    ∃ (m : Source.Module) (lines : Int), tree = m.outline name lines := by
  unfold Source.unitOf at made
  split at made
  · cases made
  · cases made
  · simp only at made
    split at made
    · cases made
    · split at made
      · cases made
      · cases made
        exact ⟨_, _, rfl⟩

theorem outline_unit (m : Source.Module) (name : String) (lines : Int) : IsUnit (m.outline name lines) :=
  ⟨everywhere_node ⟨rfl, .inr ⟨1, rfl⟩, .inr ⟨lines, rfl⟩⟩
    (everywhere_imp (outlineAll_laid m.body _) fun _ laid => laid_sound laid), rfl, rfl⟩

/-- What a file says, and the tree that its front end makes of that. -/
theorem parse_parts {frontEnd : FrontEnd} (accepted : (frontEnd.parse files path).outcome = .ok tree) :
    ∃ text, match frontEnd with
      | .source => (Source.unitOf path.text text).outcome = .ok tree
      | .document => (Tree.unitOf path text).outcome = .ok tree := by
  unfold FrontEnd.parse at accepted
  rw [Traced.outcome_bind, Traced.outcome_of] at accepted
  obtain ⟨text, _, made⟩ := bind_ok_iff.mp accepted
  exact ⟨text, by cases frontEnd <;> exact made⟩

/-- Every file that is accepted gives such a compilation unit. -/
theorem parse_unit {frontEnd : FrontEnd} (accepted : (frontEnd.parse files path).outcome = .ok tree) :
    IsUnit tree := by
  obtain ⟨text, made⟩ := parse_parts accepted
  cases frontEnd with
  | source =>
    obtain ⟨m, lines, rfl⟩ := source_outline made
    exact outline_unit m path.text lines
  | document => exact document_unit made

/-- Of the fields of an outline, only lines may be more than can be written. -/
theorem outline_fields (m : Source.Module) (name : String) (lines : Int) :
    Everywhere (fun h => Kept h.variant.detail ∧ Plain h.beginLine ∧ Plain h.endLine) [m.outline name lines] := by
  refine everywhere_node ⟨⟨rfl, rfl⟩, rfl, rfl⟩ (everywhere_imp (outlineAll_laid m.body _) fun h laid => ?_)
  have sound := laid_sound laid
  exact ⟨detail_kept (laid_filled laid), whole_plain sound.beginLine, whole_plain sound.endLine⟩

/-- All fields of a tree that was read from a document of the format are kept. -/
theorem json_fields (format : path.comparedExtension = Tree.jsonExtension)
    (made : (Tree.unitOf path text).outcome = .ok tree) : Everywhere (EachField Kept) [tree] := by
  obtain ⟨v, root, loaded, described, rfl⟩ := unitOf_parts made
  have kept : Kept v := by
    rw [Tree.valueOf, if_pos format] at loaded
    split at loaded
    · rename_i read
      cases loaded
      exact read_kept read
    · cases loaded
    · cases loaded
  have sound := ofValue_sound root described
  have fields := ofValue_kept root kept described
  split
  · rename_i unit
    obtain ⟨h, below⟩ := root
    obtain ⟨here, inner⟩ := everywhere_node_iff.mp fields
    rcases (withPath_unit path sound unit).2 with same | named
    · rw [same]
      exact fields
    · rw [named]
      exact everywhere_node ⟨here.beginLine, here.endLine, rfl, rfl⟩ inner
  · obtain ⟨h, below⟩ := root
    have here := (everywhere_node_iff.mp fields).1
    exact everywhere_node ⟨here.beginLine, here.endLine, rfl, rfl⟩ fields

/-! ## Dumps that are read -/

/-- What a dump is: it has only characters of ASCII, and a file that holds it and has the
extension of its format is read as the tree with its fields read again. -/
structure IsDump (tree : Node) (text : String) : Prop where
  ascii : ∀ c ∈ text.toList, Ascii c
  read : ∀ (files : Files) (path : FilePath), path.comparedExtension = Tree.jsonExtension →
    files.bytes path = .ok (text ++ "\n").toUTF8.data.toList → nesting tree.toValue ≤ Tree.depthLimit →
    FrontEnd.ofPath? path = some .document ∧
      (FrontEnd.document.parse files path).outcome = .ok (rereadTree tree)

/-- A compilation unit with a path is read as it is described. -/
theorem unitOf_read (unit : IsUnit tree) (described : Tree.valueOf path text = .ok tree.toValue) :
    (Tree.unitOf path text).outcome = .ok tree := by
  obtain ⟨h, below⟩ := tree
  have made : Tree.treeOf path (toValue (.mk h below)) = .ok (.mk h below) := by
    rw [Tree.treeOf, ofValue_toValue _ unit.sound]
  have kept : Tree.withPath path h = h := withPath_given path unit.path
  unfold Tree.unitOf
  rw [Traced.outcome_bind, Traced.outcome_of, described]
  change (Traced.of (Tree.treeOf path (toValue (.mk h below))) >>= _).outcome = _
  rw [Traced.outcome_bind, Traced.outcome_of, made]
  change (if _ then _ else _ : Traced Node).outcome = _
  rw [if_pos unit.kind, header_mk, kept]
  rfl

theorem rereadTree_unit (unit : IsUnit tree) : IsUnit (rereadTree tree) := by
  obtain ⟨h, below⟩ := tree
  obtain ⟨here, _⟩ := everywhere_node_iff.mp unit.sound
  refine ⟨rereadTree_sound _ unit.sound, unit.kind, ?_⟩
  have shape : h.shape.field? = some "path" :=
    congrArg Shape.field? (here.shape.trans (congrArg Shape.ofKind unit.kind))
  rw [rereadTree, header_mk, rereadHeader, detail_of shape, isNull_reread]
  exact unit.path

theorem ascii_small {c : Char} (ascii : Ascii c) : c.toNat < 128 ∧ c ≠ '\r' := by
  rcases ascii with printed | rfl
  · refine ⟨Nat.lt_of_le_of_lt printed.2 (by decide), ?_⟩
    rintro rfl
    exact absurd printed.1 (by decide)
  · exact ⟨by decide, by decide⟩

/-- A file that holds a text of ASCII and a line break has that text. -/
theorem text_ended (ascii : ∀ c ∈ text.toList, Ascii c)
    (bytes : files.bytes path = .ok (text ++ "\n").toUTF8.data.toList) : files.text path = .ok (text ++ "\n") := by
  have line : "\n".toList = ['\n'] := rfl
  have ended : ∀ c ∈ (text ++ "\n").toList, Ascii c := by
    intro c member
    rw [String.toList_append, line, List.mem_append, List.mem_singleton] at member
    exact member.elim (ascii c) .inr
  exact AsciiTexts.text_ascii (fun c member => (ascii_small (ended c member)).1)
    (fun c member => (ascii_small (ended c member)).2) bytes

theorem json_document (format : path.comparedExtension = Tree.jsonExtension) :
    FrontEnd.ofPath? path = some .document := by
  rw [FrontEnd.ofPath?, format]
  decide

theorem document_parse (known : files.text path = .ok text) :
    (FrontEnd.document.parse files path).outcome = (Tree.unitOf path text).outcome := by
  have read : FrontEnd.textOf files path = .ok text := by
    rw [FrontEnd.textOf, known]
    rfl
  simp only [FrontEnd.parse, bind, Traced.outcome_of, read]

/-- What is written of a compilation unit is a dump of it. -/
theorem dump_written (unit : IsUnit tree) (written : Json.write false tree.toValue = .ok text) :
    IsDump tree text := by
  have ascii := value_ascii 0 tree.toValue written
  refine ⟨ascii, fun files path format bytes shallow => ⟨json_document format, ?_⟩⟩
  have loaded : Tree.valueOf path (text ++ "\n") = .ok (rereadTree tree).toValue := by
    rw [Tree.valueOf, if_pos format, document_read written shallow, toValue_reread]
  rw [document_parse (text_ended ascii bytes)]
  exact unitOf_read (rereadTree_unit unit) loaded

/-! ## Commands -/

/-- How a command ends, and what it leaves on its output and in files. -/
structure Leaves (outcome : Outcome) (exit : Exit) (output : String) (written : List (String × String)) : Prop where
  exit : outcome.exit = exit
  output : outcome.output = output
  written : outcome.written = written

/-- What becomes of a text that a command reports: it is printed, or it is written to the file
that is asked for, or that file cannot be written. -/
inductive Delivered (files : Files) (asked : Option String) (text : String) (outcome : Outcome) : Prop where
  | printed (nowhere : asked.filter (!·.isEmpty) = none) (leaves : Leaves outcome (.status 0) (text ++ "\n") [])
  | written (somewhere : asked.filter (!·.isEmpty) = some name) (free : writeFault? files name = none)
    (leaves : Leaves outcome (.status 0) "" [(name, text ++ "\n")])
  | barred (somewhere : asked.filter (!·.isEmpty) = some name) (fault : writeFault? files name = some e)
    (leaves : Leaves outcome (.fault e) "" [])

/-- Records of a log in front of a run change neither its end nor what it leaves. -/
theorem leaves_logged {verbose : Bool} {s : Session Unit} {exit : Exit} {output : String}
    {written : List (String × String)} (records : List Record)
    (leaves : Leaves (s.toOutcome verbose) exit output written) :
    Leaves (Session.toOutcome verbose ⟨records.map .log ++ s.events, s.outcome⟩) exit output written := by
  refine ⟨leaves.exit, ?_, ?_⟩
  · rw [← leaves.output]
    induction records with
    | nil => rfl
    | cons record rest ih =>
      simp only [Session.toOutcome, List.map_cons, List.cons_append, String.join_cons] at ih ⊢
      rw [ih]
      exact String.empty_append
  · rw [← leaves.written]
    induction records with
    | nil => rfl
    | cons record rest ih => exact ih

theorem deliver_delivered (files : Files) (text : String) (asked : Option String) (verbose : Bool) :
    Delivered files asked text ((deliver files text asked).toOutcome verbose) := by
  unfold deliver
  cases somewhere : asked.filter (!·.isEmpty) with
  | none =>
    refine .printed somewhere ⟨rfl, ?_, rfl⟩
    simp [Session.toOutcome, Session.print, Session.leave, Event.onOutput]
  | some name =>
    simp only
    cases fault : writeFault? files name with
    | none => exact .written somewhere fault ⟨rfl, rfl, rfl⟩
    | some e => exact .barred somewhere fault ⟨rfl, rfl, rfl⟩

theorem delivered_logged {verbose : Bool} {s : Session Unit} {asked : Option String} (records : List Record)
    (delivered : Delivered files asked text (s.toOutcome verbose)) :
    Delivered files asked text (Session.toOutcome verbose ⟨records.map .log ++ s.events, s.outcome⟩) := by
  cases delivered with
  | printed nowhere leaves => exact .printed nowhere (leaves_logged records leaves)
  | written somewhere free leaves => exact .written somewhere free (leaves_logged records leaves)
  | barred somewhere fault leaves => exact .barred somewhere fault (leaves_logged records leaves)

/-- A command for a dump. -/
structure AsksFor (words : List String) (a : Arguments) : Prop where
  arguments : Arguments.ofTexts words = .ok a
  dump : a.dumpTree = true
  noConfig : a.initConfig = false

/-- The front end of a file accepts it, and this is its tree. -/
structure Accepted (files : Files) (path : FilePath) (frontEnd : FrontEnd) (tree : Node) : Prop where
  file : files.isFile path = true
  known : FrontEnd.ofPath? path = some frontEnd
  parsed : (frontEnd.parse files path).outcome = .ok tree

variable {words : List String} {a : Arguments} {frontEnd : FrontEnd}

/-- What is left to do once the tree of a file is made. -/
def reported (files : Files) (asked : Option String) (tree : Node) : Session Unit := do
  deliver files (← Session.ofResult (Json.write false tree.toValue)) asked

/-- A command that dumps a tree leaves a log before it reports the tree. -/
theorem run_reported (time : String) (asks : AsksFor words a)
    (accepted : Accepted files (.ofText a.path) frontEnd tree) :
    ∃ records : List Record, run files time words = Session.toOutcome a.verbose
      ⟨records.map .log ++ (reported files a.output tree).events, (reported files a.output tree).outcome⟩ := by
  have value : treeValue files a.path =
      ⟨(frontEnd.parse files (.ofText a.path)).log.map .log ++ [] ++ [], .ok tree.toValue⟩ := by
    simp only [treeValue, accepted.file, accepted.known, Bool.not_true, Bool.false_eq_true, if_false,
      Session.ofTraced, accepted.parsed, bind, pure]
  refine ⟨(frontEnd.parse files (.ofText a.path)).log, ?_⟩
  rw [List.append_nil, List.append_nil] at value
  simp only [run, asks.arguments, perform, asks.noConfig, asks.dump, Bool.false_eq_true, if_false, if_true,
    dumpTree, bind, value]
  rfl

/-- What a command comes to that dumps a tree. -/
structure Dumps (files : Files) (asked : Option String) (tree : Node) (outcome : Outcome) : Prop where
  /-- If the format has what all fields hold, there is a dump, which is delivered. -/
  delivered : Everywhere (EachField Writable) [tree] → ∃ text, IsDump tree text ∧ Delivered files asked text outcome
  /-- If not, the command is stopped by a value, and leaves nothing. -/
  stopped : ¬ Everywhere (EachField Writable) [tree] → ∃ e, Unwritable e ∧ Leaves outcome (.fault e) "" []
  /-- A dump is read as the tree that it is of exactly if all fields are plain. -/
  same : Everywhere (EachField Writable) [tree] → (rereadTree tree = tree ↔ Everywhere (EachField Plain) [tree])

theorem reported_dumps (unit : IsUnit tree) (asked : Option String) (verbose : Bool) (records : List Record) :
    Dumps files asked tree (Session.toOutcome verbose
      ⟨records.map .log ++ (reported files asked tree).events, (reported files asked tree).outcome⟩) := by
  have settles : Settles (isWritable tree.toValue) (Json.write false tree.toValue) := value_settles 0 tree.toValue
  have fields : isWritable tree.toValue = true ↔ Everywhere (EachField Writable) [tree] :=
    toValue_each writable_inherited tree
  refine ⟨fun writable => ?_, fun unwritable => ?_, rereadTree_same_iff unit.sound⟩
  · cases written : Json.write false tree.toValue with
    | error e =>
      rw [fields.mpr writable, written] at settles
      cases settles
    | ok text =>
      refine ⟨text, dump_written unit written, ?_⟩
      have session : reported files asked tree = deliver files text asked := by
        simp only [reported, written]
        rfl
      rw [session]
      exact delivered_logged records (deliver_delivered files text asked verbose)
  · cases written : Json.write false tree.toValue with
    | ok text =>
      rw [Bool.eq_false_iff.mpr (mt fields.mp unwritable), written] at settles
      cases settles
    | error e =>
      rw [Bool.eq_false_iff.mpr (mt fields.mp unwritable), written] at settles
      cases settles with
      | error fault =>
        refine ⟨e, fault, ?_⟩
        have session : reported files asked tree = Session.stop e := by
          simp only [reported, written]
          rfl
        rw [session]
        exact leaves_logged records ⟨rfl, rfl, rfl⟩

/-- A tree whose fields are kept has a dump that is read as the tree. -/
theorem kept_same (sound : Everywhere Sound [tree]) (kept : Everywhere (EachField Kept) [tree]) :
    Everywhere (EachField Writable) [tree] ∧ rereadTree tree = tree := by
  have writable : Everywhere (EachField Writable) [tree] := everywhere_imp kept fun h fields =>
    ⟨fields.beginLine.writable, fields.endLine.writable, fields.detail.writable⟩
  have plain : Everywhere (EachField Plain) [tree] := everywhere_imp kept fun h fields =>
    ⟨fields.beginLine.plain, fields.endLine.plain, fields.detail.plain⟩
  exact ⟨writable, (rereadTree_same_iff sound writable).mpr plain⟩

/-- A directory with a method that has a date for a name, and one that has a text. -/
def datedFiles : Files :=
  ⟨.directory [("t.json", .file "\x7b\"kind\": \"MethodDeclaration\", \"name\": \"f\"\x7d".toUTF8.data.toList),
    ("t.yaml", .file "kind: MethodDeclaration\nname: 2024-05-01\n".toUTF8.data.toList)], ⟨.root, []⟩⟩

theorem asks_dump {name : String} (shape : (Arguments.ofTexts ["--dump-tree", name]).toOption.map
    (fun a => (a.path, a.output, a.dumpTree, a.initConfig)) = some (name, none, true, false)) :
    ∃ a, AsksFor ["--dump-tree", name] a ∧ a.path = name ∧ a.output = none := by
  cases arguments : Arguments.ofTexts ["--dump-tree", name] with
  | error e =>
    rw [arguments] at shape
    cases shape
  | ok a =>
    rw [arguments] at shape
    simp only [Except.toOption, Option.map_some, Option.some.injEq, Prod.mk.injEq] at shape
    exact ⟨a, ⟨arguments, shape.2.2.1, shape.2.2.2⟩, shape.1, shape.2.1⟩

theorem accepted_document {fine : Bool} (file : files.isFile path = true)
    (known : FrontEnd.ofPath? path = some .document)
    (shape : (FrontEnd.document.parse files path).outcome.toOption.map (fun tree => isWritable tree.toValue) =
      some fine) : ∃ tree, Accepted files path .document tree ∧ isWritable tree.toValue = fine := by
  cases parsed : (FrontEnd.document.parse files path).outcome with
  | error e =>
    rw [parsed] at shape
    cases shape
  | ok tree =>
    rw [parsed] at shape
    exact ⟨tree, ⟨file, known, parsed⟩, Option.some.inj shape⟩

end MethodLint.TreeDumps
