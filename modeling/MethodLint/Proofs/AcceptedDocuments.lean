import MethodLint.FrontEnd
import MethodLint.Proofs.LinkedTrees
import MethodLint.Proofs.PlainValues

/-! Which documents describe trees. A mapping describes a node if it has a kind, only the
keys of that kind, and whole numbers for lines; what it says of children has to be an array
of such mappings, or count as nothing. Everything else is refused, wherever in the document
it is found: as a malformed tree, or as a mistaken type where children are true or a number. -/
namespace MethodLint.AcceptedDocuments
open Node Header Outcomes Documents LinkedTrees NormalDocuments PlainValues

/-! ## Documents of trees -/

/-- The kinds whose nodes have a field of their own, and its name. -/
def ownFields : List (String × String) :=
  [("CompilationUnit", "path"), ("MethodDeclaration", "name"), ("VariableDeclarator", "name"),
    ("ConditionalExpr", "is_ternary"), ("SwitchLabel", "is_default")]

/-- The entries of a mapping describe a node whose kind is this value, as a text, whatever its
children are. -/
structure DescribesNode (tag : Value) (entries : List (Value × Value)) : Prop where
  tagged : Value.lookup "kind" entries = some tag
  keys : ∀ entry ∈ entries, ∃ name, entry.1 = .str name ∧
    (name ∈ ["kind", "children", "begin_line", "end_line"] ∨ (tag.text, name) ∈ ownFields)
  lines : ∀ name ∈ ["begin_line", "end_line"], ∀ line, Value.lookup name entries = some line →
    line = .null ∨ ∃ n, line = .int n

/-- The value describes a tree. -/
inductive Accepted : Value → Prop where
  | childless (node : DescribesNode tag entries) (nothing : ((Value.map entries).getD "children").isFalsy = true) :
      Accepted (.map entries)
  | parent (node : DescribesNode tag entries) (listed : Value.lookup "children" entries = some (.list items))
      (each : ∀ item ∈ items, Accepted item) : Accepted (.map entries)

/-- A value that does not count as nothing and has no parts: true, or a number but zero. -/
inductive Uncountable : Value → Prop where
  | yes : Uncountable (.bool true)
  | whole (other : n ≠ 0) : Uncountable (.int n)
  | binary (other : (x == 0.0) = false) : Uncountable (.float x)

/-- What a node of the document has for its children is such a value. -/
inductive HasUncountable : Value → Prop where
  | here (given : Value.lookup "children" entries = some other) (uncountable : Uncountable other) :
      HasUncountable (.map entries)
  | deeper (listed : Value.lookup "children" entries = some (.list items)) (member : item ∈ items)
      (inner : HasUncountable item) : HasUncountable (.map entries)

/-- What a document is refused for: a malformed tree, or a mistaken type. -/
inductive Refusal (v : Value) : Fault → Prop where
  | malformed (defect : TreeDefect) : Refusal v (.tree defect)
  | mistaken (defect : TypeDefect) (somewhere : HasUncountable v) : Refusal v (.type defect)

/-- A file can be read as the value of a document. -/
def Loads (files : Files) (path : FilePath) (v : Value) : Prop :=
  ∃ text, FrontEnd.textOf files path = .ok text ∧ Tree.valueOf path text = .ok v

/-- What a mapping has for children: an array of them, nothing, or something to be refused. -/
inductive Offers (entries : List (Value × Value)) : Except Fault (List Value) → Prop where
  | listed (found : Value.lookup "children" entries = some (.list items)) : Offers entries (.ok items)
  | nothing (falsy : ((Value.map entries).getD "children").isFalsy = true) : Offers entries (.ok [])
  | refused (refusal : Refusal (.map entries) e) : Offers entries (.error e)

variable {name : String} {tag v item : Value} {entries fields : List (Value × Value)} {items : List Value} {e : Fault}

/-! ## Fields -/

theorem accepts_iff {kind : String} : accepts kind name = true ↔
    name ∈ ["kind", "children", "begin_line", "end_line"] ∨ (kind, name) ∈ ownFields := by
  have own : (Shape.ofKind kind).field? = some name ↔ (kind, name) ∈ ownFields := by
    unfold Shape.ofKind
    split_ifs with unit method conditional label declarator <;>
      simp_all [Shape.field?, ownFields, Kind.compilationUnit, Kind.methodDeclaration, Kind.conditionalExpr,
        Kind.switchLabel, Kind.variableDeclarator, eq_comm]
  simp only [accepts, Bool.or_eq_true, decide_eq_true_iff, beq_iff_eq, own, List.mem_cons, List.not_mem_nil, or_false]
  tauto

theorem isStructural_iff {key : Value} : isStructural key = true ↔ key = .str "kind" ∨ key = .str "children" := by
  cases key <;> simp [isStructural]

theorem isWhole_held_iff : IsWhole (held name entries) ↔
    ∀ line, Value.lookup name entries = some line → line = .null ∨ ∃ n, line = .int n := by
  unfold held IsWhole
  cases Value.lookup name entries <;> simp

/-- A header is made of a mapping exactly if its entries describe a node. -/
theorem describesNode_iff : DescribesNode tag entries ↔ Value.lookup "kind" entries = some tag ∧
    Fits tag.text (entries.filter fun entry => !isStructural entry.1) := by
  have first : held "begin_line" (entries.filter fun entry => !isStructural entry.1) = held "begin_line" entries := by
    rw [held, held, lookup_filtered (by decide) (by decide)]
  have last : held "end_line" (entries.filter fun entry => !isStructural entry.1) = held "end_line" entries := by
    rw [held, held, lookup_filtered (by decide) (by decide)]
  constructor
  · rintro ⟨found, keys, lines⟩
    refine ⟨found, fun entry member => ?_, ?_, ?_⟩
    · obtain ⟨name, key, known⟩ := keys entry (List.mem_filter.mp member).1
      exact ⟨name, key, accepts_iff.mpr known⟩
    · rw [first]
      exact isWhole_held_iff.mpr (lines _ (by simp))
    · rw [last]
      exact isWhole_held_iff.mpr (lines _ (by simp))
  · rintro ⟨found, known, beginLine, endLine⟩
    rw [first] at beginLine
    rw [last] at endLine
    refine ⟨found, fun entry member => ?_, ?_⟩
    · by_cases structural : isStructural entry.1 = true
      · rcases isStructural_iff.mp structural with key | key
        · exact ⟨_, key, .inl (by simp)⟩
        · exact ⟨_, key, .inl (by simp)⟩
      · obtain ⟨name, key, accepted⟩ := known entry (List.mem_filter.mpr ⟨member, by simpa using structural⟩)
        exact ⟨name, key, accepts_iff.mp accepted⟩
    · simp only [List.forall_mem_cons]
      exact ⟨isWhole_held_iff.mp beginLine, isWhole_held_iff.mp endLine, by simp⟩

theorem header_accepted (node : DescribesNode tag entries) : ∃ h, Header.ofValue (.map entries) = .ok h := by
  obtain ⟨found, fits⟩ := describesNode_iff.mp node
  exact ⟨_, header_ok_iff.mpr ⟨entries, tag, rfl, found, fits, rfl⟩⟩

theorem line_ends (v line : Value) (kind field : String) :
    Ends (fun _ => True) (Refusal v) (checkLine kind field line) := by
  cases line with
  | null | int n => exact .ok trivial
  | _ => exact .error (.malformed _)

theorem names_ends (texts : AllTexts fields) (v : Value) (kind : String) :
    Ends (fun _ => True) (Refusal v) (checkNames kind fields) := by
  have named : Ends (fun _ => True) (Refusal v) (namesOf fields) := by
    rw [namesOf_ok_iff.mpr (keys_of_texts texts)]
    exact .ok trivial
  refine ends_bind named fun names _ => ?_
  split
  · exact .ok trivial
  · exact .error (.malformed _)

/-- Whatever else is in a document, a mapping with texts for keys that describes no node is
malformed. -/
theorem header_ends (plain : isPlain item = true) (v : Value) :
    Ends (fun _ => True) (Refusal v) (Header.ofValue item) := by
  unfold Header.ofValue
  split
  · rename_i entries
    have texts : AllTexts (entries.filter fun entry => !isStructural entry.1) := fun entry member =>
      ((plain_map_iff.mp plain).each entry (List.mem_filter.mp member).1).1
    split
    · exact .error (.malformed _)
    · refine ends_bind (names_ends texts v _) fun _ _ => ?_
      refine ends_bind (line_ends v _ _ _) fun _ _ => ?_
      exact ends_bind (line_ends v _ _ _) fun _ _ => .ok trivial
  · exact .error (.malformed _)

/-! ## Children -/

theorem plain_lookup (plain : isPlain (.map entries) = true) (found : Value.lookup name entries = some v) :
    isPlain v = true := by
  have each := (plain_map_iff.mp plain).each
  clear plain
  induction entries with
  | nil => cases found
  | cons entry rest ih =>
    obtain ⟨⟨⟨other, key⟩, value⟩, later⟩ := List.forall_mem_cons.mp each
    obtain ⟨_, held⟩ := entry
    cases key
    rw [Value.lookup] at found
    split at found
    · cases found
      exact value
    · exact ih found later

theorem childItems_offers (plain : isPlain (.map entries) = true) : Offers entries (childItems (.map entries)) := by
  have absent (none : Value.lookup "children" entries = none) : (Value.map entries).getD "children" = .null := by
    rw [Value.getD, Value.get?, none]
    rfl
  have present {c : Value} (found : Value.lookup "children" entries = some c) :
      (Value.map entries).getD "children" = c := by
    rw [Value.getD, Value.get?, found]
    rfl
  unfold childItems
  cases found : Value.lookup "children" entries with
  | none =>
    rw [absent found]
    exact .nothing (by rw [absent found]; rfl)
  | some c =>
    have inner := plain_lookup plain found
    have falsy (nothing : c.isFalsy = true) : ((Value.map entries).getD "children").isFalsy = true := by
      rwa [present found]
    have uncountable (defect : TypeDefect) (other : Uncountable c) : Offers entries (.error (.type defect)) :=
      .refused (.mistaken defect (.here found other))
    have malformed (defect : TreeDefect) : Offers entries (.error (.tree defect)) := .refused (.malformed defect)
    have strange (unlisted : ∀ items, c ≠ .list items) : Offers entries ((strangeChildren c).map fun _ => []) := by
      unfold strangeChildren
      by_cases nothing : c.isFalsy = true
      · rw [if_pos nothing]
        exact .nothing (falsy nothing)
      · rw [if_neg nothing]
        cases c with
        | null => exact absurd rfl nothing
        | bool b =>
          cases b with
          | false => exact absurd rfl nothing
          | true => exact uncountable _ .yes
        | int n => exact uncountable _ (.whole (by simpa [Value.isFalsy] using nothing))
        | float x => exact uncountable _ (.binary (by simpa [Value.isFalsy] using nothing))
        | str s => exact malformed _
        | map others =>
          cases others with
          | nil => exact absurd rfl nothing
          | cons entry rest => exact malformed _
        | list items => exact absurd rfl (unlisted items)
        | _ => cases inner
    rw [present found]
    cases c with
    | list items => exact .listed found
    | tuple items => cases inner
    | _ => exact strange (by simp)

/-! ## Whole documents -/

theorem refusal_below (listed : Value.lookup "children" entries = some (.list items)) (member : item ∈ items)
    (refusal : Refusal item e) : Refusal (.map entries) e := by
  cases refusal with
  | malformed defect => exact .malformed defect
  | mistaken defect somewhere => exact .mistaken defect (.deeper listed member somewhere)

theorem plain_below (plain : isPlain (.map entries) = true)
    (listed : Value.lookup "children" entries = some (.list items)) : ∀ item ∈ items, isPlain item = true :=
  arePlain_iff.mp (plain_lookup plain listed)

theorem sizeOf_below (listed : Value.lookup "children" entries = some (.list items)) (member : item ∈ items) :
    sizeOf item < sizeOf (Value.map entries) := by
  have smaller := Store.sizeOf_lookup listed
  have inside := List.sizeOf_lt_of_mem member
  simp only [Value.list.sizeOf_spec, Value.map.sizeOf_spec] at *
  omega

theorem childrenOfEach_ends {good : List Node → Prop} {sort : Fault → Prop}
    (each : ∀ item ∈ items, Ends good sort (childrenOf item)) :
    Ends (fun _ => True) sort (childrenOfEach items) := by
  induction items with
  | nil => exact .ok trivial
  | cons item rest ih =>
    obtain ⟨here, later⟩ := List.forall_mem_cons.mp each
    rw [childrenOfEach]
    exact ends_bind (ih later) fun _ _ => ends_bind here fun _ _ => .ok trivial

/-- What is below a node is read, or refused for what is wrong with it. -/
theorem childrenOf_ends (v : Value) (plain : isPlain v = true) :
    Ends (fun _ => True) (Refusal v) (childrenOf v) := by
  match v with
  | .map entries =>
    rw [childrenOf_items]
    have offered := childItems_offers plain
    generalize childItems (.map entries) = given at offered
    cases offered with
    | nothing _ => exact .ok trivial
    | refused refusal => exact .error refusal
    | @listed items found =>
      have plains := plain_below plain found
      change Ends _ _ (nodesOf items)
      refine ends_bind (ends_mapM items fun item member => header_ends (plains item member) _) fun _ _ => ?_
      have each (item : Value) (member : item ∈ items) :
          Ends (fun _ => True) (Refusal (.map entries)) (childrenOf item) :=
        ends_weaken (childrenOf_ends item (plains item member)) fun e => refusal_below found member
      exact ends_bind (childrenOfEach_ends each) fun _ _ => .ok trivial
  | .null | .bool _ | .int _ | .float _ | .str _ | .list _ => exact .ok trivial
termination_by sizeOf v
decreasing_by exact sizeOf_below found member

/-- A plain value is read as a tree, or refused. -/
theorem ofValue_ends (plain : isPlain v = true) : Ends (fun _ => True) (Refusal v) (Node.ofValue v) := by
  refine ends_bind (header_ends plain v) fun _ _ => ?_
  exact ends_bind (childrenOf_ends v plain) fun _ _ => .ok trivial

theorem childItems_nothing (nothing : (v.getD "children").isFalsy = true) : childItems v = .ok [] := by
  unfold childItems
  generalize v.getD "children" = given at nothing
  have strange : (strangeChildren given).map (fun _ => ([] : List Value)) = .ok [] := by
    unfold strangeChildren
    rw [if_pos nothing]
    rfl
  cases given with
  | list items | tuple items => rw [List.isEmpty_iff.mp nothing]
  | _ => exact strange

theorem childItems_listed (listed : Value.lookup "children" entries = some (.list items)) :
    childItems (.map entries) = .ok items := by
  have given : (Value.map entries).getD "children" = .list items := by
    rw [Value.getD, Value.get?, listed]
    rfl
  rw [childItems, given]

/-- What describes a tree is read as one. -/
theorem read_accepted (accepted : Accepted v) : ∃ n, Node.ofValue v = .ok n := by
  induction accepted with
  | childless node nothing =>
    obtain ⟨h, here⟩ := header_accepted node
    exact ⟨.mk h [], ofValue_ok_iff.mpr ⟨here, [], childItems_nothing nothing, .nil⟩⟩
  | parent node listed _ ih =>
    obtain ⟨h, here⟩ := header_accepted node
    have each := fun item member => (ih item member).imp fun _ made => And.intro made made
    obtain ⟨below, _, described⟩ := mapM_total each
    exact ⟨.mk h below, ofValue_ok_iff.mpr ⟨here, _, childItems_listed listed, described⟩⟩

/-- What is read as a tree describes one. -/
theorem accepted_read (v : Value) (plain : isPlain v = true) {n : Node} (made : Node.ofValue v = .ok n) :
    Accepted v := by
  obtain ⟨h, below⟩ := n
  obtain ⟨here, items, given, each⟩ := ofValue_ok_iff.mp made
  obtain ⟨entries, tag, rfl, found, fits, _⟩ := header_ok_iff.mp here
  have node : DescribesNode tag entries := describesNode_iff.mpr ⟨found, fits⟩
  have offered := childItems_offers plain
  rw [given] at offered
  cases offered with
  | nothing falsy => exact .childless node falsy
  | listed listed =>
    refine .parent node listed fun item member => ?_
    obtain ⟨_, _, described⟩ := answer_of_mem each member
    exact accepted_read item (plain_below plain listed item member) described
termination_by sizeOf v
decreasing_by
  subst v
  exact sizeOf_below listed member

/-! ## Verdicts -/

/-- Every plain value is read, and then it describes a tree, or it is refused, and then it
does not. -/
theorem plain_decided (plain : isPlain v = true) :
    (Accepted v ∧ ∃ n, Node.ofValue v = .ok n) ∨ (¬ Accepted v ∧ ∃ e, Refusal v e ∧ Node.ofValue v = .error e) := by
  have ends := ofValue_ends plain
  cases ran : Node.ofValue v with
  | ok n => exact .inl ⟨accepted_read v plain ran, n, rfl⟩
  | error e =>
    rw [ran] at ends
    cases ends with
    | error refusal =>
      refine .inr ⟨fun accepted => ?_, e, refusal, rfl⟩
      obtain ⟨n, made⟩ := read_accepted accepted
      rw [ran] at made
      cases made

variable {files : Files} {path : FilePath}

theorem parse_loaded (loads : Loads files path v) {n : Node} (made : Node.ofValue v = .ok n) :
    ∃ tree, (FrontEnd.document.parse files path).outcome = .ok tree := by
  obtain ⟨text, readable, loaded⟩ := loads
  have described : Tree.treeOf path v = .ok n := by rw [Tree.treeOf, made]
  unfold FrontEnd.parse Tree.unitOf
  simp only [Traced.outcome_of, readable, loaded, described, bind]
  split <;> exact ⟨_, rfl⟩

theorem parse_refused (loads : Loads files path v) (refusal : Refusal v e) (failed : Node.ofValue v = .error e) :
    (FrontEnd.document.parse files path).outcome = .error (.source path.text ("not a node tree: " ++ e.message)) := by
  obtain ⟨text, readable, loaded⟩ := loads
  have defect : Tree.isDefect e = true := by cases refusal <;> rfl
  have refused : Tree.treeOf path v = .error (.source path.text ("not a node tree: " ++ e.message)) := by
    rw [Tree.treeOf, failed]
    exact if_pos defect
  unfold FrontEnd.parse Tree.unitOf
  simp only [Traced.outcome_of, readable, loaded, refused, bind]

/-- Whatever value a text is read as, it describes a tree and is made into one, alone or from
a file; or it does not and is refused, as a malformed tree or, where children are true or a
number, as a mistaken type, and a file is refused as one that holds no tree. -/
theorem documents_accepted_exactly {budget : Nat} {text : String} (read : Json.read budget text = .ok v) :
    (Accepted v ∧ (∀ s : Store, ∃ root t, s.read v = .ok (root, t)) ∧
      ∀ files path, Loads files path v → ∃ tree, (FrontEnd.document.parse files path).outcome = .ok tree) ∨
    (¬ Accepted v ∧ ∃ e, Refusal v e ∧ (∀ s : Store, s.read v = .error e) ∧
      ∀ files path, Loads files path v → (FrontEnd.document.parse files path).outcome =
        .error (.source path.text ("not a node tree: " ++ e.message))) := by
  rcases plain_decided (read_kept read).plain with ⟨accepted, n, made⟩ | ⟨refused, e, refusal, failed⟩
  · refine .inl ⟨accepted, fun s => ?_, fun files path loads => parse_loaded loads made⟩
    obtain ⟨t, ran, _⟩ := read_ok s made
    exact ⟨_, t, ran⟩
  · exact .inr ⟨refused, e, refusal, fun s => read_error s failed, fun files path loads =>
      parse_refused loads refusal failed⟩

/-- A branch around a loop, which has this for its children. -/
def loopValue (below : Value) : Value :=
  .map [(.str "kind", .str "If"), (.str "end_line", .null), (.str "children", .list [
    .map [(.str "kind", .str "For"), (.str "begin_line", .int 7), (.str "children", below)]])]

/-- The text of such a branch, with an empty text for the children of the loop. -/
def emptyText : String :=
  "\x7b\"kind\":\"If\",\"end_line\":null,\"children\":[\x7b\"kind\":\"For\",\"begin_line\":7,\"children\":\"\"\x7d]\x7d"

/-- The same text with `true` for them. -/
def trueText : String :=
  "\x7b\"kind\":\"If\",\"end_line\":null,\"children\":[\x7b\"kind\":\"For\",\"begin_line\":7,\"children\":true\x7d]\x7d"

/-- An empty text stands for no children, but `true` is of a mistaken type. -/
theorem loop_documents_decided :
    Json.read 9 emptyText = .ok (loopValue (.str "")) ∧
      (∃ root t, Store.empty.read (loopValue (.str "")) = .ok (root, t)) ∧
      Json.read 9 trueText = .ok (loopValue (.bool true)) ∧ HasUncountable (loopValue (.bool true)) ∧
      Store.empty.read (loopValue (.bool true)) = .error (.type (.iteration "bool")) := by
  have readEmpty : Json.read 9 emptyText = .ok (loopValue (.str "")) := by rfl
  have readTrue : Json.read 9 trueText = .ok (loopValue (.bool true)) := by rfl
  have failed : Node.ofValue (loopValue (.bool true)) = .error (.type (.iteration "bool")) := rfl
  have stopped := read_error .empty failed
  refine ⟨readEmpty, ?_, readTrue, ?_, stopped⟩
  · rcases documents_accepted_exactly readEmpty with ⟨_, made, _⟩ | ⟨refused, _⟩
    · exact made .empty
    · exact absurd (accepted_read _ (read_kept readEmpty).plain rfl) refused
  · rcases documents_accepted_exactly readTrue with ⟨accepted, _⟩ | ⟨_, e, refusal, ended, _⟩
    · obtain ⟨n, made⟩ := read_accepted accepted
      rw [failed] at made
      cases made
    · rw [ended .empty] at stopped
      cases stopped
      cases refusal with
      | mistaken _ somewhere => exact somewhere

end MethodLint.AcceptedDocuments
