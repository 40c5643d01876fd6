import MethodLint.Proofs.Flags
import MethodLint.Tree.Document

/-! What the documents of trees say. A header is read from the fields of a mapping
exactly if all of them belong to its kind and its lines are whole numbers; and a
tree whose nodes have the shapes of their kinds is read back from what is written
of it. -/
namespace MethodLint.Documents
open Node Walks Outcomes Flags Header

/-! ## Fields -/

variable {name other kind : String} {v : Value} {fields rest : List (Value × Value)}

/-- What is written of a value: nothing of null. -/
def unlessNull (v : Value) : Option Value := if v.isNull then none else some v

theorem getD_unlessNull (v : Value) : (unlessNull v).getD .null = v := by
  unfold unlessNull
  split
  · rename_i null
    exact (isNull_iff.mp null).symm
  · rfl

theorem lookup_given (name other : String) (v : Value) :
    Value.lookup name (given other v) = if other = name then unlessNull v else none := by
  unfold given unlessNull
  by_cases null : v.isNull = true
  · simp [null, Value.lookup]
  · simp [null, Value.lookup]

theorem lookup_absent (absent : ∀ field ∈ fields, field.1 ≠ .str name) : Value.lookup name fields = none := by
  induction fields with
  | nil => rfl
  | cons field later ih =>
    obtain ⟨key, v⟩ := field
    obtain ⟨different, others⟩ := List.forall_mem_cons.mp absent
    cases key with
    | str other =>
      rw [Value.lookup, if_neg fun same => different (congrArg Value.str same)]
      exact ih others
    | _ => exact ih others

theorem lookup_append (name : String) (fields rest : List (Value × Value)) :
    Value.lookup name (fields ++ rest) = (Value.lookup name fields).or (Value.lookup name rest) := by
  induction fields with
  | nil => rfl
  | cons field later ih =>
    obtain ⟨key, v⟩ := field
    rw [List.cons_append]
    cases key with
    | str other =>
      simp only [Value.lookup, ih]
      split <;> rfl
    | _ => exact ih

/-- A line that is left out or a whole number. -/
def IsWhole (v : Value) : Prop := v = .null ∨ ∃ n, v = .int n

theorem checkLine_ok_iff (field : String) : checkLine kind field v = .ok () ↔ IsWhole v := by
  cases v <;> simp [checkLine, IsWhole]

/-- Every field has a name that nodes of the kind accept. -/
def Known (kind : String) (fields : List (Value × Value)) : Prop :=
  ∀ field ∈ fields, ∃ name, field.1 = .str name ∧ accepts kind name = true

theorem namesOf_ok_iff {names : List String} :
    namesOf fields = .ok names ↔ fields.map Prod.fst = names.map .str := by
  induction fields generalizing names with
  | nil => cases names <;> simp [namesOf, pure, Except.pure]
  | cons field rest ih =>
    obtain ⟨key, v⟩ := field
    rw [namesOf, List.mapM_cons, bind_ok_iff]
    cases key with
    | str name =>
      constructor
      · rintro ⟨_, same, ran⟩
        cases same
        obtain ⟨later, read, ran⟩ := bind_ok_iff.mp ran
        cases ran
        simpa using ih.mp read
      · intro same
        cases names with
        | nil => cases same
        | cons first later =>
          simp only [List.map_cons, List.cons.injEq, Value.str.injEq] at same
          obtain ⟨rfl, same⟩ := same
          exact ⟨name, rfl, bind_ok_iff.mpr ⟨later, ih.mpr same, rfl⟩⟩
    | _ => cases names <;> simp

theorem known_iff : Known kind fields ↔ ∃ names : List String,
    fields.map Prod.fst = names.map .str ∧ ∀ name ∈ names, accepts kind name = true := by
  constructor
  · intro known
    induction fields with
    | nil => exact ⟨[], rfl, by simp⟩
    | cons field rest ih =>
      obtain ⟨⟨name, same, accepted⟩, others⟩ := List.forall_mem_cons.mp known
      obtain ⟨names, later, accepts⟩ := ih others
      exact ⟨name :: names, by simp [same, later], List.forall_mem_cons.mpr ⟨accepted, accepts⟩⟩
  · rintro ⟨names, same, accepted⟩ field member
    have listed : field.1 ∈ names.map Value.str := same ▸ List.mem_map_of_mem member
    obtain ⟨name, here, key⟩ := List.mem_map.mp listed
    exact ⟨name, key.symm, accepted name here⟩

theorem checkNames_ok_iff : checkNames kind fields = .ok () ↔ Known kind fields := by
  have unknown_none (names : List String) : (∀ name ∈ names, accepts kind name = true) ↔
      names.filter (fun name => !accepts kind name) = [] := by simp
  rw [known_iff, checkNames, bind_ok_iff]
  refine exists_congr fun names => and_congr namesOf_ok_iff ?_
  rw [unknown_none]
  split
  · rename_i none
    exact iff_of_true rfl none
  · rename_i some
    exact iff_of_false (fun checked => nomatch checked) some

/-! ## Headers -/

/-- The fields are those of a kind, and the lines among them are whole numbers. -/
structure Fits (kind : String) (fields : List (Value × Value)) : Prop where
  known : Known kind fields
  beginLine : IsWhole (held "begin_line" fields)
  endLine : IsWhole (held "end_line" fields)

/-- A header is made of fields exactly if they fit its kind, and then it holds what
they hold. -/
theorem make_ok_iff {h : Header} : make kind fields = .ok h ↔ Fits kind fields ∧ h = ofFields kind fields := by
  unfold make
  constructor
  · intro made
    obtain ⟨_, known, made⟩ := bind_ok_iff.mp made
    obtain ⟨_, first, made⟩ := bind_ok_iff.mp made
    obtain ⟨_, last, made⟩ := bind_ok_iff.mp made
    cases made
    exact ⟨⟨checkNames_ok_iff.mp known, (checkLine_ok_iff _).mp first, (checkLine_ok_iff _).mp last⟩, rfl⟩
  · rintro ⟨fits, rfl⟩
    rw [checkNames_ok_iff.mpr fits.known, (checkLine_ok_iff _).mpr fits.beginLine,
      (checkLine_ok_iff _).mpr fits.endLine]
    rfl

/-! ## Nodes that can be written down -/

/-- The node has the shape that is registered for its kind, and its lines are whole
numbers or left out. -/
structure Sound (h : Header) : Prop where
  shape : h.shape = Shape.ofKind h.kind
  beginLine : IsWhole h.beginLine
  endLine : IsWhole h.endLine

theorem shape_of (shape : Shape) (v : Value) : (Variant.of shape v).shape = shape := by
  cases shape <;> rfl

theorem of_detail (variant : Variant) : Variant.of variant.shape variant.detail = variant := by
  cases variant <;> rfl

theorem sound_ofFields (fits : Fits kind fields) : Sound (ofFields kind fields) :=
  ⟨shape_of (Shape.ofKind kind) _, fits.beginLine, fits.endLine⟩

/-- The field of a shape has a name that means nothing else in a document. -/
theorem field_distinct {shape : Shape} (named : shape.field? = some name) :
    name ≠ "kind" ∧ name ≠ "children" ∧ name ≠ "begin_line" ∧ name ≠ "end_line" := by
  cases shape <;> cases named <;> decide

variable {h : Header}

/-- The header of a document is that of a mapping with a kind, whose other fields fit
the kind. -/
theorem header_ok_iff : Header.ofValue v = .ok h ↔
    ∃ entries kind, v = .map entries ∧ Value.lookup "kind" entries = some kind ∧
      Fits kind.text (entries.filter fun entry => !isStructural entry.1) ∧
      h = ofFields kind.text (entries.filter fun entry => !isStructural entry.1) := by
  constructor
  · intro made
    unfold Header.ofValue at made
    split at made
    · rename_i entries
      split at made
      · cases made
      · rename_i kind found
        exact ⟨entries, kind, rfl, found, make_ok_iff.mp made⟩
    · cases made
  · rintro ⟨entries, kind, rfl, found, made⟩
    rw [Header.ofValue, found]
    exact make_ok_iff.mpr made

theorem header_sound (made : Header.ofValue v = .ok h) : Sound h := by
  obtain ⟨_, _, _, _, fits, rfl⟩ := header_ok_iff.mp made
  exact sound_ofFields fits

/-- What is written of a header beside its kind is named, and by nothing that means
something else in a document. -/
theorem details_named {entry : Value × Value} (member : entry ∈ h.details) :
    ∃ name, entry.1 = .str name ∧ name ≠ "kind" ∧ name ≠ "children" ∧
      (name = "begin_line" ∨ name = "end_line" ∨ h.shape.field? = some name) := by
  have named (name : String) (v : Value) (listed : entry ∈ given name v) : entry.1 = .str name := by
    unfold given at listed
    split at listed
    · exact absurd listed List.not_mem_nil
    · rw [List.mem_singleton.mp listed]
  rw [details, List.mem_append, List.mem_append] at member
  rcases member with (first | last) | own
  · exact ⟨"begin_line", named _ _ first, by decide, by decide, .inl rfl⟩
  · exact ⟨"end_line", named _ _ last, by decide, by decide, .inr (.inl rfl)⟩
  · cases field : h.shape.field? with
    | none => simp [field] at own
    | some name =>
      obtain ⟨notKind, notChildren, _⟩ := field_distinct field
      simp only [field] at own
      exact ⟨name, named _ _ own, notKind, notChildren, .inr (.inr rfl)⟩

/-- What is written of the lines and of the shape's own field is what they hold. -/
theorem lookup_details (h : Header) :
    Value.lookup "begin_line" h.details = unlessNull h.beginLine ∧
      Value.lookup "end_line" h.details = unlessNull h.endLine ∧
      ∀ name, h.shape.field? = some name → Value.lookup name h.details = unlessNull h.variant.detail := by
  cases field : h.shape.field? with
  | none => simp [details, field, lookup_append, lookup_given]
  | some own =>
    obtain ⟨_, _, notFirst, notLast⟩ := field_distinct field
    refine ⟨?_, ?_, fun name same => ?_⟩
    · simp [details, field, lookup_append, lookup_given, notFirst]
    · simp [details, field, lookup_append, lookup_given, notLast]
    · cases same
      simp [details, field, lookup_append, lookup_given, notFirst.symm, notLast.symm]

theorem held_details (h : Header) :
    held "begin_line" h.details = h.beginLine ∧ held "end_line" h.details = h.endLine ∧
      ∀ name, h.shape.field? = some name → held name h.details = h.variant.detail := by
  obtain ⟨first, last, own⟩ := lookup_details h
  refine ⟨?_, ?_, fun name field => ?_⟩
  · rw [held, first, getD_unlessNull]
  · rw [held, last, getD_unlessNull]
  · rw [held, own name field, getD_unlessNull]

theorem ofFields_details (sound : Sound h) : ofFields h.kind h.details = h := by
  obtain ⟨first, last, own⟩ := held_details h
  have detail : (h.shape.field?.elim .null fun name => held name h.details) = h.variant.detail := by
    cases field : h.shape.field? with
    | none =>
      have plain : h.variant.shape.field? = none := field
      cases variant : h.variant <;> simp [variant, Variant.shape, Shape.field?] at plain
      rfl
    | some name => exact own name field
  unfold ofFields
  simp only [first, last, ← sound.shape, detail]
  exact congrArg (Header.mk h.kind h.beginLine h.endLine) (of_detail h.variant)

theorem details_fit (sound : Sound h) : Fits h.kind h.details := by
  obtain ⟨first, last, _⟩ := held_details h
  refine ⟨fun entry member => ?_, first.symm ▸ sound.beginLine, last.symm ▸ sound.endLine⟩
  obtain ⟨name, key, _, _, rfl | rfl | own⟩ := details_named member
  · exact ⟨_, key, rfl⟩
  · exact ⟨_, key, rfl⟩
  · rw [sound.shape] at own
    exact ⟨name, key, by simp [accepts, own]⟩

/-! ## Trees -/

/-- The nodes that some values describe, the headers of all of them before anything
that is below one. -/
def nodesOf (items : List Value) : Except Fault (List Node) := do
  let headers ← items.mapM Header.ofValue
  let subtrees ← childrenOfEach items
  return List.zipWith Node.mk headers subtrees

theorem ofChildren_items (c : Value) : ofChildren c =
    (match c with
      | .list items | .tuple items => .ok items
      | other => (strangeChildren other).map fun _ => []) >>= nodesOf := by
  have strange (other : Value) :
      strangeChildren other = (strangeChildren other).map (fun _ => []) >>= nodesOf := by
    unfold strangeChildren
    split
    · rfl
    · split <;> rfl
  cases c with
  | list items | tuple items => rfl
  | _ => exact strange _

/-- What is below a node is read from the values of its children. -/
theorem childrenOf_items (v : Value) : childrenOf v = childItems v >>= nodesOf := by
  have entries_items (entries : List (Value × Value)) :
      childrenOfEntries entries = ofChildren ((Value.lookup "children" entries).getD .null) := by
    induction entries with
    | nil => rfl
    | cons entry rest ih =>
      obtain ⟨key, v⟩ := entry
      cases key with
      | str name =>
        rw [childrenOfEntries, Value.lookup]
        split
        · rfl
        · exact ih
      | _ => exact ih
  cases v with
  | map entries =>
    rw [childrenOf, entries_items, ofChildren_items]
    rfl
  | _ => rfl

theorem childrenOfEach_ok_iff {items : List Value} {subtrees : List (List Node)} :
    childrenOfEach items = .ok subtrees ↔
      List.Forall₂ (fun v below => childrenOf v = .ok below) items subtrees := by
  induction items generalizing subtrees with
  | nil => simp [childrenOfEach, eq_comm]
  | cons v rest ih =>
    rw [childrenOfEach, bind_ok_iff]
    constructor
    · rintro ⟨later, others, ran⟩
      obtain ⟨first, here, ran⟩ := bind_ok_iff.mp ran
      cases ran
      exact .cons here (ih.mp others)
    · intro each
      obtain _ | ⟨here, others⟩ := each
      exact ⟨_, ih.mpr others, bind_ok_iff.mpr ⟨_, here, rfl⟩⟩

/-- Headers and subtrees of some values are put together one by one. -/
theorem zip_describes {items : List Value} {headers : List Header} {subtrees : List (List Node)}
    (here : List.Forall₂ (fun v header => Header.ofValue v = .ok header) items headers)
    (below : List.Forall₂ (fun v below => childrenOf v = .ok below) items subtrees) :
    List.Forall₂ (fun item c => Node.ofValue item = .ok c) items (List.zipWith Node.mk headers subtrees) := by
  induction here generalizing subtrees with
  | nil => exact .nil
  | cons header _ ih =>
    obtain _ | ⟨children, others⟩ := below
    refine .cons ?_ (ih others)
    rw [Node.ofValue, header, children]
    rfl

theorem ofValue_parts {n : Node} (made : Node.ofValue v = .ok n) :
    Header.ofValue v = .ok n.header ∧ childrenOf v = .ok n.children := by
  obtain ⟨header, here, made⟩ := bind_ok_iff.mp made
  obtain ⟨children, below, made⟩ := bind_ok_iff.mp made
  cases made
  exact ⟨here, below⟩

variable {items : List Value} {nodes : List Node}

theorem headers_ok (each : List.Forall₂ (fun item c => Node.ofValue item = .ok c) items nodes) :
    items.mapM Header.ofValue = .ok (nodes.map Node.header) :=
  mapM_ok_iff.mpr (List.forall₂_map_right_iff.mpr (each.imp fun _ _ made => (ofValue_parts made).1))

theorem nodesOf_ok_iff :
    nodesOf items = .ok nodes ↔
      List.Forall₂ (fun item c => Node.ofValue item = .ok c) items nodes := by
  unfold nodesOf
  constructor
  · intro ran
    obtain ⟨headers, here, ran⟩ := bind_ok_iff.mp ran
    obtain ⟨subtrees, below, ran⟩ := bind_ok_iff.mp ran
    cases ran
    exact zip_describes (mapM_ok_iff.mp here) (childrenOfEach_ok_iff.mp below)
  · intro each
    have subtrees : childrenOfEach items = .ok (nodes.map Node.children) :=
      childrenOfEach_ok_iff.mpr
        (List.forall₂_map_right_iff.mpr (each.imp fun _ _ made => (ofValue_parts made).2))
    have whole : List.zipWith Node.mk (nodes.map Node.header) (nodes.map Node.children) = nodes := by
      rw [List.zipWith_map_left, List.zipWith_map_right, List.zipWith_self]
      conv_rhs => rw [← List.map_id nodes]
      exact List.map_congr_left fun n _ => by cases n; rfl
    rw [headers_ok each, subtrees]
    exact congrArg Except.ok whole

/-- A value describes a node if it has the header of the node, and the values of
its children describe the children in their order. -/
theorem ofValue_ok_iff {below : List Node} : Node.ofValue v = .ok (.mk h below) ↔
    Header.ofValue v = .ok h ∧ ∃ items, childItems v = .ok items ∧
      List.Forall₂ (fun item c => Node.ofValue item = .ok c) items below := by
  rw [Node.ofValue, bind_ok_iff]
  simp only [childrenOf_items, bind_ok_iff, nodesOf_ok_iff]
  constructor
  · rintro ⟨header, here, children, ⟨items, given, each⟩, same⟩
    cases same
    exact ⟨here, items, given, each⟩
  · rintro ⟨here, items, given, each⟩
    exact ⟨h, here, below, ⟨items, given, each⟩, rfl⟩

/-! ## Reading what was written -/

theorem toValues_map (nodes : List Node) : toValues nodes = nodes.map toValue := by
  induction nodes with
  | nil => rfl
  | cons n later ih => rw [toValues, ih, List.map_cons]

/-- The children of a node as its document writes them, left out if there are none. -/
def writtenBelow (below : List Node) : List (Value × Value) :=
  if below.isEmpty then [] else [(.str "children", .list (toValues below))]

theorem toValue_node (h : Header) (below : List Node) :
    toValue (.mk h below) = .map (h.fields ++ writtenBelow below) := rfl

theorem header_written (sound : Sound h) (below : List Node) :
    Header.ofValue (toValue (.mk h below)) = .ok h := by
  have kept : (h.fields ++ writtenBelow below).filter (fun entry => !isStructural entry.1) = h.details := by
    have own : h.details.filter (fun entry => !isStructural entry.1) = h.details := by
      refine List.filter_eq_self.mpr fun entry member => ?_
      obtain ⟨name, key, notKind, notChildren, _⟩ := details_named member
      simp [key, isStructural, notKind, notChildren]
    have none : (writtenBelow below).filter (fun entry => !isStructural entry.1) = [] := by
      unfold writtenBelow
      split <;> rfl
    rw [fields, List.cons_append, List.filter_cons_of_neg (by simp [isStructural]), List.filter_append,
      own, none, List.append_nil]
  refine header_ok_iff.mpr ⟨h.fields ++ writtenBelow below, .str h.kind, toValue_node h below, rfl, ?_⟩
  rw [kept]
  exact ⟨details_fit sound, (ofFields_details sound).symm⟩

theorem childItems_written (h : Header) (below : List Node) :
    childItems (toValue (.mk h below)) = .ok (below.map toValue) := by
  have none : Value.lookup "children" h.fields = none := by
    refine lookup_absent (List.forall_mem_cons.mpr ⟨by simp, fun entry member => ?_⟩)
    obtain ⟨name, key, _, notChildren, _⟩ := details_named member
    simp [key, notChildren]
  have found : Value.lookup "children" (h.fields ++ writtenBelow below) =
      Value.lookup "children" (writtenBelow below) := by
    rw [lookup_append, none, Option.none_or]
  rw [toValue_node, childItems, Value.getD, Value.get?, found, ← toValues_map]
  cases below with
  | nil => rfl
  | cons n later => rfl

mutual

/-- A tree of sound nodes is read back from what is written of it. -/
theorem ofValue_toValue (n : Node) (sound : Everywhere Sound [n]) : Node.ofValue n.toValue = .ok n := by
  cases n with
  | mk h below =>
    obtain ⟨here, inner⟩ := everywhere_node_iff.mp sound
    refine ofValue_ok_iff.mpr ⟨header_written here below, _, childItems_written h below, ?_⟩
    exact List.forall₂_map_left_iff.mpr (ofValue_toValue_each below inner)

theorem ofValue_toValue_each (nodes : List Node) (sound : Everywhere Sound nodes) :
    List.Forall₂ (fun n c => Node.ofValue n.toValue = .ok c) nodes nodes := by
  cases nodes with
  | nil => exact .nil
  | cons n later =>
    obtain ⟨here, others⟩ := everywhere_cons_iff.mp sound
    exact .cons (ofValue_toValue n here) (ofValue_toValue_each later others)

end

mutual

/-- What is read from a document are sound nodes. -/
theorem ofValue_sound (n : Node) {v : Value} (made : Node.ofValue v = .ok n) : Everywhere Sound [n] := by
  cases n with
  | mk h below =>
    obtain ⟨here, items, _, each⟩ := ofValue_ok_iff.mp made
    exact everywhere_node (header_sound here) (ofValue_sound_each below each)

theorem ofValue_sound_each (nodes : List Node) {items : List Value}
    (each : List.Forall₂ (fun item c => Node.ofValue item = .ok c) items nodes) :
    Everywhere Sound nodes := by
  cases each with
  | nil => exact everywhere_nil
  | cons made others => exact everywhere_cons (ofValue_sound _ made) (ofValue_sound_each _ others)

end

end MethodLint.Documents
