import MethodLint.Proofs.DumpedOutlines
import MethodLint.Proofs.PlainValues

/-! Trees that are written and read again. What can be written of a tree, and what comes
back as it was, is told by the values of its fields; a tree that was read from a document
of the same format has only values that come back, and so has the outline of a source. -/
namespace MethodLint.RereadTrees
open Node Walks Outcomes Header Documents NormalDocuments JsonWriting JsonRoundTrips PlainValues OutlineHeaders

variable {P : Value → Prop} {name : String} {v : Value} {h : Header} {n : Node}

/-! ## Fields of nodes -/

/-- What a node holds in its lines and in the field of its shape is of a sort. -/
structure EachField (P : Value → Prop) (h : Header) : Prop where
  beginLine : P h.beginLine
  endLine : P h.endLine
  detail : P h.variant.detail

/-- A sort of values that has a list exactly if it has all items, and a mapping of texts
exactly if it has all values. -/
structure Inherited (P : Value → Prop) : Prop where
  null : P .null
  text : ∀ s, P (.str s)
  list : ∀ items, P (.list items) ↔ ∀ item ∈ items, P item
  map : ∀ entries, AllTexts entries → (textKeys entries).Nodup →
    (P (.map entries) ↔ ∀ entry ∈ entries, P entry.2)

/-- A value that can be written. -/
def Writable (v : Value) : Prop := isWritable v = true

/-- A value that is read as it was. -/
def Plain (v : Value) : Prop := isPlain v = true

theorem writable_inherited : Inherited Writable := by
  refine ⟨rfl, fun _ => rfl, fun _ => areWritable_iff, fun entries texts _ => ?_⟩
  refine entriesAreWritable_iff.trans (forall₂_congr fun entry member => and_iff_right ?_)
  obtain ⟨name, text⟩ := texts entry member
  rw [text]
  rfl

theorem plain_inherited : Inherited Plain := by
  refine ⟨rfl, fun _ => rfl, fun _ => arePlain_iff, fun entries texts unique => plain_map_iff.trans ?_⟩
  exact ⟨fun proper entry member => (proper.each entry member).2,
    fun each => ⟨unique, fun entry member => ⟨texts entry member, each entry member⟩⟩⟩

theorem given_each (null : P .null) : (∀ entry ∈ given name v, P entry.2) ↔ P v := by
  unfold given
  split
  · rename_i nothing
    rw [Flags.isNull_iff.mp nothing]
    exact iff_of_true (fun entry member => absurd member List.not_mem_nil) null
  · simp

theorem detail_of_none (none : h.shape.field? = none) : h.variant.detail = .null := by
  have plain : h.variant.shape.field? = Option.none := none
  cases variant : h.variant <;> simp [variant, Variant.shape, Shape.field?] at plain
  rfl

theorem details_each (null : P .null) : (∀ entry ∈ h.details, P entry.2) ↔ EachField P h := by
  have own : (∀ entry ∈ h.details, P entry.2) ↔ (P h.beginLine ∧ P h.endLine) ∧ P h.variant.detail := by
    rw [details, List.forall_mem_append, List.forall_mem_append, given_each null, given_each null]
    refine and_congr_right' ?_
    cases field : h.shape.field? with
    | none =>
      rw [detail_of_none field]
      exact iff_of_true (fun entry member => absurd member List.not_mem_nil) null
    | some name => exact given_each null
  exact own.trans ⟨fun all => ⟨all.1.1, all.1.2, all.2⟩,
    fun each => ⟨⟨each.beginLine, each.endLine⟩, each.detail⟩⟩

/-- What is written of a node is under texts, none of them twice. -/
theorem keys_written (h : Header) (below : List Node) :
    AllTexts (h.fields ++ writtenBelow below) ∧ (textKeys (h.fields ++ writtenBelow below)).Nodup := by
  have same : (h.fields ++ writtenBelow below).map Prod.fst =
      (h.fields ++ normalBelow (toValues below)).map Prod.fst := by
    cases below with
    | nil => rfl
    | cons n rest => simp [writtenBelow, normalBelow, toValues]
  refine ⟨fun entry member => ?_, (textKeys_congr same).symm ▸ unique_written h _⟩
  have key : entry.1 ∈ (h.fields ++ normalBelow (toValues below)).map Prod.fst := same ▸ List.mem_map_of_mem member
  obtain ⟨other, among, eq⟩ := List.mem_map.mp key
  exact eq ▸ texts_written h _ other among

theorem node_each (inherited : Inherited P) (h : Header) (below : List Node) :
    P (toValue (.mk h below)) ↔ EachField P h ∧ ∀ n ∈ below, P n.toValue := by
  obtain ⟨texts, unique⟩ := keys_written h below
  rw [toValue_node, inherited.map _ texts unique, List.forall_mem_append, fields, List.forall_mem_cons,
    details_each inherited.null]
  refine and_congr (and_iff_right (inherited.text _)) ?_
  have items : (∀ n ∈ below, P n.toValue) ↔ ∀ v ∈ toValues below, P v := by
    rw [toValues_map, List.forall_mem_map]
  rw [items, ← inherited.list]
  cases below with
  | nil => exact iff_of_true (fun entry member => absurd member List.not_mem_nil) ((inherited.list []).mpr (by simp))
  | cons n rest => simp [writtenBelow]

mutual

/-- What is written of a tree is of a sort exactly if all its fields are. -/
theorem toValue_each (inherited : Inherited P) (n : Node) : P n.toValue ↔ Everywhere (EachField P) [n] := by
  cases n with
  | mk h below => rw [node_each inherited, everywhere_node_iff, toValues_each inherited below]

theorem toValues_each (inherited : Inherited P) (nodes : List Node) :
    (∀ n ∈ nodes, P n.toValue) ↔ Everywhere (EachField P) nodes := by
  cases nodes with
  | nil => exact iff_of_true (by simp) everywhere_nil
  | cons n rest =>
    rw [List.forall_mem_cons, everywhere_cons_iff, toValue_each inherited n, toValues_each inherited rest]

end

/-! ## Trees read again -/

/-- A node with its fields read again. -/
def rereadHeader (h : Header) : Header :=
  ⟨h.kind, reread h.beginLine, reread h.endLine, .of h.shape (reread h.variant.detail)⟩

mutual

/-- A tree with the fields of all nodes read again. -/
def rereadTree : Node → Node
  | .mk h below => .mk (rereadHeader h) (rereadTrees below)

/-- Some trees with the fields of all nodes read again. -/
def rereadTrees : List Node → List Node
  | [] => []
  | n :: rest => rereadTree n :: rereadTrees rest

end

theorem isNull_reread (v : Value) : (reread v).isNull = v.isNull := by
  cases v <;> rfl

theorem given_reread (name : String) (v : Value) :
    (given name v).map (fun entry => (entry.1, reread entry.2)) = given name (reread v) := by
  unfold given
  rw [isNull_reread]
  split <;> rfl

theorem details_reread (h : Header) :
    h.details.map (fun entry => (entry.1, reread entry.2)) = (rereadHeader h).details := by
  have shape : (rereadHeader h).shape = h.shape := shape_of _ _
  rw [details, details, shape, List.map_append, List.map_append, given_reread, given_reread]
  cases field : h.shape.field? with
  | none => rfl
  | some name =>
    have detail : (rereadHeader h).variant.detail = reread h.variant.detail := detail_of field _
    have own := given_reread name h.variant.detail
    rw [← detail] at own
    exact congrArg (given "begin_line" (reread h.beginLine) ++ given "end_line" (reread h.endLine) ++ ·) own

mutual

/-- What is written of a tree is read as what is written of the tree read again. -/
theorem toValue_reread (n : Node) : reread n.toValue = (rereadTree n).toValue := by
  cases n with
  | mk h below =>
    obtain ⟨texts, unique⟩ := keys_written h below
    have children : (writtenBelow below).map (fun entry => (entry.1, reread entry.2)) =
        writtenBelow (rereadTrees below) := by
      have inner := toValues_reread below
      cases below with
      | nil => rfl
      | cons n rest =>
        rw [rereadTrees] at inner ⊢
        simp only [writtenBelow, List.isEmpty_cons, Bool.false_eq_true, if_false, List.map_cons, List.map_nil]
        rw [reread, rereadItems_map, inner]
    rw [rereadTree, toValue_node, toValue_node, reread_map texts unique, List.map_append, fields, List.map_cons,
      details_reread, children]
    rfl

theorem toValues_reread (nodes : List Node) : (toValues nodes).map reread = toValues (rereadTrees nodes) := by
  cases nodes with
  | nil => rfl
  | cons n rest => rw [toValues, rereadTrees, toValues, List.map_cons, toValue_reread n, toValues_reread rest]

end

theorem whole_reread (whole : IsWhole v) : reread v = v := by
  obtain rfl | ⟨n, rfl⟩ := whole <;> rfl

theorem sound_reread (sound : Sound h) : Sound (rereadHeader h) := by
  refine ⟨(shape_of _ _).trans sound.shape, ?_, ?_⟩
  · rw [rereadHeader, whole_reread sound.beginLine]
    exact sound.beginLine
  · rw [rereadHeader, whole_reread sound.endLine]
    exact sound.endLine

mutual

theorem rereadTree_sound (n : Node) (sound : Everywhere Sound [n]) : Everywhere Sound [rereadTree n] := by
  cases n with
  | mk h below =>
    obtain ⟨here, inner⟩ := everywhere_node_iff.mp sound
    exact everywhere_node (sound_reread here) (rereadTrees_sound below inner)

theorem rereadTrees_sound (nodes : List Node) (sound : Everywhere Sound nodes) :
    Everywhere Sound (rereadTrees nodes) := by
  cases nodes with
  | nil => exact everywhere_nil
  | cons n rest =>
    obtain ⟨here, later⟩ := everywhere_cons_iff.mp sound
    exact everywhere_cons (rereadTree_sound n here) (rereadTrees_sound rest later)

end

/-- A tree whose fields can be written is read as it was exactly if its fields are. -/
theorem rereadTree_same_iff (sound : Everywhere Sound [n]) (writable : Everywhere (EachField Writable) [n]) :
    rereadTree n = n ↔ Everywhere (EachField Plain) [n] := by
  have written : Writable n.toValue := (toValue_each writable_inherited n).mpr writable
  rw [← toValue_each plain_inherited, Plain, ← reread_same_iff written, toValue_reread]
  constructor
  · intro same
    rw [same]
  · intro same
    have first := ofValue_toValue _ (rereadTree_sound n sound)
    rw [same, ofValue_toValue n sound] at first
    exact (Except.ok.inj first).symm

/-! ## Documents of the same format -/

theorem kept_items {items : List Value} (kept : Kept (.list items)) : ∀ item ∈ items, Kept item := fun item member =>
  ⟨arePlain_iff.mp kept.plain item member, areWritable_iff.mp kept.writable item member⟩

theorem kept_entries {entries : List (Value × Value)} (kept : Kept (.map entries)) : Proper Kept entries := by
  obtain ⟨unique, each⟩ := plain_map_iff.mp kept.plain
  exact ⟨unique, fun entry member => ⟨(each entry member).1, (each entry member).2,
    (entriesAreWritable_iff.mp kept.writable entry member).2⟩⟩

/-- What a mapping that is kept has under a name is kept. -/
theorem kept_lookup {entries : List (Value × Value)} (kept : Kept (.map entries)) (name : String) :
    Kept ((Value.lookup name entries).getD .null) := by
  have proper := kept_entries kept
  cases found : Value.lookup name entries with
  | none => exact ⟨rfl, rfl⟩
  | some v => exact (proper.each _ ((lookup_iff_mem proper.unique).mp found)).2

/-- The fields of a node are kept if the value is that it is read from. -/
theorem header_kept (kept : Kept v) (made : Header.ofValue v = .ok h) : EachField Kept h := by
  obtain ⟨entries, kind, rfl, -, fits, rfl⟩ := header_ok_iff.mp made
  have field (name : String) (notKind : name ≠ "kind") (notChildren : name ≠ "children") :
      Kept (held name (entries.filter fun entry => !isStructural entry.1)) := by
    rw [held, lookup_filtered notKind notChildren]
    exact kept_lookup kept name
  refine ⟨field _ (by decide) (by decide), field _ (by decide) (by decide), ?_⟩
  cases own : (Shape.ofKind kind.text).field? with
  | none =>
    rw [detail_of_none ((congrArg Shape.field? (sound_ofFields fits).shape).trans own)]
    exact ⟨rfl, rfl⟩
  | some name =>
    obtain ⟨notKind, notChildren, _⟩ := field_distinct own
    simp only [ofFields, own, Option.elim, detail_of own]
    exact field name notKind notChildren

theorem children_kept {items : List Value} (kept : Kept v) (given : childItems v = .ok items) :
    ∀ item ∈ items, Kept item := by
  have inside : Kept (v.getD "children") := by
    cases v with
    | map entries => exact kept_lookup kept "children"
    | _ => exact ⟨rfl, rfl⟩
  unfold childItems at given
  split at given
  · rename_i same
    cases given
    exact kept_items (same ▸ inside)
  · rename_i same
    rw [same] at inside
    exact absurd inside.plain Bool.false_ne_true
  · rw [eq_nil_of_strange given]
    exact nofun

mutual

/-- All fields of a tree are kept if the value is that it is read from. -/
theorem ofValue_kept (n : Node) {v : Value} (kept : Kept v) (made : Node.ofValue v = .ok n) :
    Everywhere (EachField Kept) [n] := by
  cases n with
  | mk h below =>
    obtain ⟨here, items, given, each⟩ := ofValue_ok_iff.mp made
    exact everywhere_node (header_kept kept here) (ofValue_kept_each below (children_kept kept given) each)

theorem ofValue_kept_each (nodes : List Node) {items : List Value} (kept : ∀ item ∈ items, Kept item)
    (each : List.Forall₂ (fun item c => Node.ofValue item = .ok c) items nodes) :
    Everywhere (EachField Kept) nodes := by
  cases each with
  | nil => exact everywhere_nil
  | cons made others =>
    obtain ⟨here, later⟩ := List.forall_mem_cons.mp kept
    exact everywhere_cons (ofValue_kept _ here made) (ofValue_kept_each _ later others)

end

/-! ## Outlines -/

/-- Lines that have few enough digits to be written. -/
structure ShortLines (h : Header) : Prop where
  beginLine : Writable h.beginLine
  endLine : Writable h.endLine

/-- The field of a node of an outline holds a text, a truth value or nothing. -/
theorem detail_kept (filled : DumpedOutlines.Filled h.variant) : Kept h.variant.detail := by
  generalize h.variant = variant at filled
  cases filled with
  | method name =>
    cases name <;> exact ⟨rfl, rfl⟩
  | _ => exact ⟨rfl, rfl⟩

theorem whole_plain (whole : IsWhole v) : Plain v := by
  obtain rfl | ⟨n, rfl⟩ := whole <;> rfl

end MethodLint.RereadTrees
