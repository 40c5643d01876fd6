import Mathlib.Data.List.Nodup
import MethodLint.Proofs.Documents

/-! The document that is written of a tree and the one that it was read from say
the same. What is written has the kind as a text, leaves out what is null, and has
children only where there are some; beyond that no entry is lost, changed or added,
at any depth. -/
namespace MethodLint.NormalDocuments
open Node Documents Header

/-! ## Normal form -/

mutual

/-- A document of a tree in the form in which trees are written. -/
def normal : Value → Value
  | .map entries => .map (normalEntries entries)
  | v => v

/-- The entries of a node in this form: its kind as a text, children if there are any,
and every other field that is not null. -/
def normalEntries : List (Value × Value) → List (Value × Value)
  | [] => []
  | (key, v) :: rest =>
    (if key.isText "kind" then [(key, .str v.text)]
      else if key.isText "children" then if v.isFalsy then [] else [(key, normalChildren v)]
      else if v.isNull then [] else [(key, v)]) ++ normalEntries rest

/-- The children of a node in this form: a list of documents. -/
def normalChildren : Value → Value
  | .list items | .tuple items => .list (normalItems items)
  | v => v

/-- Some documents in this form. -/
def normalItems : List Value → List Value
  | [] => []
  | v :: rest => normal v :: normalItems rest

end

/-- Two documents say the same if they differ in the order of entries only. -/
inductive Same : Value → Value → Prop where
  | refl (v : Value) : Same v v
  | list {first second : List Value} (each : List.Forall₂ Same first second) :
      Same (.list first) (.list second)
  | map {first second third : List (Value × Value)} (keys : first.map Prod.fst = second.map Prod.fst)
      (values : List.Forall₂ Same (first.map Prod.snd) (second.map Prod.snd))
      (order : second.Perm third) : Same (.map first) (.map third)

/-! ## Keys -/

/-- The texts among the keys of some entries. -/
def textKeys (entries : List (Value × Value)) : List String :=
  entries.filterMap fun entry => match entry.1 with
    | .str name => some name
    | _ => none

mutual

/-- No mapping in a value has the same text as a key twice. -/
def hasUniqueKeys : Value → Bool
  | .list items | .tuple items => haveUniqueKeys items
  | .map entries => decide (textKeys entries).Nodup && entriesHaveUniqueKeys entries
  | _ => true

/-- No mapping in some values does. -/
def haveUniqueKeys : List Value → Bool
  | [] => true
  | v :: rest => hasUniqueKeys v && haveUniqueKeys rest

/-- No mapping in the values of some entries does. -/
def entriesHaveUniqueKeys : List (Value × Value) → Bool
  | [] => true
  | (_, v) :: rest => hasUniqueKeys v && entriesHaveUniqueKeys rest

end

variable {name : String} {v : Value} {entries rest first second : List (Value × Value)}

theorem mem_textKeys : name ∈ textKeys entries ↔ ∃ v, (Value.str name, v) ∈ entries := by
  unfold textKeys
  rw [List.mem_filterMap]
  constructor
  · rintro ⟨⟨key, v⟩, member, same⟩
    cases key <;> cases same
    exact ⟨v, member⟩
  · rintro ⟨v, member⟩
    exact ⟨_, member, rfl⟩

/-- With no text twice among the keys, looking a text up is finding its entry. -/
theorem lookup_iff_mem (unique : (textKeys entries).Nodup) :
    Value.lookup name entries = some v ↔ (Value.str name, v) ∈ entries := by
  induction entries with
  | nil => simp [Value.lookup]
  | cons entry rest ih =>
    obtain ⟨key, w⟩ := entry
    cases key with
    | str other =>
      simp only [textKeys, List.filterMap_cons, List.nodup_cons] at unique
      rw [Value.lookup]
      split
      · rename_i same
        subst same
        have absent : (Value.str other, v) ∉ rest := fun member => unique.1 (mem_textKeys.mpr ⟨v, member⟩)
        simp [absent, eq_comm]
      · rename_i different
        rw [ih unique.2]
        simp [Ne.symm different]
    | _ =>
      rw [Value.lookup, ih unique]
      · simp
      · simp

/-- Every key is a text. -/
def AllTexts (entries : List (Value × Value)) : Prop := ∀ entry ∈ entries, ∃ name, entry.1 = .str name

theorem keys_of_texts (texts : AllTexts entries) : entries.map Prod.fst = (textKeys entries).map .str := by
  induction entries with
  | nil => rfl
  | cons entry rest ih =>
    obtain ⟨⟨name, key⟩, others⟩ := List.forall_mem_cons.mp texts
    simp [textKeys, key, ih others]

/-- Entries with the same values for the same texts are the same but for their order. -/
theorem perm_of_lookup (firstTexts : AllTexts first) (secondTexts : AllTexts second)
    (firstUnique : (textKeys first).Nodup) (secondUnique : (textKeys second).Nodup)
    (same : ∀ name, Value.lookup name first = Value.lookup name second) : first.Perm second := by
  have nodup {entries : List (Value × Value)} (texts : AllTexts entries)
      (unique : (textKeys entries).Nodup) : entries.Nodup := by
    refine List.Nodup.of_map Prod.fst ?_
    rw [keys_of_texts texts]
    exact unique.map fun _ _ same => Value.str.inj same
  have mem {entries others : List (Value × Value)} (texts : AllTexts entries)
      (unique : (textKeys entries).Nodup) (otherUnique : (textKeys others).Nodup)
      (same : ∀ name, Value.lookup name entries = Value.lookup name others)
      (entry : Value × Value) (member : entry ∈ entries) : entry ∈ others := by
    obtain ⟨key, v⟩ := entry
    obtain ⟨name, rfl⟩ := texts _ member
    rw [← lookup_iff_mem otherUnique, ← same, lookup_iff_mem unique]
    exact member
  have once := nodup firstTexts firstUnique
  refine (List.perm_ext_iff_of_nodup once (nodup secondTexts secondUnique)).mpr fun entry => ?_
  exact ⟨mem firstTexts firstUnique secondUnique same entry,
    mem secondTexts secondUnique firstUnique (fun name => (same name).symm) entry⟩

/-! ## Looking up what is in normal form -/

/-- What stands under a name in normal form, if a value stands there. -/
def normalAt (name : String) (v : Value) : Option Value :=
  if name = "kind" then some (.str v.text)
  else if name = "children" then if v.isFalsy then none else some (normalChildren v)
  else unlessNull v

theorem normalEntries_cons (name : String) (v : Value) (rest : List (Value × Value)) :
    normalEntries ((.str name, v) :: rest) =
      ((normalAt name v).map fun w => (Value.str name, w)).toList ++ normalEntries rest := by
  rw [normalEntries]
  unfold normalAt unlessNull
  simp only [Value.isText, decide_eq_true_eq]
  split
  · rfl
  · split
    · split <;> rfl
    · split <;> rfl

theorem textKeys_normal (texts : AllTexts entries) :
    (textKeys (normalEntries entries)).Sublist (textKeys entries) := by
  induction entries with
  | nil => exact .slnil
  | cons entry rest ih =>
    obtain ⟨⟨name, key⟩, others⟩ := List.forall_mem_cons.mp texts
    obtain ⟨_, v⟩ := entry
    cases key
    rw [normalEntries_cons]
    cases normalAt name v with
    | none => exact (ih others).cons name
    | some w => exact (ih others).cons_cons name

theorem texts_normal (texts : AllTexts entries) : AllTexts (normalEntries entries) := by
  induction entries with
  | nil => exact texts
  | cons entry rest ih =>
    obtain ⟨⟨name, key⟩, others⟩ := List.forall_mem_cons.mp texts
    obtain ⟨_, v⟩ := entry
    cases key
    rw [normalEntries_cons]
    cases normalAt name v with
    | none => exact ih others
    | some w => exact List.forall_mem_cons.mpr ⟨⟨name, rfl⟩, ih others⟩

theorem lookup_normal (texts : AllTexts entries) (unique : (textKeys entries).Nodup) :
    Value.lookup name (normalEntries entries) = (Value.lookup name entries).bind (normalAt name) := by
  induction entries with
  | nil => rfl
  | cons entry rest ih =>
    obtain ⟨⟨other, key⟩, others⟩ := List.forall_mem_cons.mp texts
    obtain ⟨_, v⟩ := entry
    cases key
    have apart := List.nodup_cons.mp unique
    rw [normalEntries_cons, Value.lookup]
    split
    · rename_i same
      subst same
      cases normal : normalAt other v with
      | none =>
        refine Eq.trans (lookup_absent fun field member key => apart.1 ?_) normal.symm
        exact (textKeys_normal others).subset (mem_textKeys.mpr ⟨field.2, key ▸ member⟩)
      | some w => simp [Value.lookup, normal]
    · rename_i different
      cases normalAt other v with
      | none => exact ih others apart.2
      | some w => simpa [Value.lookup, different] using ih others apart.2

/-! ## What is written of a node that was read -/

variable {h : Header} {items : List Value}

/-- The children of a node in normal form, left out if there are none. -/
def normalBelow (items : List Value) : List (Value × Value) :=
  if items.isEmpty then [] else [(.str "children", .list (normalItems items))]

theorem unlessNull_getD (found : Option Value) : unlessNull (found.getD .null) = found.bind unlessNull := by
  cases found <;> rfl

theorem lookup_filtered (notKind : name ≠ "kind") (notChildren : name ≠ "children") :
    Value.lookup name (entries.filter fun entry => !isStructural entry.1) = Value.lookup name entries := by
  induction entries with
  | nil => rfl
  | cons entry rest ih =>
    obtain ⟨key, v⟩ := entry
    cases key with
    | str other =>
      by_cases structural : isStructural (.str other) = true
      · have different : other ≠ name := by
          rintro rfl
          simp [isStructural, notKind, notChildren] at structural
        rw [List.filter_cons_of_neg (by simpa using structural), ih, Value.lookup, if_neg different]
      · rw [List.filter_cons_of_pos (by simpa using structural), Value.lookup, Value.lookup, ih]
    | _ => exact ih

theorem detail_of {shape : Shape} (named : shape.field? = some name) (v : Value) :
    (Variant.of shape v).detail = v := by
  cases shape <;> first | rfl | cases named

/-- What a header's details say under a name is what the fields said that it was made of. -/
theorem lookup_details_ofFields {kind : String} {fields : List (Value × Value)} (fits : Fits kind fields)
    (notKind : name ≠ "kind") (notChildren : name ≠ "children") :
    Value.lookup name (ofFields kind fields).details = (Value.lookup name fields).bind unlessNull := by
  obtain ⟨first, last, own⟩ := lookup_details (ofFields kind fields)
  have shape : (ofFields kind fields).shape = Shape.ofKind kind := (sound_ofFields fits).shape
  rw [shape] at own
  by_cases isFirst : name = "begin_line"
  · subst isFirst
    rw [first, ← unlessNull_getD]
    rfl
  by_cases isLast : name = "end_line"
  · subst isLast
    rw [last, ← unlessNull_getD]
    rfl
  by_cases isOwn : (Shape.ofKind kind).field? = some name
  · have detail : (ofFields kind fields).variant.detail = held name fields := by
      simp only [ofFields, isOwn, Option.elim]
      exact detail_of isOwn _
    rw [own name isOwn, detail, ← unlessNull_getD]
    rfl
  · have absent : Value.lookup name fields = none := by
      refine lookup_absent fun field member key => ?_
      obtain ⟨other, same, accepted⟩ := fits.known field member
      cases key.symm.trans same
      simp [accepts, notKind, notChildren, isFirst, isLast, isOwn] at accepted
    rw [absent]
    refine lookup_absent fun entry member key => ?_
    obtain ⟨other, same, _, _, among⟩ := details_named member
    cases key.symm.trans same
    rw [shape] at among
    exact among.elim isFirst (·.elim isLast isOwn)

/-- What a document says of its children in normal form are the values of its children,
if there are any. -/
theorem children_normal (given : childItems (.map entries) = .ok items) :
    (Value.lookup "children" entries).bind (normalAt "children") =
      Value.lookup "children" (normalBelow items) := by
  rw [childItems, Value.getD, Value.get?] at given
  cases found : Value.lookup "children" entries with
  | none =>
    rw [found] at given
    cases given
    rfl
  | some v =>
    rw [found, Option.getD_some] at given
    have kept (items : List Value) :
        (if items.isEmpty then none else some (.list (normalItems items))) =
          Value.lookup "children" (normalBelow items) := by
      cases items <;> rfl
    have dropped (given : (strangeChildren v).map (fun _ => []) = .ok items) :
        (if v.isFalsy then none else some (normalChildren v)) = Value.lookup "children" (normalBelow items) := by
      have falsy : v.isFalsy = true := by
        by_contra truthy
        unfold strangeChildren at given
        rw [if_neg truthy] at given
        split at given <;> cases given
      rw [if_pos falsy, eq_nil_of_strange given]
      rfl
    cases v with
    | list listed | tuple listed =>
      cases given
      exact kept _
    | _ => exact dropped given

/-- What is written of a node that was read says the same under every name as the
normal form of what it was read from. -/
theorem lookup_written {kind : Value} (texts : AllTexts entries) (unique : (textKeys entries).Nodup)
    (found : Value.lookup "kind" entries = some kind)
    (fits : Fits kind.text (entries.filter fun entry => !isStructural entry.1))
    (made : h = ofFields kind.text (entries.filter fun entry => !isStructural entry.1))
    (given : childItems (.map entries) = .ok items) (name : String) :
    Value.lookup name (h.fields ++ normalBelow items) = Value.lookup name (normalEntries entries) := by
  have below (different : name ≠ "children") : Value.lookup name (normalBelow items) = none := by
    unfold normalBelow
    split
    · rfl
    · rw [Value.lookup, if_neg different.symm]
      rfl
  rw [lookup_normal texts unique]
  by_cases isKind : name = "kind"
  · subst isKind made
    rw [found]
    rfl
  have fields : Value.lookup name h.fields = Value.lookup name h.details := by
    rw [Header.fields, Value.lookup, if_neg (Ne.symm isKind)]
  rw [lookup_append, fields]
  by_cases isChildren : name = "children"
  · subst isChildren
    have none : Value.lookup "children" h.details = none := by
      refine lookup_absent fun entry member => ?_
      obtain ⟨name, key, _, notChildren, _⟩ := details_named member
      simp [key, notChildren]
    rw [none, Option.none_or, children_normal given]
  · subst made
    rw [lookup_details_ofFields fits isKind isChildren, lookup_filtered isKind isChildren, below isChildren,
      Option.or_none]
    refine congrArg (Option.bind _) (funext fun v => ?_)
    simp [normalAt, isKind, isChildren]

theorem textKeys_given (name : String) (v : Value) : (textKeys (given name v)).Sublist [name] := by
  unfold given
  split
  · exact List.nil_sublist _
  · exact List.Sublist.refl _

theorem textKeys_append (first second : List (Value × Value)) :
    textKeys (first ++ second) = textKeys first ++ textKeys second := List.filterMap_append

/-- No name is written twice. -/
theorem unique_written (h : Header) (items : List Value) :
    (textKeys (h.fields ++ normalBelow items)).Nodup := by
  have below : (textKeys (normalBelow items)).Sublist ["children"] := by
    unfold normalBelow
    split
    · exact List.nil_sublist _
    · exact List.Sublist.refl _
  have all : (["kind"] ++ (["begin_line"] ++ ["end_line"] ++ h.shape.field?.toList) ++ ["children"]).Nodup := by
    cases h.shape <;> decide
  refine List.Nodup.sublist ?_ all
  rw [textKeys_append, Header.fields, details]
  refine List.Sublist.append ?_ below
  show (["kind"] ++ textKeys (_ ++ _ ++ _)).Sublist _
  rw [textKeys_append, textKeys_append]
  refine (List.Sublist.refl ["kind"]).append
    (((textKeys_given _ _).append (textKeys_given _ _)).append ?_)
  cases h.shape.field? with
  | none => exact List.Sublist.refl _
  | some name => exact textKeys_given name _

theorem texts_written (h : Header) (items : List Value) : AllTexts (h.fields ++ normalBelow items) := by
  intro entry member
  rcases List.mem_append.mp member with field | child
  · rcases List.mem_cons.mp field with rfl | detail
    · exact ⟨"kind", rfl⟩
    · obtain ⟨name, key, _⟩ := details_named detail
      exact ⟨name, key⟩
  · unfold normalBelow at child
    split at child
    · exact absurd child List.not_mem_nil
    · exact ⟨"children", by rw [List.mem_singleton.mp child]⟩

/-- A mapping that describes a node has texts for keys only. -/
theorem texts_of_fits {kind : String} (fits : Fits kind (entries.filter fun entry => !isStructural entry.1)) :
    AllTexts entries := by
  intro entry member
  by_cases structural : isStructural entry.1 = true
  · unfold isStructural at structural
    split at structural
    · rename_i name key
      exact ⟨name, key⟩
    · cases structural
  · obtain ⟨name, key, _⟩ := fits.known entry (List.mem_filter.mpr ⟨member, by simpa using structural⟩)
    exact ⟨name, key⟩

/-! ## Trees -/

theorem unique_of_lookup (unique : entriesHaveUniqueKeys entries = true)
    (found : Value.lookup name entries = some v) : hasUniqueKeys v = true := by
  induction entries with
  | nil => cases found
  | cons entry rest ih =>
    obtain ⟨key, w⟩ := entry
    simp only [entriesHaveUniqueKeys, Bool.and_eq_true] at unique
    cases key with
    | str other =>
      rw [Value.lookup] at found
      split at found
      · cases found
        exact unique.1
      · exact ih unique.2 found
    | _ => exact ih unique.2 found

/-- The values of the children of a document with unique keys have unique keys. -/
theorem unique_items (unique : entriesHaveUniqueKeys entries = true)
    (given : childItems (.map entries) = .ok items) : haveUniqueKeys items = true := by
  rw [childItems, Value.getD, Value.get?] at given
  cases found : Value.lookup "children" entries with
  | none =>
    rw [found] at given
    cases given
    rfl
  | some v =>
    rw [found, Option.getD_some] at given
    have inner := unique_of_lookup unique found
    cases v with
    | list listed | tuple listed =>
      cases given
      exact inner
    | _ =>
      rw [eq_nil_of_strange given]
      rfl

mutual

/-- What is written of a tree that was read is the normal form of what it was read from. -/
theorem toValue_same (n : Node) {v : Value} (unique : hasUniqueKeys v = true)
    (made : Node.ofValue v = .ok n) : Same n.toValue (normal v) := by
  cases n with
  | mk h below =>
    obtain ⟨here, items, given, each⟩ := ofValue_ok_iff.mp made
    obtain ⟨entries, kind, rfl, found, fits, header⟩ := header_ok_iff.mp here
    simp only [hasUniqueKeys, Bool.and_eq_true, decide_eq_true_eq] at unique
    have texts := texts_of_fits fits
    have children := toValues_same below (unique_items unique.2 given) each
    have keys : (h.fields ++ writtenBelow below).map Prod.fst =
        (h.fields ++ normalBelow items).map Prod.fst := by
      rw [List.map_append, List.map_append]
      cases each <;> rfl
    have values : List.Forall₂ Same ((h.fields ++ writtenBelow below).map Prod.snd)
        ((h.fields ++ normalBelow items).map Prod.snd) := by
      rw [List.map_append, List.map_append]
      refine List.rel_append (List.forall₂_same.mpr fun v _ => .refl v) ?_
      cases each with
      | nil => exact .nil
      | cons => exact .cons (.list children) .nil
    rw [toValue_node, normal]
    refine .map keys values (perm_of_lookup (texts_written h items) (texts_normal texts) (unique_written h items)
      (unique.1.sublist (textKeys_normal texts)) (lookup_written texts unique.1 found fits header given))

theorem toValues_same (nodes : List Node) {items : List Value} (unique : haveUniqueKeys items = true)
    (each : List.Forall₂ (fun item c => Node.ofValue item = .ok c) items nodes) :
    List.Forall₂ Same (toValues nodes) (normalItems items) := by
  cases each with
  | nil => exact .nil
  | cons made others =>
    simp only [haveUniqueKeys, Bool.and_eq_true] at unique
    exact .cons (toValue_same _ unique.1 made) (toValues_same _ unique.2 others)

end

end MethodLint.NormalDocuments
