import MethodLint.Proofs.Findings
import MethodLint.Proofs.NormalDocuments

/-! The nodes of a document. The values that describe the nodes of a tree stand in its
document in the pre-order of the tree: a mapping for a node, and behind it those of the
children that it lists. The kind of a node and what its own field holds are what its mapping
says, so nodes can be counted and flags be looked up in the document itself. -/
namespace MethodLint.DocumentNodes
open Node Header Walks Outcomes Findings Documents NormalDocuments

/-! ## Values that describe nodes -/

/-- The values that a value lists as those of the children. -/
def listed (v : Value) : List Value :=
  match v.getD "children" with
  | .list items | .tuple items => items
  | _ => []

/-- The kind of the node that a value describes. -/
def kindIn (v : Value) : String := (v.getD "kind").text

mutual

/-- A value that describes a tree, and those that describe the nodes below its root, in
pre-order. -/
def nodesIn : Value → List Value
  | .map entries => .map entries :: nodesUnder entries
  | v => [v]

/-- The values of the nodes below a mapping with these entries. -/
def nodesUnder : List (Value × Value) → List Value
  | [] => []
  | (.str name, v) :: rest => if name = "children" then nodesOffered v else nodesUnder rest
  | _ :: rest => nodesUnder rest

/-- The values of the nodes of which the value of children tells. -/
def nodesOffered : Value → List Value
  | .list items | .tuple items => nodesAmong items
  | _ => []

/-- Some values that describe trees, each followed by those below it. -/
def nodesAmong : List Value → List Value
  | [] => []
  | v :: rest => nodesIn v ++ nodesAmong rest

end

variable {v : Value} {n : Node} {h : Header} {items : List Value}

theorem nodesUnder_lookup (entries : List (Value × Value)) :
    nodesUnder entries = nodesOffered ((Value.lookup "children" entries).getD .null) := by
  induction entries with
  | nil => rfl
  | cons entry rest ih =>
    obtain ⟨key, v⟩ := entry
    cases key with
    | str name =>
      rw [nodesUnder, Value.lookup]
      split
      · rfl
      · exact ih
    | _ => exact ih

/-- A value stands before those of its children. -/
theorem nodesIn_listed (v : Value) : nodesIn v = v :: nodesAmong (listed v) := by
  cases v with
  | map entries =>
    rw [nodesIn, nodesUnder_lookup, listed, Value.getD, Value.get?]
    cases (Value.lookup "children" entries).getD .null <;> rfl
  | _ => rfl

theorem listed_childItems (given : childItems v = .ok items) : items = listed v := by
  unfold childItems at given
  unfold listed
  generalize v.getD "children" = raw at given ⊢
  cases raw with
  | list inner | tuple inner =>
    cases given
    rfl
  | _ => exact eq_nil_of_strange given

/-! ## What a value says of its node -/

theorem header_kind (made : Header.ofValue v = .ok h) : h.kind = kindIn v := by
  obtain ⟨entries, kind, rfl, found, _, rfl⟩ := header_ok_iff.mp made
  rw [kindIn, Value.getD, Value.get?, found]
  rfl

/-- The field of a node holds what the value has at its name. -/
theorem header_variant {name : String} (made : Header.ofValue v = .ok h)
    (field : (Shape.ofKind h.kind).field? = some name) :
    h.variant = .of (Shape.ofKind h.kind) (v.getD name) := by
  obtain ⟨entries, kind, rfl, _, _, rfl⟩ := header_ok_iff.mp made
  obtain ⟨notKind, notChildren, _⟩ := field_distinct field
  have own : (Shape.ofKind kind.text).field? = some name := field
  simp only [ofFields, own, Option.elim_some, held, lookup_filtered notKind notChildren]
  rfl

mutual

/-- The values of a document describe the nodes of its tree one by one, in pre-order. -/
theorem nodesIn_describe (n : Node) {v : Value} (made : Node.ofValue v = .ok n) :
    List.Forall₂ (fun item d => Node.ofValue item = .ok d) (nodesIn v) (n :: preorderAll n.children) := by
  cases n with
  | mk h below =>
    obtain ⟨_, items, given, each⟩ := ofValue_ok_iff.mp made
    rw [nodesIn_listed, ← listed_childItems given]
    exact .cons made (nodesAmong_describe below each)

theorem nodesAmong_describe (nodes : List Node) {items : List Value}
    (each : List.Forall₂ (fun item d => Node.ofValue item = .ok d) items nodes) :
    List.Forall₂ (fun item d => Node.ofValue item = .ok d) (nodesAmong items) (preorderAll nodes) := by
  cases each with
  | nil => exact .nil
  | cons made others =>
    rw [nodesAmong, preorderAll, preorder_eq, ← List.cons_append]
    exact List.rel_append (nodesIn_describe _ made) (nodesAmong_describe _ others)

end

/-- What is listed in a value describes the children of its node, in their order. -/
theorem listed_describe (made : Node.ofValue v = .ok n) :
    List.Forall₂ (fun item d => Node.ofValue item = .ok d) (listed v) n.children := by
  obtain ⟨h, below⟩ := n
  obtain ⟨_, items, given, each⟩ := ofValue_ok_iff.mp made
  rw [← listed_childItems given]
  exact each

/-! ## Methods in a document -/

/-- A value that describes a method declaration. -/
def describesMethod (v : Value) : Bool := kindIn v = Kind.methodDeclaration

/-- The number of method declarations that a document describes, its root included. -/
def methodCount (v : Value) : Nat := (nodesIn v).countP describesMethod

theorem kind_described (made : Node.ofValue v = .ok n) : n.kind = kindIn v := header_kind (ofValue_parts made).1

theorem methods_described (made : Node.ofValue v = .ok n) :
    List.Forall₂ (fun item d => Node.ofValue item = .ok d) ((nodesIn v).filter describesMethod) (methods n) := by
  rw [methods, descendants_preorder]
  refine List.rel_filter (fun item d described => ?_) (nodesIn_describe n made)
  simp [describesMethod, kind_described described]

theorem methodCount_eq (made : Node.ofValue v = .ok n) : methodCount v = (methods n).length := by
  rw [methodCount, List.countP_eq_length_filter, (methods_described made).length_eq]

end MethodLint.DocumentNodes
