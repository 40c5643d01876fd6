import MethodLint.Proofs.LinkedWalks
import MethodLint.Proofs.NormalDocuments

/-! Writing a tree down and reading it back. A tree of nodes that have the shapes of
their kinds comes back as it was, its links included, and a document comes back in
normal form; so a document that was written once is written the same way again. -/
namespace MethodLint.RoundTrips
open Node Walks Outcomes Documents NormalDocuments LinkedTrees LinkedWalks

/-- Every node at and below an address is the parent of its children. -/
def Linked (s : Store) (a : Nat) : Prop :=
  ∀ p ∈ a :: s.descendants a, ∀ c ∈ (s.cell p).children, s.parent? c = some p

/-- What is written of the tree that is read from a document. -/
def rewritten (s : Store) (d : Value) : Except Fault Value := do
  let (root, t) ← s.read d
  return (t.tree root).toValue

variable {s t : Store} {n : Node} {d w : Value} {a root : Nat}

/-- What a store reads at all describes a tree, and this tree is then at the address that
it gives. -/
theorem read_holds (ran : s.read d = .ok (root, t)) :
    ∃ n, Node.ofValue d = .ok n ∧ Extends s t ∧ Holds t n root := by
  cases made : Node.ofValue d with
  | error e =>
    rw [read_error s made] at ran
    cases ran
  | ok n =>
    obtain ⟨u, read, extended, held⟩ := read_ok s made
    cases read.symm.trans ran
    exact ⟨n, rfl, extended, held⟩

theorem rewritten_ok_iff : rewritten s d = .ok w ↔ ∃ n, Node.ofValue d = .ok n ∧ w = n.toValue := by
  unfold rewritten
  rw [bind_ok_iff]
  constructor
  · rintro ⟨⟨root, t⟩, ran, written⟩
    obtain ⟨n, made, _, held⟩ := read_holds ran
    cases written
    exact ⟨n, made, by rw [tree_holds held]⟩
  · rintro ⟨n, made, rfl⟩
    obtain ⟨t, ran, _, held⟩ := read_ok s made
    exact ⟨(_, t), ran, congrArg (fun tree : Node => Except.ok tree.toValue) (tree_holds held)⟩

/-- A tree of nodes that have the shapes of their kinds is read back as it was from what is
written of it, and while it is held every node in it is the parent of its children; what is
written of a tree that was read is the normal form of the document it was read from, and is
written the same way again. -/
theorem documents_round_trip :
    (∀ (s : Store) (n : Node), Everywhere Sound [n] →
      ∃ root t, s.read n.toValue = .ok (root, t) ∧ t.tree root = n ∧
        ∀ name, Linked (t.hold name root) root) ∧
    (∀ (s : Store) (d w : Value), hasUniqueKeys d = true → rewritten s d = .ok w → Same w (normal d)) ∧
    ∀ (s t : Store) (d w : Value), rewritten s d = .ok w → rewritten t w = .ok w := by
  refine ⟨fun s n sound => ?_, fun s d w unique written => ?_, fun s t d w written => ?_⟩
  · obtain ⟨t, ran, _, held⟩ := read_ok s (ofValue_toValue n sound)
    refine ⟨s.cells.size, t, ran, tree_holds held, fun name => ?_⟩
    exact parent_holds (holds_hold held name _) (living_hold (holds_inside held) name)
  · obtain ⟨n, made, rfl⟩ := rewritten_ok_iff.mp written
    exact toValue_same n unique made
  · obtain ⟨n, made, rfl⟩ := rewritten_ok_iff.mp written
    exact rewritten_ok_iff.mpr ⟨n, ofValue_toValue n (ofValue_sound n made), rfl⟩

/-- A method with a condition is read back, and a document that gives a null for a name and
for a kind, and an empty text for children, is written without the name and the children. -/
theorem method_round_trips :
    let n : Node := .mk ⟨"MethodDeclaration", .int 1, .int 4, .methodDeclaration (.str "f")⟩
      [.mk ⟨"If", .int 2, .null, .plain⟩ []]
    let inner : Value := .map [(.str "kind", .null), (.str "children", .str "")]
    let d : Value := .map [(.str "children", .tuple [inner]), (.str "name", .null),
      (.str "kind", .str "MethodDeclaration")]
    let w : Value := .map [(.str "kind", .str "MethodDeclaration"),
      (.str "children", .list [.map [(.str "kind", .str "None")]])]
    Everywhere Sound [n] ∧
      (∃ root t, Store.empty.read n.toValue = .ok (root, t) ∧ t.tree root = n ∧
        ∀ name, Linked (t.hold name root) root) ∧
      hasUniqueKeys d = true ∧ rewritten Store.empty d = .ok w ∧ Same w (normal d) ∧
      rewritten Store.empty w = .ok w := by
  intro n inner d w
  have sound : Everywhere Sound [n] :=
    everywhere_node ⟨rfl, .inr ⟨1, rfl⟩, .inr ⟨4, rfl⟩⟩
      (everywhere_node ⟨rfl, .inr ⟨2, rfl⟩, .inl rfl⟩ everywhere_nil)
  have unique : hasUniqueKeys d = true := by decide
  have written : rewritten Store.empty d = .ok w := rewritten_ok_iff.mpr ⟨_, rfl, rfl⟩
  obtain ⟨back, normalized, again⟩ := documents_round_trip
  exact ⟨sound, back _ n sound, unique, written, normalized _ d w unique written, again _ _ d w written⟩

end MethodLint.RoundTrips
