import Mathlib.Data.List.Fold
import MethodLint.Proofs.AncestorWalks
import MethodLint.Proofs.Findings

/-! How deeply control constructs are nested below a node. The metrics follow links
upwards from every construct to the node and count what they pass; a recursion down the
tree, which only looks at what is below the node, comes to the same, and so it makes no
difference what stands above the node or beside it. -/
namespace MethodLint.NestingDepth
open Node Walks Outcomes Flags Findings LinkedTrees LinkedWalks Forests AncestorWalks

/-! ## Well-formed trees -/

/-- A well-formed tree in a store. Whoever holds the root keeps all of it alive, every
link leads from a child to its owner, and no node is in it twice. -/
structure WellFormed (s : Store) (root : Nat) : Prop where
  tree : Holds s (s.tree root) root
  living : Living s root
  once : (root :: s.descendants root).Nodup

variable {s : Store} {root m : Nat}

/-- Wherever nodes are attached once and never below themselves, every living node has a
well-formed tree. -/
theorem wellFormed_forest (forest : Forest s) (inside : root < s.cells.size) (living : Living s root) :
    WellFormed s root := by
  obtain ⟨n, held⟩ := forest.tree root inside
  constructor
  · rw [tree_holds held]
    exact held
  · exact living
  · refine List.nodup_cons.mpr ⟨?_, visits_nodup forest (descendants_visits forest inside) (children_apart forest root)⟩
    intro again
    exact not_below_self forest ((mem_descendants forest inside).mp again)

/-- A tree that is put into an empty store and held there is well-formed, if no address comes
twice in it. -/
theorem wellFormed_inserted {n : Node} {name : String}
    (once : (0 :: ((Store.empty.insert n).2.hold name 0).descendants 0).Nodup) :
    WellFormed ((Store.empty.insert n).2.hold name 0) 0 ∧ ((Store.empty.insert n).2.hold name 0).tree 0 = n := by
  have inserted : Holds (Store.empty.insert n).2 n 0 :=
    (insert_holds n .empty).2.2 _ ⟨Nat.le_refl _, rfl, rfl, fun _ _ _ => rfl⟩
  have held := holds_hold inserted name 0
  have tree := tree_holds held
  refine ⟨⟨?_, living_hold (holds_inside inserted) name, once⟩, tree⟩
  rw [tree]
  exact held

/-- What is at an address of a well-formed tree is a living tree as well. -/
theorem wellFormed_below (tree : WellFormed s root) (member : m ∈ root :: s.descendants root) :
    Holds s (s.tree m) m ∧ Living s m := by
  obtain ⟨n, _, held, living⟩ := item_of_mem (nodes_hold tree.tree tree.living) member
  rw [tree_holds held]
  exact ⟨held, living⟩

/-! ## Constructs below a node -/

/-- The kinds of the control constructs that count for nesting. -/
def constructKinds : List String := ["For", "If", "While", "Try", "Switch"]

/-- A control construct. -/
def isConstruct (n : Node) : Bool := constructKinds.contains n.kind

/-- A way down from a node with these children, through the nodes of a path, to a node
below. -/
inductive Way : (cs path : List Node) → Node → Prop
  | child (member : d ∈ cs) : Way cs [] d
  | further (member : c ∈ cs) (way : Way c.children path d) : Way cs (c :: path) d

/-- Below a node with these children there is a control construct with so many others
strictly between the two. -/
def Encloses (cs : List Node) (count : Nat) : Prop :=
  ∃ path d, Way cs path d ∧ isConstruct d = true ∧ path.countP isConstruct = count

mutual

/-- The greatest number of constructs that enclose a construct of a tree, when `outer` of
them enclose the whole tree. It is 0 if there is none. -/
def depthIn : Node → (outer : Nat) → Nat
  | .mk h below, outer =>
    if isConstruct (.mk h below) then max outer (depthAmong below (outer + 1)) else depthAmong below outer

/-- The same for some trees. -/
def depthAmong : List Node → (outer : Nat) → Nat
  | [], _ => 0
  | n :: rest, outer => max (depthIn n outer) (depthAmong rest outer)

end

theorem isConstruct_eq (n : Node) : isConstruct n = n.header.opensLevel := by
  have listed : constructKinds =
      [Kind.forLoop, Kind.ifStatement, Kind.whileLoop, Kind.tryBlock, Kind.switch] := rfl
  rw [Bool.eq_iff_iff]
  simp [isConstruct, listed, Header.opensLevel, Kind.opensLevel, Node.kind, or_assoc]

theorem encloses_nil (count : Nat) : ¬ Encloses [] count := by
  rintro ⟨path, d, way, _, _⟩
  cases way with
  | child member => exact List.not_mem_nil member
  | further member _ => exact List.not_mem_nil member

/-- A construct below is the first child, or is below the first child, or has to do with
the other children only. -/
theorem encloses_cons (n : Node) (rest : List Node) (count : Nat) : Encloses (n :: rest) count ↔
    ((isConstruct n = true ∧ count = 0) ∨
      ∃ inner, Encloses n.children inner ∧ count = inner + if isConstruct n then 1 else 0) ∨
    Encloses rest count := by
  constructor
  · rintro ⟨path, d, way, construct, rfl⟩
    cases way with
    | child member =>
      rcases List.mem_cons.mp member with rfl | later
      · exact .inl (.inl ⟨construct, rfl⟩)
      · exact .inr ⟨[], d, .child later, construct, rfl⟩
    | @further _ c path _ member way =>
      rcases List.mem_cons.mp member with rfl | later
      · exact .inl (.inr ⟨_, ⟨path, d, way, construct, rfl⟩, List.countP_cons⟩)
      · exact .inr ⟨c :: path, d, .further later way, construct, rfl⟩
  · rintro ((⟨construct, rfl⟩ | ⟨inner, ⟨path, d, way, construct, rfl⟩, rfl⟩) | ⟨path, d, way, construct, rfl⟩)
    · exact ⟨[], n, .child List.mem_cons_self, construct, rfl⟩
    · exact ⟨n :: path, d, .further List.mem_cons_self way, construct, List.countP_cons⟩
    · refine ⟨path, d, ?_, construct, rfl⟩
      cases way with
      | child member => exact .child (List.mem_cons_of_mem _ member)
      | further member way => exact .further (List.mem_cons_of_mem _ member) way

/-- The levels that a recursion down the tree notes are the numbers of constructs between. -/
theorem mem_levelsAll (nodes : List Node) (outer level : Nat) :
    level ∈ levelsAll nodes outer ↔ ∃ count, Encloses nodes count ∧ level = outer + count := by
  match nodes with
  | [] => simp [levelsAll, encloses_nil]
  | .mk h below :: rest =>
    have opens : isConstruct (.mk h below) = h.opensLevel := isConstruct_eq _
    have later := mem_levelsAll rest outer level
    simp only [levelsAll, List.mem_append, later, encloses_cons, opens, children_mk, levels]
    by_cases construct : h.opensLevel = true
    · have inner := mem_levelsAll below (outer + 1) level
      simp only [construct, if_true, List.mem_cons, inner, true_and]
      constructor
      · rintro ((rfl | ⟨count, below, rfl⟩) | ⟨count, beside, rfl⟩)
        · exact ⟨0, .inl (.inl rfl), rfl⟩
        · exact ⟨count + 1, .inl (.inr ⟨count, below, rfl⟩), by omega⟩
        · exact ⟨count, .inr beside, rfl⟩
      · rintro ⟨_, (rfl | ⟨count, below, rfl⟩) | beside, rfl⟩
        · exact .inl (.inl rfl)
        · exact .inl (.inr ⟨count, below, by omega⟩)
        · exact .inr ⟨_, beside, rfl⟩
    · have inner := mem_levelsAll below outer level
      simp only [construct, if_false, Bool.false_eq_true, inner, false_and, false_or, Nat.add_zero]
      constructor
      · rintro (⟨count, below, rfl⟩ | ⟨count, beside, rfl⟩)
        · exact ⟨count, .inl ⟨count, below, rfl⟩, rfl⟩
        · exact ⟨count, .inr beside, rfl⟩
      · rintro ⟨_, ⟨count, below, rfl⟩ | beside, rfl⟩
        · exact .inl ⟨_, below, rfl⟩
        · exact .inr ⟨_, beside, rfl⟩

/-! ## The greatest level -/

theorem deepest_cons (level : Nat) (rest : List Nat) :
    Method.deepest (level :: rest) = max level (Method.deepest rest) := by
  simp only [Method.deepest, List.foldl_eq_foldr, List.foldr_cons]

theorem deepest_append (first second : List Nat) :
    Method.deepest (first ++ second) = max (Method.deepest first) (Method.deepest second) := by
  induction first with
  | nil => exact (Nat.zero_max _).symm
  | cons level rest ih => rw [List.cons_append, deepest_cons, ih, deepest_cons, max_assoc]

theorem le_deepest {level : Nat} {levels : List Nat} (member : level ∈ levels) :
    level ≤ Method.deepest levels := by
  induction levels with
  | nil => exact absurd member List.not_mem_nil
  | cons first rest ih =>
    rw [deepest_cons]
    rcases List.mem_cons.mp member with rfl | later
    · exact Nat.le_max_left _ _
    · exact Nat.le_trans (ih later) (Nat.le_max_right _ _)

/-- The greatest level is one of them, unless there is none. -/
theorem deepest_mem {levels : List Nat} (some : levels ≠ []) : Method.deepest levels ∈ levels := by
  induction levels with
  | nil => exact absurd rfl some
  | cons first rest ih =>
    rw [deepest_cons]
    by_cases alone : rest = []
    · subst alone
      exact List.mem_cons.mpr (.inl (Nat.max_zero first))
    · rcases Nat.le_total first (Method.deepest rest) with less | greater
      · rw [Nat.max_eq_right less]
        exact List.mem_cons_of_mem _ (ih alone)
      · rw [Nat.max_eq_left greater]
        exact List.mem_cons_self

/-- The greatest level is beyond a threshold if some level is; a threshold below zero
would be passed by the greatest of no levels. -/
theorem any_deepest {n : Int} (natural : 0 ≤ n) (levels : List Nat) :
    (levels.any fun level => decide (n < (level : Int))) = decide (n < (Method.deepest levels : Nat)) := by
  rw [Bool.eq_iff_iff, List.any_eq_true, decide_eq_true_iff]
  simp only [decide_eq_true_iff]
  constructor
  · rintro ⟨level, member, beyond⟩
    have bound := le_deepest member
    omega
  · intro beyond
    refine ⟨_, deepest_mem ?_, beyond⟩
    rintro rfl
    exact absurd beyond (Int.not_lt.mpr natural)

theorem depthAmong_eq (nodes : List Node) (outer : Nat) :
    depthAmong nodes outer = Method.deepest (levelsAll nodes outer) := by
  match nodes with
  | [] => rfl
  | .mk h below :: rest =>
    have opens : isConstruct (.mk h below) = h.opensLevel := isConstruct_eq _
    rw [depthAmong, levelsAll, deepest_append, depthAmong_eq rest, depthIn, opens, levels]
    split
    · rw [deepest_cons, depthAmong_eq below]
    · rw [depthAmong_eq below]

/-! ## What upward walks come to -/

/-- Nesting below an address is what a recursion down the tree there says. -/
structure ReadDownwards (s : Store) (m : Nat) : Prop where
  /-- The depth is the value of the recursion below the node. -/
  depth : Method.deepest (s.declared m).levels = depthAmong (s.tree m).children 0
  /-- It is the greatest number of constructs between the node and a construct below it. -/
  bound : ∀ count, Encloses (s.tree m).children count → count ≤ Method.deepest (s.declared m).levels
  attained : (∃ count, Encloses (s.tree m).children count) →
    Encloses (s.tree m).children (Method.deepest (s.declared m).levels)
  empty : (¬ ∃ count, Encloses (s.tree m).children count) → Method.deepest (s.declared m).levels = 0
  /-- A threshold is exceeded if it is so at some construct. -/
  exceeds : ∀ t : Int, ∃ answer, Method.anyExceeds (.int t) (s.declared m).levels = .ok answer ∧
    (answer = true ↔ ∃ count, Encloses (s.tree m).children count ∧ t < count) ∧
    (0 ≤ t → answer = decide (t < Method.deepest (s.declared m).levels)) ∧
    (t < 0 → (answer = true ↔ ∃ count, Encloses (s.tree m).children count))
  /-- The method that the tree there declares by itself has the same constructs at the same levels. -/
  method : ∀ method, Method.ofNode (s.tree m) = .ok method → method.nestingLevels = (s.declared m).levels
  /-- Whatever stands around the same tree elsewhere, both results are the same. -/
  alone : ∀ u root b, WellFormed u root → b ∈ root :: u.descendants root → u.tree b = s.tree m →
    Method.deepest (u.declared b).levels = Method.deepest (s.declared m).levels ∧
    ∀ t, Method.anyExceeds t (u.declared b).levels = Method.anyExceeds t (s.declared m).levels

/-- Upward walks give the levels that a recursion below the node notes. -/
theorem declared_below (tree : WellFormed s root) (member : m ∈ root :: s.descendants root) :
    (s.declared m).levels = levelsAll (s.tree m).children 0 := by
  obtain ⟨held, living⟩ := wellFormed_below tree member
  rw [declared_holds held living, declared_levels]

/-- Nesting is read off what is below a node, whatever it is that the levels came from. -/
theorem readDownwards_levels (levels : (s.declared m).levels = levelsAll (s.tree m).children 0) :
    ReadDownwards s m := by
  have among (level : Nat) : level ∈ (s.declared m).levels ↔ Encloses (s.tree m).children level := by
    simp [levels, mem_levelsAll]
  have inhabited : (∃ count, Encloses (s.tree m).children count) ↔ (s.declared m).levels ≠ [] := by
    simp only [← among, ne_eq, List.eq_nil_iff_forall_not_mem, not_forall, not_not]
  constructor
  · rw [levels, depthAmong_eq]
  · intro count encloses
    exact le_deepest ((among count).mpr encloses)
  · intro encloses
    exact (among _).mp (deepest_mem (inhabited.mp encloses))
  · intro empty
    rw [not_ne_iff.mp (mt inhabited.mpr empty)]
    rfl
  · intro t
    have some : ((s.declared m).levels.any fun level => decide (t < (level : Int))) = true ↔
        ∃ count, Encloses (s.tree m).children count ∧ t < (count : Int) := by
      simp only [List.any_eq_true, decide_eq_true_iff, among]
    refine ⟨_, anyExceeds_int t _, some, fun natural => any_deepest natural _, ?_⟩
    intro negative
    rw [some]
    constructor
    · rintro ⟨count, encloses, _⟩
      exact ⟨count, encloses⟩
    · rintro ⟨count, encloses⟩
      exact ⟨count, encloses, by omega⟩
  · intro method made
    obtain ⟨_, _, _, _, children⟩ := ofNode_ok made
    rw [nesting_levels, children, levels]
  · intro u other b tree member same
    rw [declared_below tree member, same, levels]
    exact ⟨rfl, fun _ => rfl⟩

/-- Counting upwards from every construct comes to what a recursion down the tree comes
to, for every node of a well-formed tree and so for every method in it. -/
theorem nesting_read_downwards (tree : WellFormed s root) (member : m ∈ root :: s.descendants root) :
    ReadDownwards s m :=
  readDownwards_levels (declared_below tree member)

/-- A loop around a method. In the method is a branch with another loop in it, which is the
body of a `Do`, and beside that a method of its own, where a `Try` is inside a `Catch`. -/
def nestedLoop : Node :=
  let plain (kind : String) (below : List Node) : Node := .mk (.plain kind .null .null) below
  let method (name : String) (below : List Node) : Node :=
    .mk ⟨Kind.methodDeclaration, .null, .null, .methodDeclaration (.str name)⟩ below
  plain "For" [method "outer" [plain "If" [plain "Do" [plain "While" [plain "Expr" []]],
    method "inner" [plain "Catch" [plain "Try" [plain "Switch" []]]]]]]

/-- The store that holds the loop and nothing else. -/
def loopStore : Store := (Store.empty.insert nestedLoop).2.hold "loop" 0

theorem loopStore_wellFormed : WellFormed loopStore 0 := (wellFormed_inserted (by decide +kernel)).1

/-- The outer method stands at address 1. Two constructs of it are inside the branch at
level 1, and the one inside the `Try` is at level 2; the loop around it does not count. -/
theorem loop_around_method : WellFormed loopStore 0 ∧ 1 ∈ 0 :: loopStore.descendants 0 ∧
    ReadDownwards loopStore 1 ∧ (loopStore.declared 1).levels = [0, 1, 1, 2] := by
  have inside : 1 ∈ 0 :: loopStore.descendants 0 := by decide +kernel
  exact ⟨loopStore_wellFormed, inside, nesting_read_downwards loopStore_wellFormed inside, by decide +kernel⟩

end MethodLint.NestingDepth
