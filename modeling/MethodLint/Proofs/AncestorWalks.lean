import Mathlib.Logic.Relation
import MethodLint.Proofs.Forests

/-! Walks in a forest whose nodes are all alive. A walk down from a node keeps a work
list of nodes to visit, a walk up follows links until there is none or the node to stop
at is next; both come to an end, and they agree on who is above whom. -/
namespace MethodLint.AncestorWalks
open Relation Outcomes LinkedTrees LinkedWalks Forests

/-- Every node of a store is alive. -/
def Kept (s : Store) : Prop := ∀ a < s.cells.size, Living s a

/-- A walk down that has these nodes on its work list visits those nodes, in order. A
node that is visited is replaced by its children. -/
inductive Visits (s : Store) : (work visited : List Nat) → Prop
  | done : Visits s [] []
  | visit (later : Visits s ((s.cell a).children ++ work) visited) : Visits s (a :: work) (a :: visited)

/-- A walk up from a node, ending before `stop`, passes these nodes. -/
inductive Rises (s : Store) (stop : Option Nat) : (start : Nat) → (passed : List Nat) → Prop
  | top (rootless : s.parent? x = none) : Rises s stop x []
  | stopped (link : s.parent? x = some p) (here : stop = some p) : Rises s stop x []
  | up (link : s.parent? x = some p) (other : stop ≠ some p) (above : Rises s stop p passed) :
      Rises s stop x (p :: passed)

/-- The nodes strictly between a node and one above it, nearest first: from each to the
next leads a link. -/
def Between (s : Store) (a x : Nat) (path : List Nat) : Prop :=
  (x :: path ++ [a]).IsChain fun c p => s.parent? c = some p

/-- Links and children say the same, and so do the two walks. -/
structure Agree (s : Store) : Prop where
  linked : ∀ p c, c ∈ (s.cell p).children ↔ s.parent? c = some p
  down : ∀ a < s.cells.size, ∀ visited, Visits s (s.cell a).children visited ↔ visited = s.descendants a
  up : ∀ x < s.cells.size, ∀ stop passed, Rises s stop x passed ↔ passed = s.ancestors x stop
  dual : ∀ a < s.cells.size, ∀ x < s.cells.size, x ∈ s.descendants a ↔ a ∈ s.ancestors x none
  downOnce : ∀ a < s.cells.size, (s.descendants a).Nodup
  upOnce : ∀ x < s.cells.size, (s.ancestors x none).Nodup
  between : ∀ a < s.cells.size, ∀ x ∈ s.descendants a, ∀ path, Between s a x path ↔ path = s.ancestors x (some a)

variable {s : Store} {n : Node} {a b c p x : Nat} {stop : Option Nat} {work visited path : List Nat}

/-! ## Heights -/

/-- The number of nodes on the longest way down from an address. -/
def rank (s : Store) (a : Nat) : Nat := height (s.tree a)

theorem height_child {nodes : List Node} (member : n ∈ nodes) : height n ≤ heightAll nodes := by
  induction nodes with
  | nil => exact absurd member List.not_mem_nil
  | cons m rest ih =>
    rw [heightAll]
    rcases List.mem_cons.mp member with rfl | later
    · exact Nat.le_max_left _ _
    · exact Nat.le_trans (ih later) (Nat.le_max_right _ _)

theorem rank_lt (forest : Forest s) (owns : Owns s p c) : rank s c < rank s p := by
  obtain ⟨⟨h, cs⟩, held⟩ := forest.tree p (owner_inside owns)
  have parts := held
  obtain ⟨_, _, below⟩ := parts
  obtain ⟨m, listed, inner⟩ := child_holds below owns
  have smaller := height_child listed
  rw [rank, rank, tree_holds held, tree_holds inner, height]
  omega

theorem rank_lt_below (forest : Forest s) (below : Below s a x) : rank s x < rank s a := by
  induction below with
  | single owns => exact rank_lt forest owns
  | tail _ owns ih => exact Nat.lt_trans (rank_lt forest owns) ih

/-- No node is below itself. -/
theorem not_below_self (forest : Forest s) : ¬ Below s a a := fun below =>
  Nat.lt_irrefl _ (rank_lt_below forest below)

theorem rank_le (forest : Forest s) (inside : a < s.cells.size) : rank s a ≤ s.cells.size := by
  obtain ⟨n, held⟩ := forest.tree a inside
  rw [rank, tree_holds held]
  exact height_le held

/-! ## Links -/

/-- Where all nodes are alive, links lead to the owners. -/
theorem parent_iff (forest : Forest s) (kept : Kept s) : s.parent? c = some p ↔ Owns s p c := by
  rw [owns_iff forest]
  refine ⟨fun parent => ?_, fun link => ?_⟩
  · exact (Option.filter_eq_some_iff.mp parent).1
  · have owns := forest.owned p c link
    exact parentAmong_living link (kept p (owner_inside owns))

theorem owner_unique (forest : Forest s) (first : Owns s p c) (second : Owns s b c) : p = b := by
  have link := (owns_iff forest).mp first
  rw [(owns_iff forest).mp second] at link
  exact (Option.some.inj link).symm

/-- What is above a node is its owner, or above that. -/
theorem below_iff (forest : Forest s) (owns : Owns s p x) : Below s a x ↔ a = p ∨ Below s a p := by
  rw [Below, TransGen.tail'_iff]
  constructor
  · rintro ⟨q, reached, other⟩
    cases owner_unique forest owns other
    exact (reflTransGen_iff_eq_or_transGen.mp reached).imp_left Eq.symm
  · intro above
    exact ⟨p, reflTransGen_iff_eq_or_transGen.mpr (above.imp_left Eq.symm), owns⟩

/-! ## The walk up -/

/-- A climb of more steps than there are nodes left above is a walk up to its end. -/
theorem climb_rises (forest : Forest s) (kept : Kept s) (stop : Option Nat) (steps : Nat) {x : Nat}
    (inside : x < s.cells.size) (enough : s.cells.size < rank s x + steps) :
    Rises s stop x (s.climb s.living stop steps x) := by
  induction steps generalizing x with
  | zero =>
    have few := rank_le forest inside
    omega
  | succ steps ih =>
    rw [Store.climb]
    cases parent : s.parentAmong s.living x with
    | none => exact .top parent
    | some p =>
      have owns := (parent_iff forest kept).mp parent
      have higher := rank_lt forest owns
      by_cases here : stop = some p
      · simpa only [if_pos here] using .stopped parent here
      · simpa only [if_neg here] using .up parent here (ih (owner_inside owns) (by omega))

theorem ancestors_rises (forest : Forest s) (kept : Kept s) (inside : x < s.cells.size) :
    Rises s stop x (s.ancestors x stop) :=
  climb_rises forest kept stop _ inside (by omega)

theorem rises_unique {other : List Nat} (first : Rises s stop x path) (second : Rises s stop x other) :
    path = other := by
  induction first generalizing other with
  | top rootless => cases second <;> simp_all
  | stopped link here => cases second <;> simp_all
  | up link apart _ ih =>
    cases second with
    | top rootless => simp_all
    | stopped => simp_all
    | up same _ above =>
      cases link.symm.trans same
      rw [ih above]

/-- A walk up to the root passes just the nodes that its start is below. -/
theorem mem_rises (forest : Forest s) (kept : Kept s) (rises : Rises s none x path) :
    a ∈ path ↔ Below s a x := by
  generalize whole : none = stop at rises
  induction rises with
  | @top x rootless =>
    refine ⟨fun member => absurd member List.not_mem_nil, fun below => ?_⟩
    obtain ⟨p, _, owns⟩ := TransGen.tail'_iff.mp below
    rw [(parent_iff forest kept).mpr owns] at rootless
    cases rootless
  | stopped _ here => cases whole.trans here
  | up link _ _ ih => rw [List.mem_cons, ih, below_iff forest ((parent_iff forest kept).mp link)]

theorem rises_higher (forest : Forest s) (kept : Kept s) (rises : Rises s stop x path) :
    ∀ p ∈ path, rank s x < rank s p := by
  induction rises with
  | top | stopped => simp
  | up link _ _ ih =>
    have higher := rank_lt forest ((parent_iff forest kept).mp link)
    exact List.forall_mem_cons.mpr ⟨higher, fun q member => Nat.lt_trans higher (ih q member)⟩

theorem rises_nodup (forest : Forest s) (kept : Kept s) (rises : Rises s stop x path) : path.Nodup := by
  induction rises with
  | top | stopped => exact .nil
  | up _ _ above ih =>
    refine List.nodup_cons.mpr ⟨fun member => ?_, ih⟩
    exact Nat.lt_irrefl _ (rises_higher forest kept above _ member)

/-- The nodes between a node and one above it are those that a walk up to there passes. -/
theorem between_rises (forest : Forest s) (kept : Kept s) (between : Between s a x path) :
    Rises s (some a) x path ∧ Below s a x := by
  induction path generalizing x with
  | nil =>
    have link : s.parent? x = some a := by simpa [Between] using between
    exact ⟨.stopped link rfl, .single ((parent_iff forest kept).mp link)⟩
  | cons p rest ih =>
    obtain ⟨link, above⟩ := List.isChain_cons_cons.mp between
    obtain ⟨rises, below⟩ := ih above
    have owns := (parent_iff forest kept).mp link
    have apart : some a ≠ some p := by
      rintro ⟨⟩
      exact not_below_self forest below
    exact ⟨.up link apart rises, below.tail owns⟩

theorem rises_between (forest : Forest s) (kept : Kept s) (below : Below s a x)
    (rises : Rises s (some a) x path) : Between s a x path := by
  generalize upTo : some a = stop at rises
  induction rises with
  | @top x rootless =>
    obtain ⟨p, _, owns⟩ := TransGen.tail'_iff.mp below
    rw [(parent_iff forest kept).mpr owns] at rootless
    cases rootless
  | stopped link here =>
    cases upTo.trans here
    simpa [Between] using link
  | @up x p _ link other _ ih =>
    have owns := (parent_iff forest kept).mp link
    have further : Below s a p := by
      refine ((below_iff forest owns).mp below).resolve_left fun same => ?_
      exact other (upTo.symm.trans (congrArg some same))
    exact List.isChain_cons_cons.mpr ⟨link, ih further⟩

/-! ## The walk down -/

mutual

/-- A tree on top of the work list is visited in pre-order, and then the rest is. -/
theorem visits_holds (n : Node) {b : Nat} {work visited : List Nat} (held : Holds s n b)
    (later : Visits s work visited) : Visits s (b :: work) (b :: (addresses s n b ++ visited)) := by
  cases n with
  | mk h cs =>
    obtain ⟨_, _, below⟩ := held
    exact .visit (visits_holdsAll cs below later)

theorem visits_holdsAll (nodes : List Node) {p : Nat} {bs work visited : List Nat}
    (held : HoldsAll s p nodes bs) (later : Visits s work visited) :
    Visits s (bs ++ work) (addressesAll s nodes bs ++ visited) := by
  cases held with
  | nil => exact later
  | @cons n _ _ rest others here _ below =>
    have first := visits_holds n here (visits_holdsAll rest below later)
    simpa only [addressesAll, List.cons_append, List.append_assoc] using first

end

theorem descendants_visits (forest : Forest s) (inside : a < s.cells.size) :
    Visits s (s.cell a).children (s.descendants a) := by
  obtain ⟨⟨h, cs⟩, held⟩ := forest.tree a inside
  have parts := held
  obtain ⟨_, _, below⟩ := parts
  rw [descendants_holds held]
  simpa [addresses] using visits_holdsAll _ below .done

theorem visits_unique {other : List Nat} (first : Visits s work visited) (second : Visits s work other) :
    visited = other := by
  induction first generalizing other with
  | done =>
    cases second
    rfl
  | visit _ ih =>
    cases second with
    | visit later => rw [ih later]

/-- A walk down visits what it has to visit and everything below. -/
theorem mem_visits (visits : Visits s work visited) :
    x ∈ visited ↔ ∃ b ∈ work, ReflTransGen (Owns s) b x := by
  induction visits with
  | done => simp
  | @visit a work visited _ ih =>
    have here : ReflTransGen (Owns s) a x ↔ x = a ∨ ∃ c ∈ (s.cell a).children, ReflTransGen (Owns s) c x := by
      rw [ReflTransGen.cases_head_iff, eq_comm]
      rfl
    rw [List.mem_cons, ih, List.exists_mem_cons_iff, here, or_assoc]
    simp only [List.mem_append, or_and_right, exists_or]

theorem mem_descendants (forest : Forest s) (inside : a < s.cells.size) :
    x ∈ s.descendants a ↔ Below s a x := by
  rw [mem_visits (descendants_visits forest inside), Below, TransGen.head'_iff]
  rfl

/-- Nothing is at or below both of two nodes. -/
def Apart (s : Store) (b c : Nat) : Prop := ∀ x, ReflTransGen (Owns s) b x → ¬ ReflTransGen (Owns s) c x

/-- Of two nodes above the same one, one is above the other, as owners are unique. -/
theorem above_total (forest : Forest s) (first : ReflTransGen (Owns s) b x)
    (second : ReflTransGen (Owns s) c x) : ReflTransGen (Owns s) b c ∨ ReflTransGen (Owns s) c b := by
  have unique : Relator.RightUnique (Function.swap (Owns s)) := fun _ _ _ => owner_unique forest
  rw [← reflTransGen_swap] at first second
  have either := ReflTransGen.total_of_right_unique unique first second
  exact either.symm.imp reflTransGen_swap.mp reflTransGen_swap.mp

/-- A child is not below another child of the same node. -/
theorem sibling_not_below (forest : Forest s) (first : Owns s p b) (second : Owns s p c) : ¬ Below s b c := by
  intro below
  rcases (below_iff forest second).mp below with same | above
  · exact not_below_self forest (.single (same ▸ first))
  · exact not_below_self forest (above.tail first)

theorem siblings_apart (forest : Forest s) (first : Owns s p b) (second : Owns s p c) (different : b ≠ c) :
    Apart s b c := by
  intro x above other
  rcases above_total forest above other with down | down
  · rcases reflTransGen_iff_eq_or_transGen.mp down with same | below
    · exact different same.symm
    · exact sibling_not_below forest first second below
  · rcases reflTransGen_iff_eq_or_transGen.mp down with same | below
    · exact different same
    · exact sibling_not_below forest second first below

theorem children_apart (forest : Forest s) (p : Nat) : (s.cell p).children.Pairwise (Apart s) :=
  (forest.distinct p).imp_of_mem fun first second different => siblings_apart forest first second different

/-- A walk down from nodes that have nothing in common visits no node twice. -/
theorem visits_nodup (forest : Forest s) (visits : Visits s work visited) (apart : work.Pairwise (Apart s)) :
    visited.Nodup := by
  induction visits with
  | done => exact .nil
  | @visit a work visited later ih =>
    obtain ⟨here, others⟩ := List.pairwise_cons.mp apart
    have inner : ((s.cell a).children ++ work).Pairwise (Apart s) := by
      refine List.pairwise_append.mpr ⟨children_apart forest a, others, ?_⟩
      intro c owns b member x below
      exact here b member x (.head owns below)
    refine List.nodup_cons.mpr ⟨fun again => ?_, ih inner⟩
    obtain ⟨b, member, reached⟩ := (mem_visits later).mp again
    rcases List.mem_append.mp member with owns | other
    · exact not_below_self forest (TransGen.head'_iff.mpr ⟨b, owns, reached⟩)
    · exact here b other a .refl reached

/-! ## Both walks -/

theorem forest_agree (forest : Forest s) (kept : Kept s) : Agree s where
  linked p c := (parent_iff forest kept).symm
  down a inside visited := by
    have walk := descendants_visits forest inside
    exact ⟨fun visits => visits_unique visits walk, fun same => same ▸ walk⟩
  up x inside stop passed := by
    have walk : Rises s stop x (s.ancestors x stop) := ancestors_rises forest kept inside
    exact ⟨fun rises => rises_unique rises walk, fun same => same ▸ walk⟩
  dual a inside x within := by
    rw [mem_descendants forest inside, mem_rises forest kept (ancestors_rises forest kept within)]
  downOnce a inside := visits_nodup forest (descendants_visits forest inside) (children_apart forest a)
  upOnce x inside := rises_nodup forest kept (ancestors_rises forest kept inside)
  between a inside x member path := by
    have below := (mem_descendants forest inside).mp member
    obtain ⟨p, _, owns⟩ := TransGen.tail'_iff.mp below
    have walk : Rises s (some a) x (s.ancestors x (some a)) :=
      ancestors_rises forest kept (child_inside forest owns)
    constructor
    · intro between
      exact rises_unique (between_rises forest kept between).1 walk
    · rintro rfl
      exact rises_between forest kept below walk

/-- Whatever is built, as long as no node is attached twice or below itself and all nodes
are alive: links and children say the same, both walks end, one finds a node above
another just where the other finds that one below, nothing is met twice, and what a walk
up passes before it stops is the way between the two. -/
theorem built_walks_agree (built : Built s) (kept : Kept s) : Agree s :=
  forest_agree (forest_built built) kept

/-- A loop with a condition in it. -/
def loop : Value :=
  .map [(.str "kind", .str "While"), (.str "children", .list [.map [(.str "kind", .str "If")]])]

/-- The store that has read the loop. -/
def looped : Store :=
  ⟨#[⟨⟨"While", .null, .null, .plain⟩, [1], none, none⟩, ⟨⟨"If", .null, .null, .plain⟩, [], some 0, none⟩], []⟩

/-- The loop is taken in by a new node, and that one by another, which is held. -/
def grafted : Store :=
  let outer := (looped.create ⟨"Try", .null, .null, .plain⟩ [0]).2
  ((outer.create ⟨"Do", .null, .null, .plain⟩ []).2.addChild 3 2).hold "top" 3

theorem loop_read : Store.empty.read loop = .ok (0, looped) := by
  have header : Header.ofValue loop = .ok ⟨"While", .null, .null, .plain⟩ := rfl
  rw [read_header _ header, readAll_cons]
  change (looped.readAll [(1, _)]).map _ = _
  rw [readAll_cons]
  change (looped.readAll []).map _ = _
  rw [readAll_nil]
  rfl

theorem grafted_built : Built grafted := by
  have looped : Built looped := .step .empty (.read loop 0 _ loop_read)
  have outer := looped.step (.create ⟨"Try", .null, .null, .plain⟩ [0]
    (List.forall_mem_singleton.mpr (free_iff.mpr (by decide +kernel))) (List.nodup_singleton 0))
  have both := outer.step (.create ⟨"Do", .null, .null, .plain⟩ [] (List.forall_mem_nil _) .nil)
  have taken := both.step (.addChild 3 2 (by decide +kernel) (free_iff.mpr (by decide +kernel)) (by decide)
    (free_not_below (free_iff.mpr (by decide +kernel))))
  exact taken.step (.hold "top" 3 (by decide +kernel))

theorem grafted_kept : Kept grafted := by
  unfold Kept Living
  decide +kernel

/-- A loop is read from a document, a new node takes it in, and another one that node. -/
theorem grafted_walks_agree : Built grafted ∧ Kept grafted ∧ Agree grafted ∧
    grafted.descendants 3 = [2, 0, 1] ∧ grafted.ancestors 1 none = [0, 2, 3] ∧
    grafted.ancestors 1 (some 3) = [0, 2] :=
  ⟨grafted_built, grafted_kept, built_walks_agree grafted_built grafted_kept, by decide +kernel,
    by decide +kernel, by decide +kernel⟩

end MethodLint.AncestorWalks
