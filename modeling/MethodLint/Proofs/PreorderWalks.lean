import MethodLint.Proofs.AncestorWalks

/-! The walk with a stack is the recursive pre-order. A stack of nodes to visit stands for what
has still to come: the pre-orders of the nodes on it, from the top down. A turn takes the first
of these nodes off and leaves the others, so nothing is lost, and after as many turns as there
are nodes below the root the stack is empty. Each node below the root is visited at one turn,
which its position in the tree tells: before those further down on the same way, after those that
branch off to the left. -/
namespace MethodLint.PreorderWalks
open Relation LinkedTrees Forests AncestorWalks

/-! ## Turns -/

section Turns

variable {α : Type}

/-- One turn of the walk, from what was visited and the stack to what is visited and stacked next:
the node on top of the stack is visited, and its children are put on the stack in its place, the
first of them on top. The top of a stack is the end of the list. -/
inductive Turn (below : α → List α) : List α × List α → List α × List α → Prop where
  | visit (visited stack : List α) (top : α) :
      Turn below (visited, stack ++ [top]) (visited ++ [top], stack ++ (below top).reverse)

/-- A number of turns, one after the other. -/
inductive Turns (below : α → List α) : Nat → List α × List α → List α × List α → Prop where
  | none (s : List α × List α) : Turns below 0 s s
  | more {k : Nat} {s t u : List α × List α} (first : Turn below s t) (later : Turns below k t u) :
      Turns below (k + 1) s u

/-- The walk from a stack ends: every run goes on until each node of `visited` has had its turn, and
by then these are the nodes that were visited and the stack is empty. -/
structure EndsWith (below : α → List α) (stack visited : List α) : Prop where
  reached : Turns below visited.length ([], stack) (visited, [])
  bounded : ∀ k t, Turns below k ([], stack) t → k ≤ visited.length
  further : ∀ k t, Turns below k ([], stack) t → k < visited.length → ∃ u, Turn below t u
  done : ∀ t, Turns below visited.length ([], stack) t → t = (visited, [])

/-- An order is recursive if it lists below a node each child and then what is below that child. -/
def Recursive (below order : α → List α) : Prop := ∀ a, order a = (below a).flatMap fun c => c :: order c

/-- What is still to come of a stack. -/
def toCome (order : α → List α) (stack : List α) : List α := stack.reverse.flatMap fun a => a :: order a

variable {below order : α → List α} {s t : List α × List α} {stack : List α} {k : Nat}

theorem toCome_top (order : α → List α) (stack : List α) (top : α) :
    toCome order (stack ++ [top]) = top :: (order top ++ toCome order stack) := by
  simp [toCome]

theorem toCome_children (recursive : Recursive below order) (stack : List α) (a : α) :
    toCome order (stack ++ (below a).reverse) = order a ++ toCome order stack := by
  rw [recursive a]
  simp [toCome]

/-- What was visited and what is to come stay the same together. -/
theorem turn_keeps (recursive : Recursive below order) (turn : Turn below s t) :
    t.1 ++ toCome order t.2 = s.1 ++ toCome order s.2 := by
  cases turn with
  | visit visited stack top => rw [toCome_children recursive, toCome_top, List.append_assoc, List.singleton_append]

theorem turn_shortens (recursive : Recursive below order) (turn : Turn below s t) :
    (toCome order t.2).length + 1 = (toCome order s.2).length := by
  cases turn with
  | visit visited stack top => rw [toCome_children recursive, toCome_top, List.length_cons]

theorem turn_exists (below : α → List α) (more : toCome order s.2 ≠ []) : ∃ t, Turn below s t := by
  obtain ⟨visited, stack⟩ := s
  cases stack using List.reverseRecOn with
  | nil => exact absurd rfl more
  | append_singleton rest top => exact ⟨_, .visit visited rest top⟩

theorem turns_keep (recursive : Recursive below order) (turns : Turns below k s t) :
    t.1 ++ toCome order t.2 = s.1 ++ toCome order s.2 := by
  induction turns with
  | none s => rfl
  | more first _ ih => exact ih.trans (turn_keeps recursive first)

theorem turns_shorten (recursive : Recursive below order) (turns : Turns below k s t) :
    (toCome order t.2).length + k = (toCome order s.2).length := by
  induction turns with
  | none s => rfl
  | more first _ ih =>
    have one := turn_shortens recursive first
    omega

/-- Nothing is to come only of an empty stack. -/
theorem toCome_done (nothing : toCome order stack = []) : stack = [] := by
  cases stack using List.reverseRecOn with
  | nil => rfl
  | append_singleton rest top =>
    rw [toCome_top] at nothing
    cases nothing

theorem turns_reach (recursive : Recursive below order) (visited stack : List α) :
    Turns below (toCome order stack).length (visited, stack) (visited ++ toCome order stack, []) := by
  -- Each turn leaves one node less to come, so that number counts the turns that are left.
  generalize length : (toCome order stack).length = k
  induction k generalizing visited stack with
  | zero =>
    have nothing := List.eq_nil_of_length_eq_zero length
    obtain rfl := toCome_done nothing
    rw [nothing, List.append_nil]
    exact .none _
  | succ k ih =>
    have more : toCome order stack ≠ [] := by
      rintro nothing
      rw [nothing] at length
      cases length
    obtain ⟨⟨seen, rest⟩, turn⟩ := turn_exists (s := (visited, stack)) below more
    have same : seen ++ toCome order rest = visited ++ toCome order stack := turn_keeps recursive turn
    have shorter : (toCome order rest).length + 1 = (toCome order stack).length := turn_shortens recursive turn
    refine .more turn ?_
    rw [← same]
    exact ih seen rest (by omega)

/-- The walk from a stack visits what is to come of it, and ends. -/
theorem endsWith_toCome (recursive : Recursive below order) (stack : List α) :
    EndsWith below stack (toCome order stack) := by
  have length {k : Nat} {t : List α × List α} (turns : Turns below k ([], stack) t) :
      (toCome order t.2).length + k = (toCome order stack).length := turns_shorten recursive turns
  refine ⟨turns_reach recursive [] stack, fun k t turns => ?_, fun k t turns few => ?_, fun t turns => ?_⟩
  · exact Nat.le.intro ((Nat.add_comm _ _).trans (length turns))
  · have all := length turns
    refine @turn_exists α order t below fun nothing => ?_
    rw [nothing, List.length_nil] at all
    omega
  · have all := length turns
    have nothing : toCome order t.2 = [] := List.eq_nil_of_length_eq_zero (by omega)
    have same := turns_keep recursive turns
    rw [nothing, List.append_nil] at same
    exact Prod.ext same (toCome_done nothing)

end Turns

/-! ## Trees -/

/-- The pre-order below a node: each child, and then what is below that child. -/
theorem descendants_recursive : Recursive Node.children Node.descendants := by
  intro n
  rw [Walks.descendants_preorder]
  induction n.children with
  | nil => rfl
  | cons c rest ih =>
    rw [Node.preorderAll, ih, List.flatMap_cons, Walks.descendants_preorder, Walks.preorder_eq]
    rfl

/-- The node at a position, which is the way down to it: of each node on the way the place among
its siblings. The root has the empty position. -/
def nodeAt? (n : Node) : (place : List Nat) → Option Node
  | [] => some n
  | i :: place => (n.children[i]?).bind (nodeAt? · place)

/-- A position comes before another one if this leads on from it, or leaves the common way at a
later sibling. -/
inductive Before : (first second : List Nat) → Prop where
  | below (place : List Nat) (i : Nat) (deeper : List Nat) : Before place (place ++ i :: deeper)
  | beside (place : List Nat) (earlier : i < j) (deeper other : List Nat) :
      Before (place ++ i :: deeper) (place ++ j :: other)

mutual

/-- The nodes below a node with their positions. -/
def placed : Node → List (List Nat × Node)
  | .mk _ cs => placedFrom 0 cs

/-- Some siblings and the nodes below them with their positions, where the siblings before them are
so many. -/
def placedFrom (before : Nat) : List Node → List (List Nat × Node)
  | [] => []
  | c :: cs => ([before], c) :: ((placed c).map (Prod.map (before :: ·) id) ++ placedFrom (before + 1) cs)

end

/-- The nodes below a node in the order of the walk, with their positions: every position but that
of the root is there, once, and in order. -/
structure ListsPlaces (n : Node) (listed : List (List Nat × Node)) : Prop where
  nodes : listed.map Prod.snd = n.descendants
  exact : ∀ place m, (place, m) ∈ listed ↔ place ≠ [] ∧ nodeAt? n place = some m
  ordered : (listed.map Prod.fst).Pairwise Before
  once : (listed.map Prod.fst).Nodup

theorem before_ne {first second : List Nat} (before : Before first second) : first ≠ second := by
  intro same
  cases before with
  | below _ i deeper => exact List.cons_ne_nil i deeper (List.append_right_eq_self.mp same.symm)
  | beside place earlier deeper other =>
    have siblings := (List.cons.inj (List.append_cancel_left same)).1
    omega

theorem before_cons (i : Nat) {first second : List Nat} (before : Before first second) :
    Before (i :: first) (i :: second) := by
  cases before with
  | below _ j deeper => exact .below (i :: first) j deeper
  | beside place earlier deeper other => exact .beside (i :: place) earlier deeper other

mutual

theorem placed_nodes (n : Node) : (placed n).map Prod.snd = Node.preorderAll n.children := by
  match n with
  | .mk h cs => exact placedFrom_nodes 0 cs

theorem placedFrom_nodes (before : Nat) (nodes : List Node) :
    (placedFrom before nodes).map Prod.snd = Node.preorderAll nodes := by
  match nodes with
  | [] => rfl
  | c :: cs =>
    have inner : ((placed c).map (Prod.map (before :: ·) id)).map Prod.snd = Node.preorderAll c.children := by
      rw [List.map_map, ← placed_nodes c]
      rfl
    rw [placedFrom, List.map_cons, List.map_append, inner, placedFrom_nodes, Node.preorderAll, Walks.preorder_eq]

end

mutual

theorem placed_exact (n : Node) (place : List Nat) (m : Node) :
    (place, m) ∈ placed n ↔ place ≠ [] ∧ nodeAt? n place = some m := by
  match n with
  | .mk h cs =>
    rw [placed, placedFrom_exact 0 cs]
    constructor
    · rintro ⟨i, rest, rfl, found⟩
      rw [Nat.zero_add]
      exact ⟨List.cons_ne_nil _ _, found⟩
    · rintro ⟨filled, found⟩
      cases place with
      | nil => exact absurd rfl filled
      | cons i rest => exact ⟨i, rest, by rw [Nat.zero_add], found⟩

theorem placedFrom_exact (before : Nat) (nodes : List Node) (place : List Nat) (m : Node) :
    (place, m) ∈ placedFrom before nodes ↔
      ∃ i rest, place = (before + i) :: rest ∧ (nodes[i]?).bind (nodeAt? · rest) = some m := by
  match nodes with
  | [] => simp [placedFrom]
  | c :: cs =>
    have first : (place, m) = ([before], c) ∨ (place, m) ∈ (placed c).map (Prod.map (before :: ·) id) ↔
        ∃ rest, place = before :: rest ∧ nodeAt? c rest = some m := by
      constructor
      · rintro (here | inner)
        · cases here
          exact ⟨[], rfl, rfl⟩
        · obtain ⟨⟨rest, m⟩, listed, same⟩ := List.mem_map.mp inner
          cases same
          exact ⟨rest, rfl, ((placed_exact c rest m).mp listed).2⟩
      · rintro ⟨rest, rfl, found⟩
        cases rest with
        | nil =>
          cases found
          exact .inl rfl
        | cons i rest =>
          refine .inr (List.mem_map.mpr ⟨(i :: rest, m), ?_, rfl⟩)
          exact (placed_exact c _ m).mpr ⟨List.cons_ne_nil _ _, found⟩
    rw [placedFrom, List.mem_cons, List.mem_append, ← or_assoc, first, placedFrom_exact (before + 1) cs]
    constructor
    · rintro (⟨rest, rfl, found⟩ | ⟨i, rest, rfl, found⟩)
      · exact ⟨0, rest, rfl, found⟩
      · exact ⟨i + 1, rest, by rw [Nat.add_right_comm, Nat.add_assoc], found⟩
    · rintro ⟨i, rest, rfl, found⟩
      cases i with
      | zero => exact .inl ⟨rest, rfl, found⟩
      | succ i => exact .inr ⟨i, rest, by rw [Nat.add_right_comm, Nat.add_assoc], found⟩

end

mutual

theorem placed_ordered (n : Node) : (placed n).Pairwise fun d e => Before d.1 e.1 := by
  match n with
  | .mk h cs => exact placedFrom_ordered 0 cs

theorem placedFrom_ordered (before : Nat) (nodes : List Node) :
    (placedFrom before nodes).Pairwise fun d e => Before d.1 e.1 := by
  match nodes with
  | [] => exact .nil
  | c :: cs =>
    -- What is listed after the first sibling lies below it, or beside it at a later one.
    have later (e : List Nat × Node) (listed : e ∈ placedFrom (before + 1) cs) :
        ∃ i rest, before < i ∧ e.1 = i :: rest := by
      obtain ⟨i, rest, place, _⟩ := (placedFrom_exact (before + 1) cs e.1 e.2).mp listed
      exact ⟨before + 1 + i, rest, by omega, place⟩
    have inner : ((placed c).map (Prod.map (before :: ·) id)).Pairwise fun d e => Before d.1 e.1 :=
      List.pairwise_map.mpr ((placed_ordered c).imp (before_cons before))
    rw [placedFrom, List.pairwise_cons, List.pairwise_append]
    refine ⟨fun e listed => ?_, inner, placedFrom_ordered (before + 1) cs, fun d under e listed => ?_⟩
    · rcases List.mem_append.mp listed with under | beside
      · obtain ⟨⟨place, m⟩, known, rfl⟩ := List.mem_map.mp under
        obtain ⟨filled, _⟩ := (placed_exact c place m).mp known
        obtain ⟨i, rest, rfl⟩ := List.exists_cons_of_ne_nil filled
        exact .below [before] i rest
      · obtain ⟨i, rest, earlier, place⟩ := later e beside
        rw [place]
        exact .beside [] earlier [] rest
    · obtain ⟨⟨place, m⟩, _, rfl⟩ := List.mem_map.mp under
      obtain ⟨i, rest, earlier, beside⟩ := later e listed
      rw [beside]
      exact .beside [] earlier place rest

end

theorem placed_lists (n : Node) : ListsPlaces n (placed n) := by
  have ordered : ((placed n).map Prod.fst).Pairwise Before := List.pairwise_map.mpr (placed_ordered n)
  refine ⟨(placed_nodes n).trans (Walks.descendants_preorder n).symm, placed_exact n, ordered, ?_⟩
  exact ordered.imp before_ne

/-! ## Linked trees -/

variable {s : Store} {a x : Nat}

/-- What is below a node of a store, in the order of the walk: each child and then what is below
that child; every node that is below it once, and followed at once by those below itself. -/
structure ListsBelow (s : Store) (a : Nat) : Prop where
  recursive : s.descendants a = (s.cell a).children.flatMap fun c => c :: s.descendants c
  ends : EndsWith (fun b => (s.cell b).children) (s.cell a).children.reverse (s.descendants a)
  members : ∀ x, x ∈ s.descendants a ↔ Below s a x
  once : (a :: s.descendants a).Nodup
  blocks : ∀ x ∈ s.descendants a, ∃ front back, s.descendants a = front ++ x :: (s.descendants x ++ back)

theorem visits_append {first second work visited : List Nat} (left : Visits s work first)
    (right : Visits s visited second) : Visits s (work ++ visited) (first ++ second) := by
  induction left with
  | done => exact right
  | visit _ ih =>
    rw [List.append_assoc] at ih
    exact .visit ih

theorem store_recursive (forest : Forest s) :
    Recursive (fun b => (s.cell b).children) s.descendants := by
  intro p
  by_cases inside : p < s.cells.size
  · have each (cs : List Nat) (owned : ∀ c ∈ cs, Owns s p c) :
        Visits s cs (cs.flatMap fun c => c :: s.descendants c) := by
      induction cs with
      | nil => exact .done
      | cons c rest ih =>
        have within := child_inside forest (owned c List.mem_cons_self)
        have first : Visits s [c] (c :: s.descendants c) := by
          apply Visits.visit
          rw [List.append_nil]
          exact descendants_visits forest within
        exact visits_append first (ih fun d listed => owned d (List.mem_cons_of_mem _ listed))
    exact visits_unique (descendants_visits forest inside) (each _ fun _ => id)
  · have childless : (s.cell p).children = [] := by
      rw [Store.cell, Array.getElem?_eq_none (Nat.le_of_not_lt inside)]
      rfl
    have nothing : s.descendants p = [] := by
      rw [Store.descendants, Store.walkFrom, childless]
      rfl
    dsimp only
    rw [nothing, childless]
    rfl

theorem block_below (forest : Forest s) (below : Below s a x) :
    ∃ front back, s.descendants a = front ++ x :: (s.descendants x ++ back) := by
  have child {p c : Nat} (owns : Owns s p c) :
      ∃ front back, s.descendants p = front ++ c :: (s.descendants c ++ back) := by
    obtain ⟨before, after, split⟩ := List.append_of_mem owns
    refine ⟨before.flatMap fun c => c :: s.descendants c, after.flatMap fun c => c :: s.descendants c, ?_⟩
    rw [store_recursive forest p]
    dsimp only
    rw [split, List.flatMap_append, List.flatMap_cons, List.cons_append]
  -- The block of a child lies inside the block of its owner.
  induction below with
  | single owns => exact child owns
  | @tail b c _ owns ih =>
    obtain ⟨front, back, outer⟩ := ih
    obtain ⟨inner, rest, here⟩ := child owns
    refine ⟨front ++ b :: inner, rest ++ back, ?_⟩
    rw [outer, here]
    simp

theorem forest_lists (forest : Forest s) (inside : a < s.cells.size) : ListsBelow s a := by
  have members (x : Nat) : x ∈ s.descendants a ↔ Below s a x := mem_descendants forest inside
  refine ⟨store_recursive forest a, ?_, members, ?_, fun x member => block_below forest ((members x).mp member)⟩
  · have ends := endsWith_toCome (store_recursive forest) (s.cell a).children.reverse
    rwa [toCome, List.reverse_reverse, ← store_recursive forest a] at ends
  · refine List.nodup_cons.mpr ⟨fun again => not_below_self forest ((members a).mp again), ?_⟩
    exact visits_nodup forest (descendants_visits forest inside) (children_apart forest a)

/-! ## The walk -/

/-- The walk below a node of a tree ends, at the recursive pre-order: every position below the root
is visited once, before those that lead on from it and after those that branch off earlier. In a
store that was built by attaching nodes that were free, the same holds of addresses. -/
theorem walk_visits_preorder :
    (∀ n : Node, n.descendants = n.children.flatMap (fun c => c :: c.descendants) ∧
      EndsWith Node.children n.children.reverse n.descendants ∧ ∃ listed, ListsPlaces n listed) ∧
    ∀ s, Built s → ∀ a < s.cells.size, ListsBelow s a := by
  refine ⟨fun n => ⟨descendants_recursive n, ?_, placed n, placed_lists n⟩, fun s built a inside => ?_⟩
  · have ends := endsWith_toCome descendants_recursive n.children.reverse
    rwa [toCome, List.reverse_reverse, ← descendants_recursive n] at ends
  · exact forest_lists (forest_built built) inside

/-- Two leaves, a node over the first of them, and a root over this node and the second leaf. -/
def rooted : Store :=
  let leaf (s : Store) (children : List Nat) : Store := (s.create (.plain "Block" .null .null) children).2
  leaf (leaf (leaf (leaf .empty []) []) [0]) [2, 1]

theorem rooted_built : Built rooted := by
  have grown {s : Store} (built : Built s) (children : List Nat)
      (free : ∀ c ∈ children, c < s.cells.size ∧ ∀ p < s.cells.size, c ∉ (s.cell p).children)
      (distinct : children.Nodup) : Built (s.create (.plain "Block" .null .null) children).2 :=
    .step built (.create _ children (fun c listed => free_iff.mpr (free c listed)) distinct)
  apply grown (grown (grown (grown .empty [] ?_ ?_) [] ?_ ?_) [0] ?_ ?_) [2, 1]
  all_goals decide +kernel

/-- The root is not visited, and the node before the leaf below it. -/
theorem rooted_visits : Built rooted ∧ 3 < rooted.cells.size ∧ ListsBelow rooted 3 ∧
    rooted.descendants 3 = [2, 0, 1] := by
  have inside : 3 < rooted.cells.size := by decide +kernel
  exact ⟨rooted_built, inside, walk_visits_preorder.2 rooted rooted_built 3 inside, by decide +kernel⟩

end MethodLint.PreorderWalks
