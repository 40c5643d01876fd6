import MethodLint.Analysis

/-! The walks that every metric rests on keep a list of the nodes still to be
visited. Both follow the recursion of the tree: what has been seen by the end is
the pre-order of the work that was left, and the levels that are noted on the way
are those that a recursion down the tree would hand to each child. -/
namespace MethodLint.Walks
open Node

theorem preorderAll_append (first second : List Node) :
    preorderAll (first ++ second) = preorderAll first ++ preorderAll second := by
  induction first with
  | nil => simp [preorderAll]
  | cons node rest ih => simp [preorderAll, ih]

@[simp] theorem preorder_eq (n : Node) : preorder n = preorderAll n.children := by
  cases n
  simp [preorder]

/-- Whatever is on the work list is visited in pre-order, after what was seen
before. -/
theorem walk_visits (seen : Array Node) (work : List Node) :
    (walk seen work).toList = seen.toList ++ preorderAll work := by
  induction seen, work using walk.induct with
  | case1 seen => simp [walk, preorderAll]
  | case2 seen h below rest ih =>
    rw [walk, ih, preorderAll_append]
    simp [preorderAll]

theorem descendants_preorder (n : Node) : n.descendants = preorderAll n.children := by
  simp [descendants, walk_visits]

theorem method_descendants (m : Method) : m.descendants = preorderAll m.children := by
  simp [Method.descendants, walk_visits]

theorem preorder_top {nodes : List Node} {d : Node} (member : d ∈ nodes) : d ∈ preorderAll nodes := by
  induction nodes with
  | nil => exact absurd member List.not_mem_nil
  | cons n rest ih =>
    rw [preorderAll]
    rcases List.mem_cons.mp member with rfl | later
    · exact List.mem_cons_self
    · exact List.mem_cons_of_mem _ (List.mem_append_right _ (ih later))

/-- What is below a node of a tree is in the tree. -/
theorem preorder_below (nodes : List Node) {d e : Node} (inner : d ∈ preorderAll nodes)
    (deeper : e ∈ preorderAll d.children) : e ∈ preorderAll nodes := by
  match nodes with
  | [] => exact absurd inner List.not_mem_nil
  | .mk h below :: rest =>
    simp only [preorderAll, preorder_eq, children_mk, List.mem_cons, List.mem_append] at inner ⊢
    rcases inner with rfl | inside | beside
    · exact .inr (.inl deeper)
    · exact .inr (.inl (preorder_below below inside deeper))
    · exact .inr (.inr (preorder_below rest beside deeper))

/-! ## Nodes of a sort -/

/-- The nodes of a sort among some nodes and everything below them, in pre-order. -/
def among (sort : Header → Bool) (nodes : List Node) : List Node :=
  (preorderAll nodes).filter fun d => sort d.header

variable {sort : Header → Bool} {h : Header}

theorem among_append (first second : List Node) :
    among sort (first ++ second) = among sort first ++ among sort second := by
  simp [among, preorderAll_append]

theorem among_cons (n : Node) (rest : List Node) :
    among sort (n :: rest) = among sort [n] ++ among sort rest := among_append [n] rest

theorem among_take (below : List Node) (sorted : sort h = true) :
    among sort [.mk h below] = .mk h below :: among sort below := by
  simp [among, preorderAll, sorted]

theorem among_skip (below : List Node) (other : sort h = false) :
    among sort [.mk h below] = among sort below := by
  simp [among, preorderAll, other]

/-- A property of headers holds of some nodes and of everything below them. -/
def Everywhere (P : Header → Prop) (nodes : List Node) : Prop := ∀ d ∈ preorderAll nodes, P d.header

variable {P Q : Header → Prop} {n : Node} {first second below rest : List Node}

theorem everywhere_nil : Everywhere P [] := fun _ member => absurd member List.not_mem_nil

theorem everywhere_append (left : Everywhere P first) (right : Everywhere P second) :
    Everywhere P (first ++ second) := by
  intro d member
  rw [preorderAll_append] at member
  exact (List.mem_append.mp member).elim (left d) (right d)

theorem everywhere_cons (left : Everywhere P [n]) (right : Everywhere P rest) :
    Everywhere P (n :: rest) := everywhere_append left right

theorem everywhere_node (here : P h) (inner : Everywhere P below) : Everywhere P [.mk h below] := by
  intro d member
  simp only [preorderAll, preorder_eq, children_mk, List.append_nil, List.mem_cons] at member
  rcases member with rfl | member
  · exact here
  · exact inner d member

theorem everywhere_node_iff : Everywhere P [.mk h below] ↔ P h ∧ Everywhere P below := by
  refine ⟨fun all => ⟨all (.mk h below) ?_, fun d member => all d ?_⟩,
    fun both => everywhere_node both.1 both.2⟩
  · simp [preorderAll]
  · simp [preorderAll, member]

theorem everywhere_cons_iff : Everywhere P (n :: rest) ↔ Everywhere P [n] ∧ Everywhere P rest := by
  refine ⟨fun all => ⟨fun d member => all d ?_, fun d member => all d ?_⟩,
    fun both => everywhere_cons both.1 both.2⟩
  · exact preorderAll_append [n] rest ▸ List.mem_append_left _ member
  · exact preorderAll_append [n] rest ▸ List.mem_append_right _ member

theorem everywhere_imp (all : Everywhere P first) (weaker : ∀ h, P h → Q h) : Everywhere Q first :=
  fun d member => weaker d.header (all d member)

theorem everywhere_below {d : Node} (all : Everywhere P first) (member : d ∈ preorderAll first) :
    Everywhere P [d] := by
  intro e inner
  simp only [preorderAll, preorder_eq, List.append_nil, List.mem_cons] at inner
  rcases inner with rfl | deeper
  · exact all _ member
  · exact all e (preorder_below first member deeper)

/-! ## Levels of control constructs -/

mutual

/-- For every control construct of a tree in order, how many enclose it, when
`outer` constructs enclose the whole tree. -/
def levels : Node → (outer : Nat) → List Nat
  | .mk h below, outer =>
    if h.opensLevel then outer :: levelsAll below (outer + 1) else levelsAll below outer

/-- The same for some trees, one after the other. -/
def levelsAll : List Node → (outer : Nat) → List Nat
  | [], _ => []
  | n :: rest, outer => levels n outer ++ levelsAll rest outer

end

private theorem levels_atLevel (outer : Nat) (nodes : List Node) :
    (atLevel outer nodes).flatMap (fun entry => levels entry.1 entry.2) = levelsAll nodes outer := by
  induction nodes with
  | nil => simp [atLevel, levelsAll]
  | cons node rest ih => simp [atLevel, levelsAll, ih]

/-- The levels that are noted while the work list is visited. -/
private theorem walkLevels_visits (seen : Array (Header × Nat)) (work : List (Node × Nat)) :
    (((walkLevels Header.opensLevel seen work).toList.filter fun e => e.1.opensLevel).map Prod.snd) =
      ((seen.toList.filter fun e => e.1.opensLevel).map Prod.snd) ++
        work.flatMap fun entry => levels entry.1 entry.2 := by
  induction seen, work using walkLevels.induct Header.opensLevel with
  | case1 seen => simp [walkLevels]
  | case2 seen h below outer rest ih =>
    simp only [dite_eq_ite] at ih
    rw [walkLevels, ih, List.flatMap_append, levels_atLevel]
    by_cases opens : h.opensLevel = true
    · simp [levels, opens]
    · simp [levels, opens]

theorem nesting_levels (m : Method) : m.nestingLevels = levelsAll m.children 0 := by
  simp [Method.nestingLevels, walkLevels_visits, levels_atLevel]

theorem declared_levels (n : Node) : (declared n).levels = levelsAll n.children 0 := by
  simp [declared, levelled, walkLevels_visits, levels_atLevel]

end MethodLint.Walks
