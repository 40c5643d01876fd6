import Mathlib.Data.Finset.Card
import MethodLint.Proofs.LinkedTrees
import MethodLint.Proofs.Walks

/-! Walks over a tree in a store. A tree at an address is read off the store as it
is, walked in its own order, and the links from a node up to the root of the tree
pass through the nodes that enclose it; so an analysis that goes by addresses and
links sees what an analysis of the tree itself sees. Links count only while the
node that they lead to is alive, which all of a held tree is. -/
namespace MethodLint.LinkedWalks
open Node Walks Outcomes LinkedTrees

/-! ## Height -/

mutual

/-- The number of nodes on the longest way down a tree. -/
def height : Node → Nat
  | .mk _ cs => 1 + heightAll cs

/-- The greatest height of some trees. -/
def heightAll : List Node → Nat
  | [] => 0
  | c :: cs => max (height c) (heightAll cs)

end

variable {s : Store} {n : Node} {a b p root k l : Nat} {used path : List Nat}

/-- Different addresses on a way down, each with a tree of more than so many nodes. -/
structure Route (s : Store) (size : Nat) (used : List Nat) : Prop where
  distinct : used.Nodup
  larger : ∀ u ∈ used, ∃ m, Holds s m u ∧ size < m.size

theorem route_nil : Route s k [] := ⟨.nil, by simp⟩

theorem route_le (route : Route s k used) (less : l ≤ k) : Route s l used :=
  ⟨route.distinct, fun u member =>
    let ⟨m, held, larger⟩ := route.larger u member
    ⟨m, held, Nat.lt_of_le_of_lt less larger⟩⟩

/-- A tree is not below itself, so a way down never comes back. -/
theorem route_cons (route : Route s n.size used) (held : Holds s n a) (less : k < n.size) :
    Route s k (a :: used) := by
  refine ⟨List.nodup_cons.mpr ⟨fun member => ?_, route.distinct⟩, List.forall_mem_cons.mpr ⟨⟨n, held, less⟩, ?_⟩⟩
  · obtain ⟨m, other, larger⟩ := route.larger a member
    rw [holds_unique n held other] at larger
    omega
  · exact (route_le route (Nat.le_of_lt less)).larger

theorem route_length (route : Route s k used) : used.length ≤ s.cells.size := by
  have inside : used ⊆ List.range s.cells.size := by
    intro u member
    obtain ⟨m, held, _⟩ := route.larger u member
    exact List.mem_range.mpr (holds_inside held)
  simpa using (List.subperm_of_subset route.distinct inside).length_le

mutual

theorem route_height (n : Node) {a : Nat} {used : List Nat} (held : Holds s n a) (route : Route s n.size used) :
    used.length + height n ≤ s.cells.size := by
  cases n with
  | mk h cs =>
    have ⟨_, _, below⟩ := held
    have inner := route_heightAll cs below (route_cons route held (k := size.sizeAll cs) (by simp [size]))
    simp only [List.length_cons, height] at inner ⊢
    omega

theorem route_heightAll (nodes : List Node) {p : Nat} {addresses used : List Nat}
    (held : HoldsAll s p nodes addresses) (route : Route s (size.sizeAll nodes) used) :
    used.length + heightAll nodes ≤ s.cells.size := by
  cases held with
  | nil => exact route_length route
  | @cons n _ _ later _ here _ rest =>
    simp only [size.sizeAll] at route
    have first := route_height n here (route_le route (Nat.le_add_right _ _))
    have others := route_heightAll later rest (route_le route (Nat.le_add_left _ _))
    simp only [heightAll]
    omega

end

/-- No way down a tree is longer than the store is large. -/
theorem height_le (held : Holds s n a) : height n ≤ s.cells.size := by
  simpa using route_height n held route_nil

/-! ## The tree itself -/

mutual

theorem treeFrom_holds (n : Node) {a depth : Nat} (held : Holds s n a) (deep : height n ≤ depth) :
    s.treeFrom depth a = n := by
  cases n with
  | mk h cs =>
    obtain ⟨_, header, below⟩ := held
    cases depth with
    | zero => simp [height] at deep
    | succ depth =>
      rw [Store.treeFrom, header, treeFrom_holdsAll cs below (by simp only [height] at deep; omega)]

theorem treeFrom_holdsAll (nodes : List Node) {p depth : Nat} {addresses : List Nat}
    (held : HoldsAll s p nodes addresses) (deep : heightAll nodes ≤ depth) :
    addresses.map (s.treeFrom depth) = nodes := by
  cases held with
  | nil => rfl
  | cons here _ rest =>
    simp only [heightAll] at deep
    rw [List.map_cons, treeFrom_holds _ here (by omega), treeFrom_holdsAll _ rest (by omega)]

end

theorem tree_holds (held : Holds s n a) : s.tree a = n :=
  treeFrom_holds n held (Nat.le_succ_of_le (height_le held))

/-! ## The walk down -/

mutual

/-- The addresses below an address in pre-order, where this tree is. -/
def addresses (s : Store) : Node → Nat → List Nat
  | .mk _ cs, a => addressesAll s cs (s.cell a).children

/-- Some addresses and those below them, where these trees are. -/
def addressesAll (s : Store) : List Node → List Nat → List Nat
  | c :: cs, b :: bs => b :: (addresses s c b ++ addressesAll s cs bs)
  | _, _ => []

end

mutual

theorem walkFrom_holds (n : Node) {a depth : Nat} (held : Holds s n a) (deep : height n ≤ depth)
    (seen : Array Nat) : (s.walkFrom depth seen a).toList = seen.toList ++ addresses s n a := by
  cases n with
  | mk h cs =>
    obtain ⟨_, _, below⟩ := held
    cases depth with
    | zero => simp [height] at deep
    | succ depth => exact walkFrom_holdsAll cs below (by simp only [height] at deep; omega) seen

theorem walkFrom_holdsAll (nodes : List Node) {p depth : Nat} {bs : List Nat} (held : HoldsAll s p nodes bs)
    (deep : heightAll nodes ≤ depth) (seen : Array Nat) :
    (bs.foldl (fun seen child => s.walkFrom depth (seen.push child) child) seen).toList =
      seen.toList ++ addressesAll s nodes bs := by
  cases held with
  | nil => simp [addressesAll]
  | cons here _ rest =>
    simp only [heightAll] at deep
    rw [List.foldl_cons, walkFrom_holdsAll _ rest (by omega), walkFrom_holds _ here (by omega)]
    simp [addressesAll]

end

theorem descendants_holds (held : Holds s n a) : s.descendants a = addresses s n a := by
  simpa [Store.descendants] using walkFrom_holds n held (Nat.le_succ_of_le (height_le held)) #[]

/-! ## Living nodes -/

/-- The address is marked, or outside of what can be. -/
def Marked (seen : Array Bool) (a : Nat) : Prop := seen[a]? ≠ some false

/-- The addresses that are still to be marked. -/
def unmarked (seen : Array Bool) : Finset Nat := (Finset.range seen.size).filter fun i => seen[i]? = some false

/-- What marking does: nothing is unmarked, and whatever is newly marked has marked
children. -/
structure Marks (s : Store) (before after : Array Bool) : Prop where
  size : after.size = before.size
  keeps : ∀ i, Marked before i → Marked after i
  closed : ∀ i, Marked after i → Marked before i ∨ ∀ b ∈ (s.cell i).children, Marked after b

variable {seen before between after : Array Bool}

theorem marks_refl : Marks s seen seen := ⟨rfl, fun _ => id, fun _ => .inl⟩

theorem marks_trans (first : Marks s before between) (second : Marks s between after) :
    Marks s before after := by
  refine ⟨second.size.trans first.size, fun i old => second.keeps i (first.keeps i old), fun i new => ?_⟩
  rcases second.closed i new with old | children
  · exact (first.closed i old).imp_right fun children b member => second.keeps b (children b member)
  · exact .inr children

theorem unmarked_le (marks : Marks s before after) : (unmarked after).card ≤ (unmarked before).card := by
  refine Finset.card_le_card fun i member => ?_
  simp only [unmarked, Finset.mem_filter, Finset.mem_range, marks.size] at member ⊢
  exact ⟨member.1, by_contra fun marked => marks.keeps i marked member.2⟩

theorem marked_set (seen : Array Bool) (a i : Nat) :
    Marked (seen.setIfInBounds a true) i ↔ i = a ∨ Marked seen i := by
  unfold Marked
  rw [Array.getElem?_setIfInBounds]
  by_cases same : a = i
  · subst same
    by_cases inside : a < seen.size <;> simp [inside]
  · simp [same, Ne.symm same]

theorem unmarked_set (here : ¬ Marked seen a) :
    (unmarked (seen.setIfInBounds a true)).card < (unmarked seen).card := by
  have isOpen : seen[a]? = some false := by_contra here
  refine Finset.card_lt_card (Finset.ssubset_iff_of_subset (fun i member => ?_) |>.mpr ⟨a, ?_, ?_⟩)
  · simp only [unmarked, Finset.mem_filter, Finset.mem_range, Array.size_setIfInBounds] at member ⊢
    exact ⟨member.1, by_contra fun marked => (marked_set seen a i).mpr (.inr marked) member.2⟩
  · simp only [unmarked, Finset.mem_filter, Finset.mem_range]
    exact ⟨(Array.getElem?_eq_some_iff.mp isOpen).1, isOpen⟩
  · simp only [unmarked, Finset.mem_filter, not_and]
    exact fun _ => (marked_set seen a a).mpr (.inl rfl)

/-- A search that may go deeper than there is to mark marks all that it comes to. -/
theorem markFrom_marks (depth : Nat) (seen : Array Bool) (a : Nat) (deep : (unmarked seen).card < depth) :
    Marks s seen (s.markFrom depth seen a) ∧ Marked (s.markFrom depth seen a) a := by
  induction depth generalizing seen a with
  | zero => exact absurd deep (Nat.not_lt_zero _)
  | succ depth ih =>
    have each (children : List Nat) (seen : Array Bool) (deep : (unmarked seen).card < depth) :
        Marks s seen (children.foldl (s.markFrom depth) seen) ∧
          ∀ b ∈ children, Marked (children.foldl (s.markFrom depth) seen) b := by
      induction children generalizing seen with
      | nil => exact ⟨marks_refl, by simp⟩
      | cons b rest later =>
        obtain ⟨first, here⟩ := ih seen b deep
        obtain ⟨others, marked⟩ := later _ (Nat.lt_of_le_of_lt (unmarked_le first) deep)
        exact ⟨marks_trans first others, List.forall_mem_cons.mpr ⟨others.keeps b here, marked⟩⟩
    rw [Store.markFrom]
    split
    · rename_i marked
      refine ⟨marks_refl, fun found => ?_⟩
      rw [found] at marked
      cases marked
    · rename_i fresh
      have here : ¬ Marked seen a := by
        unfold Marked
        cases found : seen[a]? with
        | none => simp [found] at fresh
        | some marked => simpa [found] using fresh
      obtain ⟨marks, children⟩ := each (s.cell a).children _
        (Nat.lt_of_lt_of_le (unmarked_set here) (Nat.le_of_lt_succ deep))
      refine ⟨⟨?_, ?_, ?_⟩, marks.keeps a ((marked_set seen a a).mpr (.inl rfl))⟩
      · rw [marks.size, Array.size_setIfInBounds]
      · exact fun i old => marks.keeps i ((marked_set seen a i).mpr (.inr old))
      · intro i new
        rcases marks.closed i new with old | below
        · rcases (marked_set seen a i).mp old with rfl | before
          · exact .inr children
          · exact .inl before
        · exact .inr below

/-- All held addresses are marked in the end, and with a node its children are. -/
theorem living_marks (s : Store) : s.living.size = s.cells.size ∧ (∀ entry ∈ s.held, Marked s.living entry.2) ∧
    ∀ i < s.cells.size, Marked s.living i → ∀ b ∈ (s.cell i).children, Marked s.living b := by
  have whole (held : List (String × Nat)) (seen : Array Bool) (size : seen.size = s.cells.size) :
      Marks s seen (held.foldl (fun seen entry => s.markFrom (s.cells.size + 1) seen entry.2) seen) ∧
        ∀ entry ∈ held,
          Marked (held.foldl (fun seen entry => s.markFrom (s.cells.size + 1) seen entry.2) seen) entry.2 := by
    induction held generalizing seen with
    | nil => exact ⟨marks_refl, by simp⟩
    | cons entry rest later =>
      have few : (unmarked seen).card ≤ seen.size := (Finset.card_filter_le _ _).trans (by simp)
      obtain ⟨first, here⟩ := markFrom_marks (s := s) (s.cells.size + 1) seen entry.2 (by omega)
      obtain ⟨others, marked⟩ := later _ (first.size.trans size)
      exact ⟨marks_trans first others, List.forall_mem_cons.mpr ⟨others.keeps _ here, marked⟩⟩
  obtain ⟨marks, held⟩ := whole s.held (Array.replicate s.cells.size false) (by simp)
  have size : s.living.size = s.cells.size := marks.size.trans Array.size_replicate
  refine ⟨size, held, fun i inside marked => (marks.closed i marked).resolve_left ?_⟩
  simp [Marked, inside]

/-- The node is alive: held, or reached from a held node through children. -/
def Living (s : Store) (a : Nat) : Prop := (s.living[a]?).getD false = true

theorem living_iff (inside : a < s.cells.size) : Living s a ↔ Marked s.living a := by
  have within : a < s.living.size := (living_marks s).1.symm ▸ inside
  simp [Living, Marked, within]

theorem living_held {name : String} (held : (name, a) ∈ s.held) (inside : a < s.cells.size) : Living s a :=
  (living_iff inside).mpr ((living_marks s).2.1 _ held)

theorem living_hold (inside : a < s.cells.size) (name : String) : Living (s.hold name a) a := by
  have held : (name, a) ∈ (s.hold name a).held := by simp [Store.hold]
  exact living_held held (by simpa [Store.hold] using inside)

theorem living_child (living : Living s a) (inside : a < s.cells.size) (member : b ∈ (s.cell a).children)
    (within : b < s.cells.size) : Living s b :=
  (living_iff within).mpr ((living_marks s).2.2 a inside ((living_iff inside).mp living) b member)

/-! ## Links upwards -/

/-- The links from a node pass through these nodes and then come to the root. -/
def Climbs (s : Store) (root b : Nat) (path : List Nat) : Prop :=
  ∀ steps, path.length < steps → s.climb s.living (some root) steps b = path

theorem parentAmong_living (link : (s.cell b).parent = some p) (living : Living s p) :
    s.parentAmong s.living b = some p := by
  rw [Store.parentAmong, link]
  exact if_pos living

theorem climbs_root (link : (s.cell b).parent = some root) (living : Living s root) : Climbs s root b [] := by
  intro steps enough
  cases steps with
  | zero => exact absurd enough (Nat.lt_irrefl 0)
  | succ steps => simp [Store.climb, parentAmong_living link living]

theorem climbs_through (link : (s.cell b).parent = some p) (living : Living s p) (apart : p ≠ root)
    (above : Climbs s root p path) : Climbs s root b (p :: path) := by
  intro steps enough
  cases steps with
  | zero => exact absurd enough (Nat.not_lt_zero _)
  | succ steps =>
    have further := above steps (by simpa using enough)
    simp [Store.climb, parentAmong_living link living, apart.symm, further]

/-- Some nodes of a path that open a level. -/
def openers (s : Store) (path : List Nat) : Nat := path.countP fun p => (s.cell p).header.opensLevel

theorem enclosing_climbs (climbs : Climbs s root b path) (short : path.length ≤ s.cells.size) :
    s.enclosing s.living root b = openers s path := by
  rw [Store.enclosing, climbs _ (Nat.lt_succ_of_le short)]
  rfl

/-- The levels of the control constructs at some addresses, as links upwards give them. -/
def climbed (s : Store) (root : Nat) (found : List Nat) : List Nat :=
  (found.filter fun a => (s.cell a).header.opensLevel).map (s.enclosing s.living root)

theorem climbed_append (first second : List Nat) :
    climbed s root (first ++ second) = climbed s root first ++ climbed s root second := by
  simp [climbed]

mutual

/-- Below a node that lies at the end of a path, every control construct is as deep as a
recursion down the tree says. -/
theorem climbed_holds (n : Node) {b root : Nat} {path : List Nat} (held : Holds s n b) (living : Living s b)
    (route : Route s n.size (path ++ [root])) (climbs : Climbs s root b path) :
    climbed s root (b :: addresses s n b) = levels n (openers s path) := by
  cases n with
  | mk h cs =>
    have ⟨inside, header, below⟩ := held
    have further : Route s (size.sizeAll cs) (b :: path ++ [root]) := route_cons route held (by simp [size])
    have apart : b ≠ root := fun same => (List.nodup_cons.mp further.distinct).1 (by simp [same])
    have short : path.length ≤ s.cells.size := by
      have := route_length route
      simp only [List.length_append, List.length_singleton] at this
      omega
    have inner := climbed_holdsAll cs below (fun c member within => living_child living inside member within)
      further (fun c link => climbs_through link living apart climbs)
    have level : openers s (b :: path) = if h.opensLevel then openers s path + 1 else openers s path := by
      rw [openers, List.countP_cons, header]
      split <;> rfl
    have here : climbed s root [b] = if h.opensLevel then [openers s path] else [] := by
      by_cases opens : h.opensLevel = true
      · simp [climbed, header, opens, enclosing_climbs climbs short]
      · simp [climbed, header, opens]
    rw [level] at inner
    rw [← List.singleton_append, climbed_append, here, addresses, inner, levels]
    split <;> rfl

theorem climbed_holdsAll (nodes : List Node) {p root : Nat} {path bs : List Nat} (held : HoldsAll s p nodes bs)
    (living : ∀ b ∈ bs, b < s.cells.size → Living s b) (route : Route s (size.sizeAll nodes) (path ++ [root]))
    (climbs : ∀ b, (s.cell b).parent = some p → Climbs s root b path) :
    climbed s root (addressesAll s nodes bs) = levelsAll nodes (openers s path) := by
  cases held with
  | nil => rfl
  | @cons n _ _ later _ here link rest =>
    simp only [size.sizeAll] at route
    obtain ⟨alive, others⟩ := List.forall_mem_cons.mp living
    rw [addressesAll, ← List.cons_append, climbed_append, levelsAll,
      climbed_holds n here (alive (holds_inside here)) (route_le route (Nat.le_add_right _ _)) (climbs _ link),
      climbed_holdsAll later rest others (route_le route (Nat.le_add_left _ _)) climbs]

end

/-- Upward walks count the constructs that enclose one another in a living tree. -/
theorem nestingLevels_holds (held : Holds s n a) (living : Living s a) :
    s.nestingLevels a = levelsAll n.children 0 := by
  obtain ⟨h, cs⟩ := n
  have route : Route s (size.sizeAll cs) ([] ++ [a]) := route_cons route_nil held (by simp [size])
  rw [Store.nestingLevels, descendants_holds held]
  have ⟨inside, _, below⟩ := held
  exact climbed_holdsAll cs below (fun b member within => living_child living inside member within)
    route fun b link => climbs_root link living

/-! ## Passes -/

mutual

theorem addresses_hold (n : Node) {a : Nat} (held : Holds s n a) (living : Living s a) :
    List.Forall₂ (fun d b => Holds s d b ∧ Living s b) (preorderAll n.children) (addresses s n a) := by
  cases n with
  | mk h cs =>
    obtain ⟨inside, _, below⟩ := held
    exact addressesAll_hold cs below fun b member within => living_child living inside member within

theorem addressesAll_hold (nodes : List Node) {p : Nat} {bs : List Nat} (held : HoldsAll s p nodes bs)
    (living : ∀ b ∈ bs, b < s.cells.size → Living s b) :
    List.Forall₂ (fun d b => Holds s d b ∧ Living s b) (preorderAll nodes) (addressesAll s nodes bs) := by
  cases held with
  | nil => exact .nil
  | cons here _ rest =>
    obtain ⟨alive, others⟩ := List.forall_mem_cons.mp living
    have within := alive (holds_inside here)
    rw [preorderAll, preorder_eq]
    exact .cons ⟨here, within⟩
      (List.rel_append (addresses_hold _ here within) (addressesAll_hold _ rest others))

end

/-- The nodes of a living tree are at the addresses that a walk over the store goes to. -/
theorem nodes_hold (held : Holds s n a) (living : Living s a) :
    List.Forall₂ (fun d b => Holds s d b ∧ Living s b) (n :: n.descendants) (a :: s.descendants a) := by
  rw [descendants_preorder, descendants_holds held]
  exact .cons ⟨held, living⟩ (addresses_hold n held living)

/-- In a living tree every node is the parent of its children. -/
theorem parent_holds (held : Holds s n a) (living : Living s a) :
    ∀ p ∈ a :: s.descendants a, ∀ c ∈ (s.cell p).children, s.parent? c = some p := by
  intro p among c member
  obtain ⟨d, _, ⟨_, _, below⟩, alive⟩ := item_of_mem (nodes_hold held living) among
  exact parentAmong_living (holdsAll_link below member) alive

theorem declared_holds (held : Holds s n a) (living : Living s a) : s.declared a = declared n := by
  have levels := declared_levels n
  rw [Store.declared, tree_holds held, nestingLevels_holds held living, ← levels]
  rfl

/-- What is taken of related items in the same way is the same. -/
theorem taken_alike {α β γ : Type} {R : α → β → Prop} {f : α → γ} {g : β → γ} {p : α → Bool} {q : β → Bool}
    {xs : List α} {ys : List β} (each : List.Forall₂ R xs ys)
    (alike : ∀ x y, R x y → p x = q y ∧ f x = g y) : (xs.filter p).map f = (ys.filter q).map g := by
  induction each with
  | nil => rfl
  | cons here _ ih =>
    obtain ⟨kept, same⟩ := alike _ _ here
    rw [List.filter_cons, List.filter_cons, kept]
    split
    · rw [List.map_cons, List.map_cons, same, ih]
    · exact ih

/-- An analysis of a living tree in a store goes through what an analysis of the tree
itself goes through. -/
theorem pass_holds (held : Holds s n a) (living : Living s a) : s.pass a = n.pass := by
  refine congrArg₂ Pass.mk (holds_header held) (taken_alike (nodes_hold held living) fun d b both => ?_).symm
  exact ⟨by rw [holds_header both.1]; rfl, (declared_holds both.1 both.2).symm⟩

end MethodLint.LinkedWalks
