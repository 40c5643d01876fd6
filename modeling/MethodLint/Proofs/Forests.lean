import Mathlib.Logic.Relation
import MethodLint.Proofs.LinkedWalks

/-! Stores that are built step by step. Nodes are made, with children or without,
are taken in by other nodes, or come in whole trees from documents; names are given
and given up in between. As long as no node is taken in twice or below itself, the
store stays a forest: what is below a node is a tree, and a link leads from a node to
its owner and nowhere else. -/
namespace MethodLint.Forests
open Node Outcomes LinkedTrees LinkedWalks

/-! ## Steps -/

/-- A node has another one among its children. -/
def Owns (s : Store) (p c : Nat) : Prop := c ∈ (s.cell p).children

/-- A node is somewhere below another one. -/
def Below (s : Store) (a x : Nat) : Prop := Relation.TransGen (Owns s) a x

/-- The node is there and nobody has taken it in. -/
def Free (s : Store) (c : Nat) : Prop := c < s.cells.size ∧ ∀ p, ¬ Owns s p c

/-- One step of building. A node is attached only while it is free, and never to itself
or to a node below it; names may come and go. -/
inductive Step (s : Store) : Store → Prop
  | create (h : Header) (children : List Nat) (free : ∀ c ∈ children, Free s c)
      (distinct : children.Nodup) : Step s (s.create h children).2
  | addChild (p c : Nat) (inside : p < s.cells.size) (free : Free s c) (apart : c ≠ p)
      (outside : ¬ Below s c p) : Step s (s.addChild p c)
  | read (v : Value) (root : Nat) (t : Store) (ran : s.read v = .ok (root, t)) : Step s t
  | hold (name : String) (a : Nat) (inside : a < s.cells.size) : Step s (s.hold name a)
  | drop (name : String) : Step s (s.drop name)

/-- The stores that steps lead to. -/
inductive Built : Store → Prop
  | empty : Built .empty
  | step {s t : Store} (built : Built s) (taken : Step s t) : Built t

/-- Every node has a tree below it, a link leads to an owner only, and no node is twice
among the children of another one. -/
structure Forest (s : Store) : Prop where
  tree : ∀ a < s.cells.size, ∃ n, Holds s n a
  owned : ∀ p c, (s.cell c).parent = some p → Owns s p c
  distinct : ∀ p, (s.cell p).children.Nodup

variable {s t : Store} {n : Node} {a b c p x : Nat} {h : Header} {children : List Nat}

/-! ## Owners and links -/

theorem owner_inside (owns : Owns s p c) : p < s.cells.size := by
  by_contra outside
  have none : s.cells[p]? = none := Array.getElem?_eq_none (Nat.le_of_not_lt outside)
  have childless : (s.cell p).children = [] := by
    rw [Store.cell, none]
    rfl
  rw [Owns, childless] at owns
  exact absurd owns List.not_mem_nil

theorem child_holds {nodes : List Node} {addresses : List Nat} (held : HoldsAll s p nodes addresses)
    (member : b ∈ addresses) : ∃ n ∈ nodes, Holds s n b := by
  induction addresses generalizing nodes with
  | nil => exact absurd member List.not_mem_nil
  | cons c rest ih =>
    obtain _ | ⟨here, _, others⟩ := held
    rcases List.mem_cons.mp member with rfl | later
    · exact ⟨_, List.mem_cons_self, here⟩
    · obtain ⟨m, listed, there⟩ := ih others later
      exact ⟨m, List.mem_cons_of_mem _ listed, there⟩

/-- In a forest a node owns just the nodes whose links lead to it. -/
theorem owns_iff (forest : Forest s) : Owns s p c ↔ (s.cell c).parent = some p := by
  refine ⟨fun owns => ?_, forest.owned p c⟩
  obtain ⟨_, _, _, below⟩ := forest.tree p (owner_inside owns)
  exact holdsAll_link below owns

theorem child_inside (forest : Forest s) (owns : Owns s p c) : c < s.cells.size := by
  obtain ⟨_, _, _, below⟩ := forest.tree p (owner_inside owns)
  obtain ⟨m, _, held⟩ := child_holds below owns
  exact holds_inside held

/-- Whether a node is free can be seen from the nodes there are. -/
theorem free_iff : Free s c ↔ c < s.cells.size ∧ ∀ p < s.cells.size, c ∉ (s.cell p).children := by
  refine and_congr_right fun _ => ⟨fun alone p _ => alone p, fun alone p owns => ?_⟩
  exact alone p (owner_inside owns) owns

/-- A free node is below nothing. -/
theorem free_not_below (free : Free s p) : ¬ Below s c p := by
  intro below
  obtain ⟨q, _, owns⟩ := Relation.TransGen.tail'_iff.mp below
  exact free.2 q owns

/-! ## Trees that grow -/

/-- Addresses that are linked to an owner and have trees are the children of a node that
has all of these trees. -/
theorem holdsAll_each {addresses : List Nat} (links : ∀ b ∈ addresses, (s.cell b).parent = some p)
    (trees : ∀ b ∈ addresses, ∃ n, Holds s n b) : ∃ nodes, HoldsAll s p nodes addresses := by
  induction addresses with
  | nil => exact ⟨[], .nil⟩
  | cons b rest ih =>
    obtain ⟨link, otherLinks⟩ := List.forall_mem_cons.mp links
    obtain ⟨⟨n, here⟩, otherTrees⟩ := List.forall_mem_cons.mp trees
    obtain ⟨nodes, later⟩ := ih otherLinks otherTrees
    exact ⟨n :: nodes, .cons here link later⟩

/-- What a step may do to the trees of some nodes, a set of them closed under children:
links still lead to owners, and a node that comes in below one of these has a tree of
its own. -/
structure Grown (s t : Store) (nodes : Nat → Prop) : Prop where
  size : s.cells.size ≤ t.cells.size
  links : ∀ p c, Owns t p c → (t.cell c).parent = some p
  closed : ∀ p c, nodes p → Owns s p c → nodes c
  further : ∀ p c, nodes p → Owns t p c → Owns s p c ∨ ∃ m, Holds t m c

mutual

/-- A node keeps having a tree as long as all children that come in below it have
trees of their own. -/
theorem grown_tree {nodes : Nat → Prop} (grown : Grown s t nodes) (n : Node) {a : Nat} (held : Holds s n a)
    (inside : nodes a) : ∃ m, Holds t m a := by
  cases n with
  | mk h cs =>
    obtain ⟨within, _, below⟩ := held
    have old := grown_trees grown cs below fun c member => grown.closed a c inside member
    have trees : ∀ c ∈ (t.cell a).children, ∃ m, Holds t m c := by
      intro c member
      rcases grown.further a c inside member with before | new
      · exact old c before
      · exact new
    obtain ⟨later, all⟩ := holdsAll_each (fun c => grown.links a c) trees
    exact ⟨.mk (t.cell a).header later, .node (Nat.lt_of_lt_of_le within grown.size) rfl all⟩

theorem grown_trees {nodes : Nat → Prop} (grown : Grown s t nodes) (cs : List Node) {p : Nat}
    {addresses : List Nat} (held : HoldsAll s p cs addresses) (inside : ∀ b ∈ addresses, nodes b) :
    ∀ b ∈ addresses, ∃ m, Holds t m b := by
  cases held with
  | nil => exact fun b member => absurd member List.not_mem_nil
  | cons here _ rest =>
    obtain ⟨first, others⟩ := List.forall_mem_cons.mp inside
    exact List.forall_mem_cons.mpr ⟨grown_tree grown _ here first, grown_trees grown _ rest others⟩

end

/-! ## What each step keeps -/

theorem size_linked (children : List Nat) (s : Store) (p : Nat) :
    (children.foldl (fun s c => s.link p c) s).cells.size = s.cells.size := by
  induction children generalizing s with
  | nil => rfl
  | cons c rest ih => rw [List.foldl_cons, ih, Store.link, size_setCell]

/-- Linking some nodes to a parent changes their links and nothing else. -/
theorem cell_linked (children : List Nat) (s : Store) (p : Nat) (inside : ∀ c ∈ children, c < s.cells.size)
    (b : Nat) : (children.foldl (fun s c => s.link p c) s).cell b =
      if b ∈ children then { s.cell b with parent := some p } else s.cell b := by
  induction children generalizing s with
  | nil => simp
  | cons c rest ih =>
    obtain ⟨here, others⟩ := List.forall_mem_cons.mp inside
    have cell := cell_setCell here { s.cell c with parent := some p } b
    rw [List.foldl_cons, ih (s.link p c) (by simpa [Store.link] using others), Store.link, cell]
    by_cases same : b = c
    · subst same
      simp
    · simp [same]

@[simp] theorem size_created (s : Store) (h : Header) (children : List Nat) :
    (s.create h children).2.cells.size = s.cells.size + 1 := by
  simp [Store.create, size_linked]

theorem cell_push (s : Store) (content : Cell) (b : Nat) :
    Store.cell ⟨s.cells.push content, s.held⟩ b = if b = s.cells.size then content else s.cell b := by
  unfold Store.cell
  rw [Array.getElem?_push]
  split <;> rfl

theorem cell_created (s : Store) (h : Header) (inside : ∀ c ∈ children, c < s.cells.size) (b : Nat) :
    (s.create h children).2.cell b =
      if b = s.cells.size then ⟨h, children, none, none⟩
      else if b ∈ children then { s.cell b with parent := some s.cells.size }
      else s.cell b := by
  have pushed := cell_push s ⟨h, children, none, none⟩ b
  have within : ∀ c ∈ children, c < (s.cells.push ⟨h, children, none, none⟩).size := by
    intro c member
    have older := inside c member
    rw [Array.size_push]
    omega
  have linked := cell_linked children ⟨s.cells.push ⟨h, children, none, none⟩, s.held⟩ s.cells.size within b
  refine linked.trans ?_
  rw [pushed]
  by_cases new : b = s.cells.size
  · have notChild : b ∉ children := fun member => absurd (inside b member) (by omega)
    rw [if_neg notChild, if_pos new, if_pos new]
  · rw [if_neg new, if_neg new]

theorem forest_create (forest : Forest s) (h : Header) (free : ∀ c ∈ children, Free s c)
    (distinct : children.Nodup) : Forest (s.create h children).2 := by
  have inside : ∀ c ∈ children, c < s.cells.size := fun c member => (free c member).1
  have cell := cell_created s h inside
  have size := size_created s h children
  generalize (s.create h children).2 = t at cell size ⊢
  have owns (p c : Nat) : Owns t p c ↔ (p = s.cells.size ∧ c ∈ children) ∨ Owns s p c := by
    by_cases new : p = s.cells.size
    · have absent : ¬ Owns s p c := fun owns => absurd (owner_inside owns) (by omega)
      have children : Owns t p c ↔ c ∈ children := by rw [Owns, cell, if_pos new]
      rw [children]
      exact ⟨fun member => .inl ⟨new, member⟩, fun either => (either.resolve_right absent).2⟩
    · have kept : Owns t p c ↔ Owns s p c := by
        rw [Owns, cell, if_neg new]
        split <;> rfl
      rw [kept]
      exact ⟨.inr, fun either => either.resolve_left fun here => new here.1⟩
  have links (p c : Nat) (owned : Owns t p c) : (t.cell c).parent = some p := by
    rcases (owns p c).mp owned with ⟨rfl, member⟩ | old
    · have older : c ≠ s.cells.size := Nat.ne_of_lt (inside c member)
      rw [cell, if_neg older, if_pos member]
    · have older : c ≠ s.cells.size := Nat.ne_of_lt (child_inside forest old)
      have kept : c ∉ children := fun member => (free c member).2 p old
      rw [cell, if_neg older, if_neg kept]
      exact (owns_iff forest).mp old
  have trees (b : Nat) (old : b < s.cells.size) : ∃ m, Holds t m b := by
    have grown : Grown s t (· < s.cells.size) := by
      refine ⟨by omega, links, fun p c _ => child_inside forest, fun p c older owned => .inl ?_⟩
      exact ((owns p c).mp owned).resolve_left fun new => Nat.ne_of_lt older new.1
    obtain ⟨n, held⟩ := forest.tree b old
    exact grown_tree grown n held old
  refine ⟨fun a within => ?_, fun p c link => ?_, fun p => ?_⟩
  · by_cases new : a = s.cells.size
    · have each : ∀ b ∈ (t.cell a).children, ∃ m, Holds t m b := by
        intro b member
        rcases (owns a b).mp member with ⟨_, listed⟩ | old
        · exact trees b (inside b listed)
        · exact trees b (child_inside forest old)
      obtain ⟨nodes, below⟩ := holdsAll_each (fun b => links a b) each
      exact ⟨.mk (t.cell a).header nodes, .node within rfl below⟩
    · exact trees a (by omega)
  · rw [owns]
    rw [cell] at link
    split at link
    · cases link
    · split at link
      · rename_i listed
        cases link
        exact .inl ⟨rfl, listed⟩
      · exact .inr (forest.owned p c link)
  · rw [cell]
    split
    · exact distinct
    · split
      · exact forest.distinct p
      · exact forest.distinct p

/-- Taking in a free node that is not above the parent keeps the forest: the tree of the
node stays what it is, and every tree with the parent in it grows by this one. -/
theorem forest_addChild (forest : Forest s) (inside : p < s.cells.size) (free : Free s c) (apart : c ≠ p)
    (outside : ¬ Below s c p) : Forest (s.addChild p c) := by
  have cell := cell_addChild inside free.1 apart
  have size := size_addChild s p c
  generalize s.addChild p c = t at cell size ⊢
  have owns (q b : Nat) : Owns t q b ↔ (q = p ∧ b = c) ∨ Owns s q b := by
    by_cases child : q = c
    · have other : q ≠ p := fun same => apart (child.symm.trans same)
      have kept : Owns t q b ↔ Owns s q b := by rw [Owns, cell, if_pos child, ← child, Owns]
      rw [kept]
      exact ⟨.inr, fun either => either.resolve_left fun here => other here.1⟩
    · by_cases parent : q = p
      · have appended : Owns t q b ↔ Owns s q b ∨ b = c := by
          rw [Owns, cell, if_neg child, if_pos parent, List.mem_append, List.mem_singleton, parent, Owns]
        rw [appended, or_comm, and_iff_right parent]
      · have kept : Owns t q b ↔ Owns s q b := by rw [Owns, cell, if_neg child, if_neg parent, Owns]
        rw [kept]
        exact ⟨.inr, fun either => either.resolve_left fun here => parent here.1⟩
  have links (q b : Nat) (owned : Owns t q b) : (t.cell b).parent = some q := by
    rcases (owns q b).mp owned with ⟨rfl, rfl⟩ | old
    · rw [cell, if_pos rfl]
    · have other : b ≠ c := fun same => free.2 q (same ▸ old)
      rw [cell, if_neg other]
      split
      · rename_i same
        exact same ▸ (owns_iff forest).mp old
      · exact (owns_iff forest).mp old
  -- Nothing changes among the nodes at and below `c`, because the parent is not one of them.
  have still : Grown s t (Relation.ReflTransGen (Owns s) c) := by
    refine ⟨by omega, links, fun _ _ => .tail, fun q b reached owned => .inl ?_⟩
    refine ((owns q b).mp owned).resolve_left fun new => ?_
    rw [new.1] at reached
    rcases Relation.reflTransGen_iff_eq_or_transGen.mp reached with same | below
    · exact apart same.symm
    · exact outside below
  obtain ⟨own, held⟩ := forest.tree c free.1
  have child : ∃ m, Holds t m c := grown_tree still own held .refl
  have grown : Grown s t fun _ => True := by
    refine ⟨by omega, links, fun _ _ _ _ => trivial, fun q b _ owned => ?_⟩
    rcases (owns q b).mp owned with ⟨_, rfl⟩ | old
    · exact .inr child
    · exact .inl old
  refine ⟨fun a within => ?_, fun q b link => ?_, fun q => ?_⟩
  · obtain ⟨n, held⟩ := forest.tree a (by omega)
    exact grown_tree grown n held trivial
  · rw [owns]
    rw [cell] at link
    split at link
    · rename_i same
      cases link
      exact .inl ⟨rfl, same⟩
    · refine .inr (forest.owned q b ?_)
      split at link
      · rename_i same
        exact same ▸ link
      · exact link
  · rw [cell]
    split
    · exact forest.distinct c
    · split
      · refine (forest.distinct p).append (List.nodup_singleton c) ?_
        rw [List.disjoint_singleton]
        exact free.2 p
      · exact forest.distinct q

/-- The work list of a reading names nodes of the store. -/
def Inside (s : Store) (work : List (Nat × Value)) : Prop := ∀ entry ∈ work, entry.1 < s.cells.size

theorem forest_adopt {work later : List (Nat × Value)} (items : List Value) {s t : Store} (forest : Forest s)
    (inside : p < s.cells.size) (listed : Inside s work)
    (ran : s.adopt p work items = .ok (t, later)) : Forest t ∧ Inside t later := by
  induction items generalizing s work with
  | nil =>
    cases ran
    exact ⟨forest, listed⟩
  | cons v rest ih =>
    rw [adopt_cons] at ran
    obtain ⟨h, _, ran⟩ := bind_ok_iff.mp ran
    have created : Forest (s.create h []).2 := forest_create forest h (List.forall_mem_nil _) .nil
    have childless : ∀ b, ¬ Owns (s.create h []).2 s.cells.size b := by
      intro b
      simp [Owns, cell_create]
    have free : Free (s.create h []).2 s.cells.size := by
      refine ⟨by simp, fun q owned => ?_⟩
      by_cases new : q = s.cells.size
      · exact childless _ (new ▸ owned)
      · rw [Owns, cell_create, if_neg new] at owned
        exact absurd (child_inside forest owned) (Nat.lt_irrefl _)
    have apart : ¬ Below (s.create h []).2 s.cells.size p := fun below => by
      obtain ⟨b, owned, _⟩ := Relation.TransGen.head'_iff.mp below
      exact childless b owned
    have taken := forest_addChild created (by simp; omega) free (Nat.ne_of_gt inside) apart
    refine ih taken (by simp; omega) ?_ ran
    refine List.forall_mem_cons.mpr ⟨by simp, fun entry member => ?_⟩
    have := listed entry member
    simp only [size_addChild, size_create]
    omega

theorem forest_readAll {work : List (Nat × Value)} (forest : Forest s) (listed : Inside s work)
    (ran : s.readAll work = .ok t) : Forest t := by
  induction s, work using Store.readAll.induct with
  | case1 s =>
    rw [readAll_nil] at ran
    cases ran
    exact forest
  | case2 s p v work e given =>
    rw [readAll_cons, given] at ran
    cases ran
  | case3 s p v work items given e failed =>
    rw [readAll_cons, given] at ran
    simp only [bind, Except.bind, failed] at ran
    cases ran
  | case4 s p v work items given s₁ work₁ adopted ih =>
    rw [readAll_cons, given] at ran
    simp only [bind, Except.bind, adopted] at ran
    obtain ⟨here, others⟩ := List.forall_mem_cons.mp listed
    obtain ⟨forest, listed⟩ := forest_adopt items forest here others adopted
    exact ih forest listed ran

/-- Reading a document makes nodes and takes them in, one after the other. -/
theorem forest_read {v : Value} {root : Nat} (forest : Forest s) (ran : s.read v = .ok (root, t)) :
    Forest t := by
  obtain ⟨h, _, ran⟩ := bind_ok_iff.mp ran
  obtain ⟨u, filled, ran⟩ := bind_ok_iff.mp ran
  cases ran
  have created : Forest (s.create h []).2 := forest_create forest h (List.forall_mem_nil _) .nil
  refine forest_readAll created (fun entry member => ?_) filled
  rw [List.mem_singleton.mp member]
  exact Nat.lt_of_lt_of_eq (Nat.lt_succ_self _) (size_create s h).symm

theorem forest_hold (forest : Forest s) (name : String) (a : Nat) : Forest (s.hold name a) := by
  have kept := cell_hold s name a
  have size : (s.hold name a).cells.size = s.cells.size := by simp [Store.hold]
  refine ⟨fun b within => ?_, fun p c link => ?_, fun p => ?_⟩
  · obtain ⟨n, held⟩ := forest.tree b (size ▸ within)
    exact ⟨n, holds_hold held name a⟩
  · rw [(kept c).2.2] at link
    rw [Owns, (kept p).2.1]
    exact forest.owned p c link
  · rw [(kept p).2.1]
    exact forest.distinct p

theorem forest_drop (forest : Forest s) (name : String) : Forest (s.drop name) := by
  refine ⟨fun b within => ?_, fun p c => forest.owned p c, fun p => forest.distinct p⟩
  obtain ⟨n, held⟩ := forest.tree b within
  exact ⟨n, holds_congr n held (Nat.le_refl _) fun _ _ => ⟨rfl, rfl, rfl⟩⟩

/-- Every step leads from a forest to a forest. -/
theorem forest_step (forest : Forest s) (taken : Step s t) : Forest t := by
  cases taken with
  | create h children free distinct => exact forest_create forest h free distinct
  | addChild p c inside free apart outside => exact forest_addChild forest inside free apart outside
  | read v root t ran => exact forest_read forest ran
  | hold name a inside => exact forest_hold forest name a
  | drop name => exact forest_drop forest name

/-- Whatever steps are taken, the store is a forest. -/
theorem forest_built (built : Built s) : Forest s := by
  induction built with
  | empty =>
    have childless (p : Nat) : (Store.empty.cell p).children = [] := rfl
    refine ⟨fun a within => ?_, fun p c link => ?_, fun p => ?_⟩
    · exact absurd within (Nat.not_lt_zero a)
    · cases link
    · rw [childless]
      exact .nil
  | step _ taken ih => exact forest_step ih taken

end MethodLint.Forests
