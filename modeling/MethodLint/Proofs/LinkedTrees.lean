import Mathlib.Data.List.Nodup
import MethodLint.Proofs.Documents
import MethodLint.Tree.Linked

/-! Trees in a store. A tree is at an address if the cells from there on have its
headers and its children in their order, and the link of every child leads back to
the node that owns it. Both ways of building a tree bring this about: adding its
nodes child by child, and reading the document of the tree by a work list. -/
namespace MethodLint.LinkedTrees
open Node Outcomes Documents

/-! ## The tree at an address -/

mutual

/-- The tree at an address is this one, and the links in it lead from each child to
its owner. -/
inductive Holds (s : Store) : Node → Nat → Prop where
  | node (inside : a < s.cells.size) (header : (s.cell a).header = h)
      (below : HoldsAll s a cs (s.cell a).children) : Holds s (.mk h cs) a

/-- The trees at some addresses are these, and each of their roots is linked to the owner. -/
inductive HoldsAll (s : Store) : Nat → List Node → List Nat → Prop where
  | nil : HoldsAll s owner [] []
  | cons (held : Holds s n b) (link : (s.cell b).parent = some owner)
      (rest : HoldsAll s owner later addresses) : HoldsAll s owner (n :: later) (b :: addresses)

end

variable {s t u : Store} {n : Node} {a b c p : Nat} {h : Header}

theorem holds_header (held : Holds s n a) : (s.cell a).header = n.header := by
  cases held
  assumption

theorem holds_inside (held : Holds s n a) : a < s.cells.size := by
  cases held
  assumption

mutual

/-- The store alone says which tree is at an address. -/
theorem holds_unique (n : Node) {m : Node} {a : Nat} (first : Holds s n a) (second : Holds s m a) :
    n = m := by
  cases n with
  | mk h cs =>
    obtain ⟨_, header, below⟩ := first
    obtain ⟨_, same, other⟩ := second
    rw [header.symm.trans same, holdsAll_unique cs below other]

theorem holdsAll_unique (nodes : List Node) {others : List Node} {p : Nat} {addresses : List Nat}
    (first : HoldsAll s p nodes addresses) (second : HoldsAll s p others addresses) : nodes = others := by
  cases first with
  | nil =>
    cases second
    rfl
  | cons here _ rest =>
    obtain _ | ⟨other, _, later⟩ := second
    rw [holds_unique _ here other, holdsAll_unique _ rest later]

end

theorem holdsAll_link {nodes : List Node} {addresses : List Nat} (held : HoldsAll s p nodes addresses)
    (member : b ∈ addresses) : (s.cell b).parent = some p := by
  induction addresses generalizing nodes with
  | nil => exact absurd member List.not_mem_nil
  | cons c rest ih =>
    obtain _ | ⟨_, link, others⟩ := held
    rcases List.mem_cons.mp member with rfl | later
    · exact link
    · exact ih others later

mutual

/-- A tree stays where it is as long as all headers, children and links do. -/
theorem holds_congr (n : Node) {s t : Store} {a : Nat} (held : Holds s n a)
    (size : s.cells.size ≤ t.cells.size)
    (same : ∀ i < s.cells.size, (t.cell i).header = (s.cell i).header ∧
      (t.cell i).children = (s.cell i).children ∧ (t.cell i).parent = (s.cell i).parent) : Holds t n a := by
  cases n with
  | mk h cs =>
    obtain ⟨inside, header, below⟩ := held
    obtain ⟨sameHeader, sameChildren, _⟩ := same a inside
    refine .node (by omega) (sameHeader.trans header) ?_
    rw [sameChildren]
    exact holdsAll_congr cs below size same

theorem holdsAll_congr (nodes : List Node) {s t : Store} {p : Nat} {addresses : List Nat}
    (held : HoldsAll s p nodes addresses) (size : s.cells.size ≤ t.cells.size)
    (same : ∀ i < s.cells.size, (t.cell i).header = (s.cell i).header ∧
      (t.cell i).children = (s.cell i).children ∧ (t.cell i).parent = (s.cell i).parent) :
    HoldsAll t p nodes addresses := by
  cases held with
  | nil => exact .nil
  | cons here link rest =>
    refine .cons (holds_congr _ here size same) ?_ (holdsAll_congr _ rest size same)
    rw [(same _ (holds_inside here)).2.2, link]

end

/-! ## Cells -/

theorem cell_setCell (inside : a < s.cells.size) (content : Cell) (b : Nat) :
    (s.setCell a content).cell b = if b = a then content else s.cell b := by
  unfold Store.cell Store.setCell
  rw [Array.getElem?_setIfInBounds]
  by_cases same : a = b
  · subst same
    simp [inside]
  · simp [same, Ne.symm same]

@[simp] theorem size_setCell (s : Store) (a : Nat) (content : Cell) :
    (s.setCell a content).cells.size = s.cells.size := by simp [Store.setCell]

theorem cell_create (s : Store) (h : Header) (b : Nat) :
    (s.create h []).2.cell b = if b = s.cells.size then ⟨h, [], none, none⟩ else s.cell b := by
  unfold Store.cell Store.create
  simp only [List.foldl_nil, Array.getElem?_push]
  split <;> rfl

@[simp] theorem size_create (s : Store) (h : Header) : (s.create h []).2.cells.size = s.cells.size + 1 := by
  simp [Store.create]

@[simp] theorem size_addChild (s : Store) (p c : Nat) : (s.addChild p c).cells.size = s.cells.size := by
  simp [Store.addChild, Store.link]

/-- Taking a child in changes the children of the parent and the link of the child. -/
theorem cell_addChild (parent : p < s.cells.size) (child : c < s.cells.size) (apart : c ≠ p) (b : Nat) :
    (s.addChild p c).cell b =
      if b = c then { s.cell c with parent := some p }
      else if b = p then { s.cell p with children := (s.cell p).children ++ [c] }
      else s.cell b := by
  unfold Store.addChild Store.link
  rw [cell_setCell (by simpa using child), cell_setCell parent, cell_setCell parent, if_neg apart]

/-- Holding a node under a name changes its label and nothing else. -/
theorem cell_hold (s : Store) (name : String) (b i : Nat) :
    ((s.hold name b).cell i).header = (s.cell i).header ∧
      ((s.hold name b).cell i).children = (s.cell i).children ∧
      ((s.hold name b).cell i).parent = (s.cell i).parent := by
  by_cases inside : b < s.cells.size
  · have content : (s.hold name b).cell i = if i = b then { s.cell b with label := some name } else s.cell i :=
      cell_setCell inside _ i
    rw [content]
    split
    · rename_i same
      subst same
      exact ⟨rfl, rfl, rfl⟩
    · exact ⟨rfl, rfl, rfl⟩
  · have content : (s.hold name b).cell i = s.cell i := by
      simp [Store.hold, Store.setCell, Store.cell, Array.setIfInBounds, inside]
    rw [content]
    exact ⟨rfl, rfl, rfl⟩

/-- A tree may be held under a name where it is. -/
theorem holds_hold (held : Holds s n a) (name : String) (b : Nat) : Holds (s.hold name b) n a :=
  holds_congr n held (by simp [Store.hold]) fun i _ => cell_hold s name b i

/-! ## Adding a tree -/

/-- A store that has all that another one had in the cells after an address, and in
the cell at the address the same header and children. -/
structure Keeps (t u : Store) (a : Nat) : Prop where
  size : t.cells.size ≤ u.cells.size
  header : (u.cell a).header = (t.cell a).header
  children : (u.cell a).children = (t.cell a).children
  after : ∀ i, a < i → i < t.cells.size → u.cell i = t.cell i

/-- A store with all the cells of another one, at one address with further children. -/
structure Grows (s t : Store) (p : Nat) (further : List Nat) : Prop where
  size : s.cells.size ≤ t.cells.size
  held : t.held = s.held
  parent : t.cell p = { s.cell p with children := (s.cell p).children ++ further }
  others : ∀ i < s.cells.size, i ≠ p → t.cell i = s.cell i

/-- A store with all the cells of another one as they were. -/
structure Extends (s t : Store) : Prop where
  size : s.cells.size < t.cells.size
  held : t.held = s.held
  cells : ∀ i < s.cells.size, t.cell i = s.cell i

theorem insert_node (s : Store) (h : Header) (cs : List Node) :
    s.insert (.mk h cs) = (s.create h []).2.insertAll s.cells.size cs := rfl

theorem insertAll_cons (s : Store) (p : Nat) (n : Node) (later : List Node) :
    s.insertAll p (n :: later) = ((s.insert n).2.addChild p (s.insert n).1).insertAll p later := rfl

mutual

/-- A tree is added at the first free address, and stays there as long as its cells do. -/
theorem insert_holds (n : Node) (s : Store) : (s.insert n).1 = s.cells.size ∧ Extends s (s.insert n).2 ∧
    ∀ u, Keeps (s.insert n).2 u s.cells.size → Holds u n s.cells.size := by
  cases n with
  | mk h cs =>
    obtain ⟨bs, first, grown, held⟩ := insertAll_holds cs (s.create h []).2 s.cells.size (by simp)
    rw [insert_node]
    generalize (s.create h []).2.insertAll s.cells.size cs = added at first grown held ⊢
    have larger : s.cells.size + 1 ≤ added.2.cells.size := size_create s h ▸ grown.size
    have root : added.2.cell s.cells.size = ⟨h, bs, none, none⟩ := by
      rw [grown.parent, cell_create, if_pos rfl]
      rfl
    have before : ∀ i < s.cells.size, added.2.cell i = s.cell i := by
      intro i inside
      refine (grown.others i (by simp; omega) (by omega)).trans ?_
      rw [cell_create, if_neg (by omega)]
    refine ⟨first, ⟨larger, grown.held, before⟩, fun u kept => .node ?_ ?_ ?_⟩
    · exact Nat.lt_of_lt_of_le larger kept.size
    · rw [kept.header, root]
    · rw [kept.children, root]
      refine held u kept.size fun i new inside => kept.after i ?_ inside
      rw [size_create] at new
      exact new

/-- Trees that are added are the further children of their parent, and stay there as
long as the new cells do. -/
theorem insertAll_holds (nodes : List Node) (s : Store) (p : Nat) (inside : p < s.cells.size) :
    ∃ bs, (s.insertAll p nodes).1 = p ∧ Grows s (s.insertAll p nodes).2 p bs ∧
      ∀ u, (s.insertAll p nodes).2.cells.size ≤ u.cells.size →
        (∀ i, s.cells.size ≤ i → i < (s.insertAll p nodes).2.cells.size →
          u.cell i = (s.insertAll p nodes).2.cell i) → HoldsAll u p nodes bs := by
  cases nodes with
  | nil =>
    refine ⟨[], rfl, ⟨Nat.le_refl _, rfl, ?_, fun _ _ _ => rfl⟩, fun _ _ _ => .nil⟩
    rw [List.append_nil]
    rfl
  | cons n later =>
    obtain ⟨child, extended, stays⟩ := insert_holds n s
    rw [insertAll_cons, child]
    generalize (s.insert n).2 = s₁ at extended stays ⊢
    have larger := extended.size
    have taken := cell_addChild (s := s₁) (p := p) (c := s.cells.size) (by omega) (by omega) (by omega)
    obtain ⟨bs, first, grown, held⟩ := insertAll_holds later (s₁.addChild p s.cells.size) p (by simp; omega)
    generalize (s₁.addChild p s.cells.size).insertAll p later = added at first grown held ⊢
    have further : s₁.cells.size ≤ added.2.cells.size := size_addChild s₁ _ _ ▸ grown.size
    -- What the child's own cells became: only its link is new.
    have childCell : added.2.cell s.cells.size = { s₁.cell s.cells.size with parent := some p } := by
      rw [grown.others _ (by simp; omega) (by omega), taken, if_pos rfl]
    have below : ∀ i, i ≠ s.cells.size → i ≠ p → i < s₁.cells.size → added.2.cell i = s₁.cell i := by
      intro i notChild notParent inside
      rw [grown.others i (by simpa using inside) notParent, taken, if_neg notChild, if_neg notParent]
    have parent : added.2.cell p = { s.cell p with children := (s.cell p).children ++ s.cells.size :: bs } := by
      rw [grown.parent, taken, if_neg (by omega), if_pos rfl, extended.cells p inside, List.append_assoc]
      rfl
    refine ⟨s.cells.size :: bs, first, ⟨by omega, grown.held.trans extended.held, parent, ?_⟩, ?_⟩
    · intro i old notParent
      rw [below i (by omega) notParent (by omega), extended.cells i old]
    · intro u size same
      have kept : Keeps s₁ u s.cells.size := by
        refine ⟨by omega, ?_, ?_, fun i after inside => ?_⟩
        · rw [same _ (Nat.le_refl _) (by omega), childCell]
        · rw [same _ (Nat.le_refl _) (by omega), childCell]
        · rw [same i (by omega) (by omega), below i (by omega) (by omega) inside]
      refine .cons (stays u kept) ?_ (held u size fun i new inside => same i ?_ inside)
      · rw [same _ (Nat.le_refl _) (by omega), childCell]
      · rw [size_addChild] at new
        omega

end

/-! ## Reading a document -/

/-- What taking in new nodes does: the parent has further children, whose cells have
these headers, no children yet, and their links. -/
structure Adopts (s t : Store) (p : Nat) (headers : List Header) (further : List Nat) : Prop extends
    Grows s t p further where
  fresh : ∀ i ∈ further, s.cells.size ≤ i ∧ i < t.cells.size
  distinct : further.Nodup
  cells : List.Forall₂ (fun h b => t.cell b = ⟨h, [], some p, none⟩) headers further

theorem adopt_cons (s : Store) (p : Nat) (work : List (Nat × Value)) (v : Value) (rest : List Value) :
    s.adopt p work (v :: rest) = Header.ofValue v >>= fun h =>
      ((s.create h []).2.addChild p s.cells.size).adopt p ((s.cells.size, v) :: work) rest := rfl

/-- A new node that is taken in at once. -/
theorem cell_adopted (inside : p < s.cells.size) (h : Header) (b : Nat) :
    ((s.create h []).2.addChild p s.cells.size).cell b =
      if b = s.cells.size then ⟨h, [], some p, none⟩
      else if b = p then { s.cell p with children := (s.cell p).children ++ [s.cells.size] }
      else s.cell b := by
  rw [cell_addChild (by simp; omega) (by simp) (by omega), cell_create, cell_create, cell_create, if_pos rfl,
    if_neg (by omega : p ≠ s.cells.size)]
  by_cases new : b = s.cells.size
  · rw [if_pos new, if_pos new]
  · simp only [if_neg new]

/-- Nodes are taken in if all of them have headers, and then all of them are put on the
work list, the last one on top. -/
theorem adopt_ok {headers : List Header} (items : List Value) (s : Store) (work : List (Nat × Value))
    (inside : p < s.cells.size) (read : items.mapM Header.ofValue = .ok headers) :
    ∃ t further, s.adopt p work items = .ok (t, (further.zip items).reverse ++ work) ∧
      Adopts s t p headers further := by
  induction items generalizing s work headers with
  | nil =>
    cases read
    refine ⟨s, [], rfl, ⟨⟨Nat.le_refl _, rfl, ?_, fun _ _ _ => rfl⟩, by simp, .nil, .nil⟩⟩
    rw [List.append_nil]
  | cons v rest ih =>
    obtain _ | ⟨here, later⟩ := mapM_ok_iff.mp read
    rename_i h headers
    have taken := cell_adopted inside h
    have size : ((s.create h []).2.addChild p s.cells.size).cells.size = s.cells.size + 1 := by simp
    have held : ((s.create h []).2.addChild p s.cells.size).held = s.held := rfl
    rw [adopt_cons, here]
    simp only [bind, Except.bind]
    generalize (s.create h []).2.addChild p s.cells.size = s₁ at taken size held ⊢
    obtain ⟨t, further, ran, adopts⟩ := ih s₁ ((s.cells.size, v) :: work) (by omega) (mapM_ok_iff.mpr later)
    refine ⟨t, s.cells.size :: further, by simp [ran], ?_⟩
    have larger := adopts.size
    have fresh := adopts.fresh
    refine ⟨⟨by omega, adopts.held.trans held, ?_, ?_⟩, ?_, ?_, .cons ?_ adopts.cells⟩
    · rw [adopts.parent, taken, if_neg (by omega), if_pos rfl, List.append_assoc]
      rfl
    · intro i old notParent
      rw [adopts.others i (by omega) notParent, taken, if_neg (by omega), if_neg notParent]
    · refine List.forall_mem_cons.mpr ⟨by omega, fun i member => ?_⟩
      have := fresh i member
      omega
    · refine List.nodup_cons.mpr ⟨fun member => ?_, adopts.distinct⟩
      have := (fresh _ member).1
      omega
    · rw [adopts.others _ (by omega) (by omega), taken, if_pos rfl]

theorem adopt_error {e : Fault} (items : List Value) (s : Store) (p : Nat) (work : List (Nat × Value))
    (failed : items.mapM Header.ofValue = .error e) : s.adopt p work items = .error e := by
  induction items generalizing s work with
  | nil => cases failed
  | cons v rest ih =>
    rw [List.mapM_cons] at failed
    rw [adopt_cons]
    cases here : Header.ofValue v with
    | error other =>
      rw [here] at failed
      cases failed
      rfl
    | ok h =>
      rw [here] at failed
      refine ih _ _ ?_
      cases later : rest.mapM Header.ofValue with
      | error other =>
        simp only [later, bind, Except.bind] at failed
        exact failed
      | ok headers =>
        simp only [later, bind, Except.bind] at failed
        cases failed

theorem readAll_nil (s : Store) : s.readAll [] = .ok s := by rw [Store.readAll]

theorem readAll_cons (s : Store) (p : Nat) (v : Value) (work : List (Nat × Value)) :
    s.readAll ((p, v) :: work) =
      childItems v >>= fun items => s.adopt p work items >>= fun later => later.1.readAll later.2 := by
  rw [Store.readAll]
  split
  · rename_i given
    rw [given]
    rfl
  · rename_i given
    rw [given]
    simp only [bind, Except.bind]
    split <;> simp [*]

/-- The nodes on a work list are different ones, and have no children yet. -/
structure Pending (s : Store) (work : List (Nat × Value)) : Prop where
  distinct : (work.map Prod.fst).Nodup
  fresh : ∀ entry ∈ work, entry.1 < s.cells.size ∧ (s.cell entry.1).children = []

/-- A store with all the cells of another one, where only those at some addresses have got
children. -/
structure Fills (s t : Store) (roots : List Nat) : Prop where
  size : s.cells.size ≤ t.cells.size
  held : t.held = s.held
  filled : ∀ i ∈ roots, i < s.cells.size →
    (t.cell i).header = (s.cell i).header ∧ (t.cell i).parent = (s.cell i).parent
  others : ∀ i < s.cells.size, i ∉ roots → t.cell i = s.cell i

/-- Children that were taken in stand below their parent once everything below them does. -/
theorem holdsAll_adopted {items : List Value} {below : List Node} {further : List Nat}
    (each : List.Forall₂ (fun item c => Node.ofValue item = .ok c) items below)
    (cells : List.Forall₂ (fun h b => s.cell b = ⟨h, [], some p, none⟩) (below.map Node.header) further)
    (inside : ∀ b ∈ further, b < t.cells.size ∧ (t.cell b).header = (s.cell b).header ∧
      (t.cell b).parent = (s.cell b).parent)
    (filled : ∀ entry ∈ further.zip items, ∀ below, childrenOf entry.2 = .ok below →
      HoldsAll t entry.1 below (t.cell entry.1).children) : HoldsAll t p below further := by
  induction each generalizing further with
  | nil =>
    cases cells
    exact .nil
  | @cons item c items below made _ ih =>
    obtain _ | ⟨cell, cells⟩ := cells
    obtain ⟨⟨within, header, link⟩, others⟩ := List.forall_mem_cons.mp inside
    obtain ⟨first, rest⟩ := List.forall_mem_cons.mp filled
    rw [cell] at header link
    refine .cons ?_ link (ih cells others rest)
    obtain ⟨h, inner⟩ := c
    exact .node within header (first inner (ofValue_parts made).2)

/-- The nodes that are to be read after some were taken in: the last of these first. -/
theorem adopted_roots {further : List Nat} {items : List Value} (work : List (Nat × Value))
    (lengths : further.length = items.length) :
    ((further.zip items).reverse ++ work).map Prod.fst = further.reverse ++ work.map Prod.fst := by
  rw [List.map_append, List.map_reverse, List.map_fst_zip (by omega)]

theorem pending_adopted {headers : List Header} {further : List Nat} {items : List Value} {v : Value}
    {work : List (Nat × Value)} (pending : Pending s ((p, v) :: work)) (adopts : Adopts s t p headers further)
    (lengths : further.length = items.length) : Pending t ((further.zip items).reverse ++ work) := by
  obtain ⟨rootless, apart⟩ := List.nodup_cons.mp pending.distinct
  refine ⟨?_, fun entry member => ?_⟩
  · rw [adopted_roots work lengths]
    refine (List.nodup_reverse.mpr adopts.distinct).append apart fun i new old => ?_
    obtain ⟨entry, member, rfl⟩ := List.mem_map.mp old
    have inside := (pending.fresh entry (List.mem_cons_of_mem _ member)).1
    have fresh := (adopts.fresh entry.1 (List.mem_reverse.mp new)).1
    omega
  · rcases List.mem_append.mp member with new | old
    · have listed : entry.1 ∈ further := (List.of_mem_zip (List.mem_reverse.mp new)).1
      refine ⟨(adopts.fresh _ listed).2, ?_⟩
      obtain ⟨h, _, cell⟩ := item_of_mem adopts.cells listed
      rw [cell]
    · obtain ⟨inside, childless⟩ := pending.fresh entry (List.mem_cons_of_mem _ old)
      have different : entry.1 ≠ p := fun same => rootless (List.mem_map.mpr ⟨entry, old, same⟩)
      exact ⟨Nat.lt_of_lt_of_le inside adopts.size, by rw [adopts.others _ inside different, childless]⟩

section

variable {headers : List Header} {further : List Nat} {v : Value} {work : List (Nat × Value)}

/-- Where nodes were taken in and then filled, all others are as they were before both. -/
theorem cell_filled (adopts : Adopts s t p headers further)
    (fills : Fills t u (further.reverse ++ work.map Prod.fst)) {i : Nat} (inside : i < s.cells.size)
    (old : i ∉ work.map Prod.fst) : u.cell i = t.cell i := by
  refine fills.others i (Nat.lt_of_lt_of_le inside adopts.size) fun member => ?_
  refine (List.mem_append.mp member).elim (fun new => ?_) old
  exact absurd inside (Nat.not_lt.mpr (adopts.fresh i (List.mem_reverse.mp new)).1)

/-- A node whose children were taken in has just these once the rest is filled. -/
theorem root_filled (pending : Pending s ((p, v) :: work)) (adopts : Adopts s t p headers further)
    (fills : Fills t u (further.reverse ++ work.map Prod.fst)) :
    u.cell p = { s.cell p with children := further } := by
  obtain ⟨inside, childless⟩ := pending.fresh (p, v) (by simp)
  rw [cell_filled adopts fills inside (List.nodup_cons.mp pending.distinct).1, adopts.parent, childless,
    List.nil_append]

/-- Taking in the children of a node and filling the rest fills the node and the rest. -/
theorem fills_adopted (pending : Pending s ((p, v) :: work)) (adopts : Adopts s t p headers further)
    (fills : Fills t u (further.reverse ++ work.map Prod.fst)) : Fills s u (p :: work.map Prod.fst) := by
  have rootless := (List.nodup_cons.mp pending.distinct).1
  refine ⟨Nat.le_trans adopts.size fills.size, fills.held.trans adopts.held, ?_, fun i within new => ?_⟩
  · refine List.forall_mem_cons.mpr ⟨fun _ => ?_, fun i member within => ?_⟩
    · rw [root_filled pending adopts fills]
      exact ⟨rfl, rfl⟩
    · have different : i ≠ p := fun same => rootless (same ▸ member)
      rw [← adopts.others i within different]
      exact fills.filled i (List.mem_append_right _ member) (Nat.lt_of_lt_of_le within adopts.size)
  · rw [List.mem_cons, not_or] at new
    rw [cell_filled adopts fills within new.2, adopts.others i within new.1]

/-- A node has everything below it that it should have once its children were taken in
and everything below these was filled. -/
theorem holdsAll_filled {items : List Value} {below : List Node}
    (made : List.Forall₂ (fun item c => Node.ofValue item = .ok c) items below)
    (pending : Pending s ((p, v) :: work)) (adopts : Adopts s t p (below.map Node.header) further)
    (fills : Fills t u (further.reverse ++ work.map Prod.fst))
    (filled : ∀ entry ∈ further.zip items, ∀ inner, childrenOf entry.2 = .ok inner →
      HoldsAll u entry.1 inner (u.cell entry.1).children) : HoldsAll u p below (u.cell p).children := by
  rw [root_filled pending adopts fills]
  refine holdsAll_adopted made adopts.cells (fun b member => ?_) filled
  have inside := (adopts.fresh b member).2
  refine ⟨Nat.lt_of_lt_of_le inside fills.size, fills.filled b ?_ inside⟩
  exact List.mem_append_left _ (List.mem_reverse.mpr member)

end

/-- A work list is read if all of it describes nodes, and then everything that its
values describe stands below its nodes. -/
theorem readAll_ok (s : Store) (work : List (Nat × Value)) (pending : Pending s work)
    (each : ∀ entry ∈ work, ∃ below, childrenOf entry.2 = .ok below) :
    ∃ t, s.readAll work = .ok t ∧ Fills s t (work.map Prod.fst) ∧
      ∀ entry ∈ work, ∀ below, childrenOf entry.2 = .ok below →
        HoldsAll t entry.1 below (t.cell entry.1).children := by
  induction s, work using Store.readAll.induct with
  | case1 s => exact ⟨s, readAll_nil s, ⟨Nat.le_refl _, rfl, by simp, fun _ _ _ => rfl⟩, by simp⟩
  | case2 s p v work e given =>
    obtain ⟨below, read⟩ := each (p, v) (by simp)
    rw [childrenOf_items, given] at read
    cases read
  | case3 s p v work items given e failed =>
    obtain ⟨below, read⟩ := each (p, v) (by simp)
    rw [childrenOf_items, given] at read
    have made := nodesOf_ok_iff.mp read
    obtain ⟨t, further, ran, _⟩ := adopt_ok items s work (pending.fresh (p, v) (by simp)).1 (headers_ok made)
    rw [failed] at ran
    cases ran
  | case4 s p v work items given s₁ work₁ adopted ih =>
    obtain ⟨⟨below, read⟩, others⟩ := List.forall_mem_cons.mp each
    have made : List.Forall₂ (fun item c => Node.ofValue item = .ok c) items below := by
      rw [childrenOf_items, given] at read
      exact nodesOf_ok_iff.mp read
    obtain ⟨t, further, ran, adopts⟩ :=
      adopt_ok items s work (pending.fresh (p, v) (by simp)).1 (headers_ok made)
    rw [adopted] at ran
    cases ran
    have lengths : further.length = items.length := by
      rw [← adopts.cells.length_eq, List.length_map, made.length_eq]
    have described : ∀ entry ∈ (further.zip items).reverse ++ work, ∃ below, childrenOf entry.2 = .ok below := by
      intro entry member
      rcases List.mem_append.mp member with new | old
      · obtain ⟨c, _, one⟩ := answer_of_mem made (List.of_mem_zip (List.mem_reverse.mp new)).2
        exact ⟨c.children, (ofValue_parts one).2⟩
      · exact others entry old
    obtain ⟨u, ran, fills, filled⟩ := ih (pending_adopted pending adopts lengths) described
    rw [adopted_roots work lengths] at fills
    obtain ⟨new, old⟩ := List.forall_mem_append.mp filled
    refine ⟨u, ?_, fills_adopted pending adopts fills,
      List.forall_mem_cons.mpr ⟨fun other same => ?_, old⟩⟩
    · rw [readAll_cons, given]
      simp only [bind, Except.bind, adopted, ran]
    · cases read.symm.trans same
      exact holdsAll_filled made pending adopts fills fun entry member => new entry (List.mem_reverse.mpr member)

/-- What is below some values is read last one first, as the work list takes them. -/
theorem childrenOfEach_mapM (items : List Value) :
    childrenOfEach items = (items.reverse.mapM childrenOf).map List.reverse := by
  induction items with
  | nil => rfl
  | cons v rest ih =>
    rw [childrenOfEach, ih, List.reverse_cons, List.mapM_append]
    cases rest.reverse.mapM childrenOf with
    | error e => rfl
    | ok later =>
      cases here : childrenOf v <;> simp [here, bind, Except.bind, Except.map, pure, Except.pure]

/-- A work list with a value that describes no nodes is not read, and the first fault
on the way is the same. -/
theorem readAll_error {e : Fault} (s : Store) (work : List (Nat × Value)) (pending : Pending s work)
    (failed : (work.map Prod.snd).mapM childrenOf = .error e) : s.readAll work = .error e := by
  induction s, work using Store.readAll.induct with
  | case1 s => cases failed
  | case2 s p v work other given =>
    rw [readAll_cons, given]
    rw [List.map_cons, List.mapM_cons, childrenOf_items, given] at failed
    cases failed
    rfl
  | case3 s p v work items given other refused =>
    rw [readAll_cons, given]
    rw [List.map_cons, List.mapM_cons, childrenOf_items, given] at failed
    cases headers : items.mapM Header.ofValue with
    | ok headers =>
      obtain ⟨t, further, ran, _⟩ := adopt_ok items s work (pending.fresh (p, v) (by simp)).1 headers
      rw [refused] at ran
      cases ran
    | error first =>
      simp only [nodesOf, headers, bind, Except.bind] at failed
      cases failed
      simp only [bind, Except.bind, adopt_error items s p work headers]
  | case4 s p v work items given s₁ work₁ adopted ih =>
    rw [List.map_cons, List.mapM_cons, childrenOf_items, given] at failed
    cases headers_read : items.mapM Header.ofValue with
    | error first =>
      rw [adopt_error items s p work headers_read] at adopted
      cases adopted
    | ok headers =>
      obtain ⟨t, further, ran, adopts⟩ := adopt_ok items s work (pending.fresh (p, v) (by simp)).1
        headers_read
      rw [adopted] at ran
      cases ran
      have lengths : further.length = items.length := by
        rw [← adopts.cells.length_eq, (mapM_ok_iff.mp headers_read).length_eq]
      have values : ((further.zip items).reverse ++ work).map Prod.snd = items.reverse ++ work.map Prod.snd := by
        rw [List.map_append, List.map_reverse, List.map_snd_zip (by omega)]
      rw [readAll_cons, given]
      simp only [bind, Except.bind, adopted]
      refine ih (pending_adopted pending adopts lengths) ?_
      rw [values, List.mapM_append]
      simp only [nodesOf, headers_read, childrenOfEach_mapM, bind, Except.bind] at failed ⊢
      generalize items.reverse.mapM childrenOf = first at failed ⊢
      generalize (work.map Prod.snd).mapM childrenOf = later at failed ⊢
      cases first with
      | error other => exact failed
      | ok below =>
        cases later with
        | error other => exact failed
        | ok others => cases failed

theorem read_header (s : Store) {v : Value} {h : Header} (here : Header.ofValue v = .ok h) :
    s.read v = ((s.create h []).2.readAll [(s.cells.size, v)]).map fun t => (s.cells.size, t) := by
  rw [Store.read, here]
  rfl

theorem pending_root (s : Store) (h : Header) (v : Value) : Pending (s.create h []).2 [(s.cells.size, v)] := by
  refine ⟨List.nodup_singleton _, fun entry member => ?_⟩
  rw [List.mem_singleton.mp member, cell_create, if_pos rfl, size_create]
  exact ⟨Nat.lt_succ_self _, rfl⟩

/-- A document that describes a tree is read into a store: the tree is at the first free
address then, and all that was there stays as it was. -/
theorem read_ok (s : Store) {v : Value} {n : Node} (made : Node.ofValue v = .ok n) :
    ∃ t, s.read v = .ok (s.cells.size, t) ∧ Extends s t ∧ Holds t n s.cells.size := by
  obtain ⟨h, inner⟩ := n
  obtain ⟨here, below⟩ := ofValue_parts made
  obtain ⟨t, ran, fills, filled⟩ := readAll_ok _ _ (pending_root s h v) (by simpa using ⟨inner, below⟩)
  have larger := fills.size
  rw [size_create] at larger
  have header : (t.cell s.cells.size).header = h := by
    rw [(fills.filled s.cells.size (by simp) (by simp)).1, cell_create, if_pos rfl]
  refine ⟨t, by rw [read_header s here, header_mk, ran]; rfl, ⟨larger, fills.held, fun i old => ?_⟩, ?_⟩
  · rw [fills.others i (by simp; omega) (by simp; omega), cell_create, if_neg (by omega)]
  · exact .node larger header (filled (s.cells.size, v) (by simp) inner below)

/-- Any other document is refused, with the fault that it has as a description. -/
theorem read_error (s : Store) {v : Value} {e : Fault} (failed : Node.ofValue v = .error e) :
    s.read v = .error e := by
  unfold Node.ofValue at failed
  cases here : Header.ofValue v with
  | error other =>
    rw [here] at failed
    cases failed
    rw [Store.read, here]
    rfl
  | ok h =>
    rw [here] at failed
    simp only [bind, Except.bind] at failed
    rw [read_header s here, readAll_error (e := e) _ _ (pending_root s h v) ?_]
    · rfl
    · cases below : childrenOf v with
      | error other =>
        rw [below] at failed
        simpa [below, bind, Except.bind] using failed
      | ok children =>
        rw [below] at failed
        cases failed

end MethodLint.LinkedTrees
