import MethodLint.Analysis
import MethodLint.Tree.Document

/-!
Trees under construction. A store holds nodes by address. A node owns its children, in order; what
leads back from a child to its parent is a link to the node that took it in last, and the link alone
keeps nobody alive: a node lives while it is held under some name or is reached from a held node
through children. Ancestors are found by following links upwards, so the store also has metrics of
its own, which count enclosing constructs that way.
-/
namespace MethodLint

/-- A node of a store: its own fields, the addresses of its children, the link to its parent, and
the name under which it was last held. -/
structure Cell where
  header : Header
  children : List Nat
  parent : Option Nat
  label : Option String
  deriving Inhabited

/-- Nodes by address, and the names under which some of them are held. -/
structure Store where
  cells : Array Cell
  held : List (String × Nat)
  deriving Inhabited

namespace Store

/-- A store without nodes. -/
def empty : Store := ⟨#[], []⟩

/-- The address that is held under a name. -/
def find? (s : Store) (name : String) : Except Fault Nat :=
  match s.held.find? (·.1 = name) with
  | some entry => .ok entry.2
  | none => .error (.missingKey (Text.quoted name))

/-- The node at an address. -/
def cell (s : Store) (a : Nat) : Cell := (s.cells[a]?).getD default

/-- The store with another node at an address. -/
def setCell (s : Store) (a : Nat) (c : Cell) : Store := { s with cells := s.cells.setIfInBounds a c }

/-! ## Construction -/

/-- Points the parent link of a node at another. -/
def link (s : Store) (parent child : Nat) : Store :=
  s.setCell child { s.cell child with parent := some parent }

/-- A new node; its children are linked to it. -/
def create (s : Store) (header : Header) (children : List Nat) : Nat × Store :=
  let a := s.cells.size
  let s := { s with cells := s.cells.push ⟨header, children, none, none⟩ }
  (a, children.foldl (fun s child => s.link a child) s)

/-- Appends a child and links it. -/
def addChild (s : Store) (parent child : Nat) : Store :=
  let c := s.cell parent
  (s.setCell parent { c with children := c.children ++ [child] }).link parent child

/-- The position that an index denotes among `length` items; a negative one counts from the end. -/
def position? (length : Nat) (index : Int) : Option Nat :=
  let i := if index < 0 then index + length else index
  if 0 ≤ i ∧ i < length then some i.toNat else none

/-- The child at an index. -/
def childAt (s : Store) (parent : Nat) (index : Int) : Except Fault Nat :=
  let children := (s.cell parent).children
  match (position? children.length index).bind fun i => children[i]? with
  | some child => .ok child
  | none => .error .indexOutOfRange

/-- Takes the child at an index out. Its own link stays. -/
def removeChild (s : Store) (parent : Nat) (index : Int) : Except Fault (Nat × Store) :=
  let c := s.cell parent
  if c.children.isEmpty then .error .emptyRemoval
  else match position? c.children.length index with
    | none => .error .removalOutOfRange
    | some i =>
      .ok ((c.children[i]?).getD 0, s.setCell parent { c with children := c.children.eraseIdx i })

/-- Holds a node under a name, which becomes its label. -/
def hold (s : Store) (name : String) (a : Nat) : Store :=
  let s := s.setCell a { s.cell a with label := some name }
  { s with held := s.held.filter (·.1 ≠ name) ++ [(name, a)] }

/-- Gives a name up. -/
def drop (s : Store) (name : String) : Store := { s with held := s.held.filter (·.1 ≠ name) }

mutual

/-- Adds a tree, its nodes linked; the address of its root comes first. -/
def insert (s : Store) : Node → Nat × Store
  | .mk h cs =>
    let a := s.cells.size
    insertAll { s with cells := s.cells.push ⟨h, [], none, none⟩ } a cs

/-- Adds some trees as further children of a node. -/
def insertAll (s : Store) (parent : Nat) : List Node → Nat × Store
  | [] => (parent, s)
  | c :: cs =>
    let added := insert s c
    insertAll (added.2.addChild parent added.1) parent cs

end

/-! ## Reading

The nodes of a document are put into the store by a work list of nodes whose children are still to
be read, each with the value that describes it. -/

/-- Adds the nodes that some values describe as further children of a node. Each goes on the work
list, so the last one is on top. -/
def adopt (s : Store) (parent : Nat) (work : List (Nat × Value)) :
    List Value → Except Fault (Store × List (Nat × Value))
  | [] => .ok (s, work)
  | v :: rest => do
    let header ← Header.ofValue v
    let added := s.create header []
    adopt (added.2.addChild parent added.1) parent ((added.1, v) :: work) rest

/-- How much there is to be read in the values of a work list. -/
noncomputable def remaining (work : List (Nat × Value)) : Nat :=
  work.foldr (fun entry n => sizeOf entry.2 + n) 0

theorem sizeOf_lookup {name : String} {entries : List (Value × Value)} {v : Value}
    (found : Value.lookup name entries = some v) : sizeOf v < sizeOf entries := by
  fun_induction Value.lookup name entries with
  | case1 => cases found
  | case2 value rest =>
    cases found
    simp only [List.cons.sizeOf_spec, Prod.mk.sizeOf_spec]
    omega
  | case3 key value rest other ih | case4 key rest other ih =>
    have smaller := ih found
    simp only [List.cons.sizeOf_spec]
    omega

theorem sizeOf_childItems {v : Value} {items : List Value} (given : Node.childItems v = .ok items) :
    sizeOf items ≤ sizeOf v := by
  have inner : sizeOf (v.getD "children") ≤ sizeOf v := by
    unfold Value.getD Value.get?
    split
    · rename_i entries
      cases found : Value.lookup "children" entries with
      | none => simp
      | some inner => simpa using Nat.le_add_left_of_le (Nat.le_of_lt (sizeOf_lookup found))
    · cases v <;> simp
  have positive : 1 ≤ sizeOf v := by cases v <;> simp
  unfold Node.childItems at given
  generalize v.getD "children" = raw at given inner
  cases raw with
  | list items | tuple items =>
    cases given
    simp only [Value.list.sizeOf_spec, Value.tuple.sizeOf_spec] at inner
    omega
  | _ =>
    rw [Node.eq_nil_of_strange given]
    simpa using positive

theorem remaining_adopt {s t : Store} {parent : Nat} {work later : List (Nat × Value)}
    {items : List Value} (ran : s.adopt parent work items = .ok (t, later)) :
    remaining later < sizeOf items + remaining work := by
  induction items generalizing s work with
  | nil =>
    cases ran
    simp
  | cons v rest ih =>
    unfold adopt at ran
    cases header : Header.ofValue v with
    | error e => simp [header, bind, Except.bind] at ran
    | ok h =>
      simp only [header, bind, Except.bind] at ran
      have smaller := ih ran
      simp only [remaining, List.foldr_cons, List.cons.sizeOf_spec] at smaller ⊢
      omega

/-- Reads the children of the nodes on a work list, and everything below them. -/
def readAll (s : Store) (work : List (Nat × Value)) : Except Fault Store :=
  match work with
  | [] => .ok s
  | (parent, v) :: work =>
    match _given : Node.childItems v with
    | .error e => .error e
    | .ok items =>
      match _adopted : s.adopt parent work items with
      | .error e => .error e
      | .ok (s, work) => readAll s work
termination_by remaining work
decreasing_by
  have items := sizeOf_childItems _given
  have smaller := remaining_adopt _adopted
  simp only [remaining, List.foldr_cons] at *
  omega

/-- Adds the tree that a value describes; the address of its root comes first. -/
def read (s : Store) (v : Value) : Except Fault (Nat × Store) := do
  let header ← Header.ofValue v
  let root := s.create header []
  return (root.1, ← readAll root.2 [(root.1, v)])

/-! ## Walks -/

/-- Marks an address and all that is below it, by a depth bound. -/
def markFrom (s : Store) : (depth : Nat) → Array Bool → Nat → Array Bool
  | 0, seen, _ => seen
  | depth + 1, seen, a =>
    if (seen[a]?).getD true then seen
    else (s.cell a).children.foldl (markFrom s depth) (seen.setIfInBounds a true)

/-- Which nodes are reached from the held ones through children. -/
def living (s : Store) : Array Bool :=
  s.held.foldl (fun seen entry => s.markFrom (s.cells.size + 1) seen entry.2)
    (Array.replicate s.cells.size false)

/-- The parent of a node, if it is still alive. -/
def parentAmong (s : Store) (living : Array Bool) (a : Nat) : Option Nat :=
  (s.cell a).parent.filter fun p => (living[p]?).getD false

/-- The parent of a node. -/
def parent? (s : Store) (a : Nat) : Option Nat := s.parentAmong s.living a

/-- Follows links upwards from a node, at most `steps` of them, up to but without `stop`. -/
def climb (s : Store) (living : Array Bool) (stop : Option Nat) : (steps : Nat) → Nat → List Nat
  | 0, _ => []
  | steps + 1, a =>
    match s.parentAmong living a with
    | none => []
    | some p => if stop = some p then [] else p :: climb s living stop steps p

/-- The ancestors of a node, nearest first, ending before `stop`. -/
def ancestors (s : Store) (a : Nat) (stop : Option Nat) : List Nat :=
  s.climb s.living stop (s.cells.size + 1) a

/-- Adds everything below an address to `seen`, in pre-order, by a depth bound. -/
def walkFrom (s : Store) : (depth : Nat) → Array Nat → Nat → Array Nat
  | 0, seen, _ => seen
  | depth + 1, seen, a =>
    (s.cell a).children.foldl (fun seen child => walkFrom s depth (seen.push child) child) seen

/-- Everything below a node in pre-order. -/
def descendants (s : Store) (a : Nat) : List Nat :=
  (s.walkFrom (s.cells.size + 1) #[] a).toList

/-- The tree at an address, by a depth bound. -/
def treeFrom (s : Store) : (depth : Nat) → Nat → Node
  | 0, a => .mk (s.cell a).header []
  | depth + 1, a => .mk (s.cell a).header ((s.cell a).children.map (treeFrom s depth))

/-- The tree at an address. -/
def tree (s : Store) (a : Nat) : Node := s.treeFrom (s.cells.size + 1) a

/-! ## Metrics by upward walks -/

/-- The number of control constructs that enclose a node on the way up to `root`. -/
def enclosing (s : Store) (living : Array Bool) (root a : Nat) : Nat :=
  (s.climb living (some root) (s.cells.size + 1) a).countP fun p => (s.cell p).header.opensLevel

/-- For every control construct below a node in order, how many such constructs enclose it. -/
def nestingLevels (s : Store) (root : Nat) : List Nat :=
  let living := s.living
  ((s.descendants root).filter fun a => (s.cell a).header.opensLevel).map (s.enclosing living root)

/-- A method declaration as an analysis of the store sees it. -/
def declared (s : Store) (a : Nat) : Declaration := ⟨s.tree a, s.nestingLevels a⟩

/-- The method declarations at and below an address. -/
def pass (s : Store) (a : Nat) : Pass :=
  ⟨(s.cell a).header,
    ((a :: s.descendants a).filter fun d => (s.cell d).header.kind = Kind.methodDeclaration).map
      s.declared⟩

end Store

end MethodLint
