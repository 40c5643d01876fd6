import MethodLint.Tree.Node

/-!
Walks over a tree. `Node.descendants` is the walk that the program takes: it keeps a work list of
the nodes still to be visited, takes the first, and puts that node's children before the rest, so no
depth of nesting can exhaust it. `Node.preorder` is the recursive order that it must agree with.
`Node.levelled` walks the same way and tells of each node how many nodes of a class enclose it.
-/
namespace MethodLint.Node

theorem sizeAll_append (xs ys : List Node) :
    size.sizeAll (xs ++ ys) = size.sizeAll xs + size.sizeAll ys := by
  induction xs with
  | nil => simp [size.sizeAll]
  | cons x xs ih => simp only [List.cons_append, size.sizeAll, ih]; omega

/-- Visits the nodes of the work list and all below them, first come first, adding to `seen`. -/
def walk (seen : Array Node) : List Node → Array Node
  | [] => seen
  | .mk h cs :: rest => walk (seen.push (.mk h cs)) (cs ++ rest)
termination_by work => size.sizeAll work
decreasing_by
  simp only [sizeAll_append, size.sizeAll, size]
  omega

/-- Every node below a node, each before its own descendants and after those of the children
before it. -/
def descendants (n : Node) : List Node := (walk #[] n.children).toList

mutual

/-- The recursive order below a node: each child, followed by all that is below that child. -/
def preorder : Node → List Node
  | .mk _ cs => preorderAll cs

/-- The recursive order of some nodes and all below them. -/
def preorderAll : List Node → List Node
  | [] => []
  | c :: cs => c :: (preorder c ++ preorderAll cs)

end

/-- Some nodes with one number beside each. -/
def atLevel (level : Nat) : List Node → List (Node × Nat)
  | [] => []
  | c :: cs => (c, level) :: atLevel level cs

@[simp] theorem map_fst_atLevel (level : Nat) (cs : List Node) :
    (atLevel level cs).map Prod.fst = cs := by
  induction cs with
  | nil => rfl
  | cons c cs ih => simp [atLevel, ih]

/-- Visits the work list like `walk`; each entry carries the number of enclosing nodes of the class
`counts`, and an entry's children are enclosed by one more if it is of the class itself. -/
def walkLevels (counts : Header → Bool) (seen : Array (Header × Nat)) :
    List (Node × Nat) → Array (Header × Nat)
  | [] => seen
  | (.mk h cs, level) :: rest =>
    walkLevels counts (seen.push (h, level))
      (atLevel (if counts h then level + 1 else level) cs ++ rest)
termination_by work => size.sizeAll (work.map Prod.fst)
decreasing_by
  simp only [List.map_append, map_fst_atLevel, sizeAll_append, List.map_cons, size.sizeAll, size]
  omega

/-- Every node below a node in pre-order, with the number of nodes of the class `counts` that are
strictly between the two. -/
def levelled (counts : Header → Bool) (n : Node) : List (Header × Nat) :=
  (walkLevels counts #[] (atLevel 0 n.children)).toList

end MethodLint.Node
