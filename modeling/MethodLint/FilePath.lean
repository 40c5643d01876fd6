import MethodLint.Text.LowerCase

/-!
Paths in their normal form: empty parts and single dots are dropped, parts that lead upwards are
kept, and a path starts at the root, at the root written with two slashes, or where the reader
stands. The extension of a file is what its name has from its last dot on, unless that dot is the
first or the last character of the name.
-/
namespace MethodLint

/-- Where a path starts. -/
inductive Anchor
  | here
  | root
  | doubleRoot
  deriving DecidableEq, Repr, Inhabited

/-- A path in its normal form. -/
structure FilePath where
  anchor : Anchor
  parts : List String
  deriving DecidableEq, Repr, Inhabited

namespace FilePath

/-- The text of an anchor. -/
def Anchor.text : Anchor → String
  | .here => ""
  | .root => "/"
  | .doubleRoot => "//"

/-- What stands between the slashes of a text. -/
def pieces (s : String) : List String := (s.toList.splitOn '/').map String.ofList

/-- The parts between slashes that count. -/
def partsOf (s : String) : List String := (pieces s).filter fun part => part ≠ "" && part ≠ "."

/-- The normal form of a text. Exactly two slashes in front are kept apart from one. -/
def ofText (s : String) : FilePath :=
  let anchor := match s.toList with
    | '/' :: '/' :: '/' :: _ => Anchor.root
    | '/' :: '/' :: _ => .doubleRoot
    | '/' :: _ => .root
    | _ => .here
  ⟨anchor, partsOf s⟩

/-- The text of a path; a path of nothing is a single dot. -/
def text (p : FilePath) : String :=
  if p.anchor = .here ∧ p.parts.isEmpty then "."
  else Anchor.text p.anchor ++ "/".intercalate p.parts

/-- The last part, empty if there is none. -/
def name (p : FilePath) : String := p.parts.getLast?.getD ""

/-- The part of a name from its last dot on, as far as `name` is an extension's. -/
def extensionOf (name : String) : String :=
  let tail := name.toList.reverse.takeWhile (· ≠ '.')
  let count := name.length
  if tail.length < count ∧ tail.length + 1 < count ∧ tail ≠ [] then
    String.ofList ('.' :: tail.reverse)
  else ""

/-- The extension of a file, with its dot. -/
def extension (p : FilePath) : String := extensionOf p.name

/-- The extension in lower case, as extensions are compared. -/
def comparedExtension (p : FilePath) : String := Text.lower p.extension

/-- A path one part further. -/
def child (p : FilePath) (part : String) : FilePath := { p with parts := p.parts ++ [part] }

/-- A path from another one; a path that starts at a root stays. -/
def join (base p : FilePath) : FilePath :=
  match p.anchor with
  | .here => { base with parts := base.parts ++ p.parts }
  | _ => p

/-- The path without its last part. -/
def parent (p : FilePath) : FilePath := { p with parts := p.parts.dropLast }

/-- One part more of a path that has no part leading upwards; such a part takes one away. -/
def descend (done : List String) (part : String) : List String :=
  if part = ".." then done.dropLast else done ++ [part]

/-- The absolute path without parts that lead upwards, as seen from a directory. -/
def resolve (directory p : FilePath) : FilePath :=
  let full := directory.join p
  ⟨.root, full.parts.foldl descend []⟩

/-- What is left of a path inside a directory. -/
def relativeTo? (p base : FilePath) : Option FilePath :=
  if p.anchor = base.anchor ∧ base.parts.isPrefixOf p.parts then
    some ⟨.here, p.parts.drop base.parts.length⟩
  else none

end FilePath

end MethodLint
