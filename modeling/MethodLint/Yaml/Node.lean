import MethodLint.Yaml.Tag
import MethodLint.Yaml.Token

/-!
The nodes of a document, read from its tokens. A node may have a name, by which later places repeat
it, and a tag. A text holds at most one document. Nodes are nested no deeper than a bound.
-/
namespace MethodLint.Yaml

/-- A node: a text, a list, or pairs of keys and values. -/
inductive Node
  | scalar (tag : Tag) (text : String)
  | list (tag : Tag) (items : List Node)
  | map (tag : Tag) (entries : List (Node × Node))

/-- The tag of a node. -/
def Node.tag : Node → Tag
  | .scalar tag _ | .list tag _ | .map tag _ => tag

/-- What is read when nothing is written. -/
def Node.empty : Node := .scalar .null ""

/-- How deeply nodes are nested at most. -/
def depthLimit : Nat := 480

/-- Where the reader of nodes is: the tokens that are left, why there are no more of them, the nodes
with names (none while a node is being read), and the shorthands of tags. -/
structure NodeReader where
  tokens : List Token
  stop : Option Refusal
  named : List (String × Option Node)
  shorthands : List (String × String)

/-- A step that reads tokens. -/
abbrev Reads (α : Type) := StateT NodeReader (Except Refusal) α

/-- The next token; nothing at the end of the text. -/
def next? : Reads (Option Token) := do
  match (← get).tokens, (← get).stop with
  | token :: _, _ => return some token
  | [], none => return none
  | [], some refusal => throw refusal

/-- Goes behind the next token. -/
def advance : Reads Unit := modify fun s => { s with tokens := s.tokens.tail }

/-- Whether the next token is one of some. -/
def nextIs (tokens : List Token) : Reads Bool := return (← next?).any tokens.contains

/-- Takes the next token if it is the given one. -/
def take? (token : Token) : Reads Bool := do
  if ← nextIs [token] then
    advance
    return true
  else return false

/-- Takes the next token, which must be the given one. -/
def expect (token : Token) : Reads Unit := do
  if !(← take? token) then throw .malformed

/-- Bounds the steps of a loop of which each takes a token. -/
def tokenCount : Reads Nat := return (← get).tokens.length + 1

/-! ## Names and tags -/

/-- The node with a name. -/
def find (name : String) : Reads Node := do
  match (← get).named.lookup name with
  | some (some node) => return node
  | some none => throw (.fault .tooDeep)
  | none => throw .malformed

/-- Names the node that is about to be read. -/
def announce (name : String) : Reads Unit := do
  if ((← get).named.lookup name).isSome then throw .malformed
  modify fun s => { s with named := (name, none) :: s.named }

/-- Gives the node to its name. -/
def bind (name : String) (node : Node) : Reads Unit :=
  modify fun s => { s with named := (name, some node) :: s.named }

/-- The tag of a token: nothing for the mark that asks for a reading as if there were none. -/
def tagOf (handle : Option String) (rest : String) : Reads (Option Tag) := do
  let name ← match handle with
    | none => pure rest
    | some handle =>
      match (← get).shorthands.lookup handle with
      | some expansion => pure (expansion ++ rest)
      | none => throw .malformed
  return if name = "!" then none else some (Tag.ofName name)

/-- The name and the tag before a node; a tag that is there may ask for none. -/
structure Properties where
  name : Option String
  tag : Option (Option Tag)

/-- Whether a name or a tag is there. -/
def Properties.isPresent (p : Properties) : Bool := p.name.isSome || p.tag.isSome

/-- A given tag, or the one that holds without. -/
def Properties.tagOr (p : Properties) (standard : Tag) : Tag := (p.tag.getD none).getD standard

/-- The name and the tag before a node, in any order. -/
def properties : Reads Properties := do
  let written ← match ← next? with
    | some (.anchor name) =>
      advance
      match ← next? with
      | some (.tag handle rest) =>
        advance
        pure (some name, some (handle, rest))
      | _ => pure (some name, none)
    | some (.tag handle rest) =>
      advance
      match ← next? with
      | some (.anchor name) =>
        advance
        pure (some name, some (handle, rest))
      | _ => pure (none, some (handle, rest))
    | _ => pure (none, none)
  match written.2 with
  | some (handle, rest) => return ⟨written.1, some (← tagOf handle rest)⟩
  | none => return ⟨written.1, none⟩

/-- The tag of a text: the given one, or the one that its form has if it is plain or the mark is
there. -/
def Properties.tagOfText (p : Properties) (text : String) (isPlain : Bool) : Tag :=
  match p.tag with
  | some (some tag) => tag
  | some none => .ofPlain text
  | none => if isPlain then .ofPlain text else .str

/-! ## Collections, for a given way to read what is in them -/

/-- Where a node stands, which decides what it may be. -/
inductive Place
  | flow
  | block
  /-- The key or value of a block: the items of a list need no further indentation. -/
  | blockEntry
  deriving DecidableEq

/-- The node that follows, or the empty one if one of some tokens does. -/
def nodeUnless (inner : Place → Reads Node) (place : Place) (tokens : List Token) : Reads Node := do
  if ← nextIs tokens then return .empty else inner place

/-- The items of an indented list. -/
def blockItems (inner : Place → Reads Node) : (steps : Nat) → Reads (List Node)
  | 0 => throw .malformed
  | steps + 1 => do
    if ← take? .dash then
      let item ← nodeUnless inner .block [.dash, .blockEnd]
      return item :: (← blockItems inner steps)
    else
      expect .blockEnd
      return []

/-- The items of a list that is not indented. -/
def flushItems (inner : Place → Reads Node) : (steps : Nat) → Reads (List Node)
  | 0 => throw .malformed
  | steps + 1 => do
    if ← take? .dash then
      let item ← nodeUnless inner .block [.dash, .key, .value, .blockEnd]
      return item :: (← flushItems inner steps)
    else return []

/-- A value behind its colon, or the empty one if there is no colon or one of some tokens follows. -/
def valueUnless (inner : Place → Reads Node) (place : Place) (tokens : List Token) :
    Reads Node := do
  if ← take? .value then nodeUnless inner place tokens else return .empty

/-- The entries of an indented mapping. -/
def blockEntries (inner : Place → Reads Node) : (steps : Nat) → Reads (List (Node × Node))
  | 0 => throw .malformed
  | steps + 1 => do
    if ← take? .key then
      let key ← nodeUnless inner .blockEntry [.key, .value, .blockEnd]
      let value ← valueUnless inner .blockEntry [.key, .value, .blockEnd]
      return (key, value) :: (← blockEntries inner steps)
    else
      expect .blockEnd
      return []

/-- The items of a list between brackets. A key makes a mapping of a single entry. -/
def flowItems (inner : Place → Reads Node) : (steps : Nat) → (isFirst : Bool) → Reads (List Node)
  | 0, _ => throw .malformed
  | steps + 1, isFirst => do
    if ← take? .closeList then return []
    if !isFirst then expect .comma
    if ← take? .key then
      let key ← nodeUnless inner .flow [.value, .comma, .closeList]
      let value ← valueUnless inner .flow [.comma, .closeList]
      return .map .map [(key, value)] :: (← flowItems inner steps false)
    else if ← take? .closeList then return []
    else
      let item ← inner .flow
      return item :: (← flowItems inner steps false)

/-- The entries of a mapping between brackets. -/
def flowEntries (inner : Place → Reads Node) :
    (steps : Nat) → (isFirst : Bool) → Reads (List (Node × Node))
  | 0, _ => throw .malformed
  | steps + 1, isFirst => do
    if ← take? .closeMap then return []
    if !isFirst then expect .comma
    if ← take? .key then
      let key ← nodeUnless inner .flow [.value, .comma, .closeMap]
      let value ← valueUnless inner .flow [.comma, .closeMap]
      return (key, value) :: (← flowEntries inner steps false)
    else if ← take? .closeMap then return []
    else
      let key ← inner .flow
      return (key, .empty) :: (← flowEntries inner steps false)

/-- A node behind its name and tag. -/
def content (inner : Place → Reads Node) (place : Place) (p : Properties) : Reads Node := do
  let steps ← tokenCount
  let token ← next?
  if place = .blockEntry ∧ token = some .dash then
    return .list (p.tagOr .seq) (← flushItems inner steps)
  match token with
  | some (.scalar text isPlain) =>
    advance
    return .scalar (p.tagOfText text isPlain) text
  | some .openList =>
    advance
    return .list (p.tagOr .seq) (← flowItems inner steps true)
  | some .openMap =>
    advance
    return .map (p.tagOr .map) (← flowEntries inner steps true)
  | some .blockList =>
    if place = .flow then throw .malformed
    advance
    return .list (p.tagOr .seq) (← blockItems inner steps)
  | some .blockMap =>
    if place = .flow then throw .malformed
    advance
    return .map (p.tagOr .map) (← blockEntries inner steps)
  | _ => if p.isPresent then return .scalar (p.tagOfText "" true) "" else throw .malformed

/-- A node at a place. -/
def nodeAt : (depth : Nat) → Place → Reads Node
  | 0, _ => throw (.fault .tooDeep)
  | depth + 1, place => do
    match ← next? with
    | some (.alias name) =>
      advance
      find name
    | _ =>
      let p ← properties
      match p.name with
      | none => content (nodeAt depth) place p
      | some name =>
        announce name
        let node ← content (nodeAt depth) place p
        bind name node
        return node

/-! ## The document -/

/-- The shorthands that need no directive. -/
def standardShorthands : List (String × String) := [("!", "!"), ("!!", Tag.commonStart)]

/-- The directives before a document. Neither a version nor a shorthand may be given twice, and the
version must be one that is known. -/
def directives : (steps : Nat) → (hasVersion : Bool) → (given : List (String × String)) → Reads Unit
  | 0, _, _ => throw .malformed
  | steps + 1, hasVersion, given => do
    match ← next? with
    | some (.version major) =>
      if hasVersion ∨ major ≠ 1 then throw .malformed
      advance
      directives steps true given
    | some (.shorthand handle expansion) =>
      if (given.lookup handle).isSome then throw .malformed
      advance
      directives steps hasVersion ((handle, expansion) :: given)
    | some .remark =>
      advance
      directives steps hasVersion given
    | _ => modify fun s => { s with shorthands := given ++ standardShorthands }

/-- A document behind its directives and its start mark. -/
def explicitDocument : Reads Node := do
  directives (← tokenCount) false []
  expect .documentStart
  match ← next? with
  | none | some .documentStart | some .documentEnd | some (.version _) | some (.shorthand _ _)
  | some .remark => return .empty
  | _ => nodeAt depthLimit .block

/-- Skips marks that end a document. -/
def skipEnds : (steps : Nat) → Reads Unit
  | 0 => return
  | steps + 1 => do if ← take? .documentEnd then skipEnds steps

/-- The only document of a text, if there is one. -/
def document? : Reads (Option Node) := do
  let node? ← match ← next? with
    | none => pure none
    | some .documentStart | some (.version _) | some (.shorthand _ _) | some .remark =>
      pure (some (← explicitDocument))
    | some _ => pure (some (← nodeAt depthLimit .block))
  skipEnds (← tokenCount)
  if (← next?).isSome then throw .malformed
  return node?

/-- The only document of some tokens, if there is one. -/
def Node.ofTokens? (tokens : Tokens) : Result (Option Node) :=
  (document?.run ⟨tokens.list, tokens.stop, [], standardShorthands⟩).map Prod.fst

end MethodLint.Yaml
