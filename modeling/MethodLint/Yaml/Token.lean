import MethodLint.Yaml.Cursor

/-!
The tokens of a text. Indentation is told by the tokens that open and close blocks, and a key by a
token before it, so that what follows need not look at columns.
-/
namespace MethodLint.Yaml

/-- A token. -/
inductive Token
  /-- The version that a document follows. -/
  | version (major : Int)
  /-- A shorthand for the start of tags. -/
  | shorthand (handle expansion : String)
  /-- A directive without a meaning. -/
  | remark
  | documentStart
  | documentEnd
  | blockList
  | blockMap
  | blockEnd
  | openList
  | closeList
  | openMap
  | closeMap
  | dash
  | comma
  | key
  | value
  | alias (name : String)
  | anchor (name : String)
  | tag (handle : Option String) (rest : String)
  | scalar (text : String) (isPlain : Bool)
  deriving DecidableEq, Repr

/-- The tokens up to the end of a text, or up to what stops the reader. -/
structure Tokens where
  list : List Token
  stop : Option Refusal

end MethodLint.Yaml
