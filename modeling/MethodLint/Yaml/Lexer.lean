import MethodLint.Decimal.Numeral
import MethodLint.Text.Utf8
import MethodLint.Yaml.Scalar
import MethodLint.Yaml.Token

/-!
Cutting a text into tokens. What may turn out to be a key leaves an empty slot among the tokens. The
colon that shows it to be one fills the slot; otherwise it stays empty. A key must stand on one line
and near its colon, and in a block the first thing at the indentation must be a key.
-/
namespace MethodLint.Yaml

/-- Something that may turn out to be a key. -/
structure PossibleKey where
  slot : Nat
  isRequired : Bool
  start : Cursor

/-- The most characters from a key to its colon. -/
def keyLimit : Nat := 1024

/-- The state of the lexer: where it is, the tokens so far in slots, the possible key of the
innermost brackets and of those around them, and the indentation of the innermost block and of those
around it. -/
structure Lexer where
  cur : Cursor
  slots : Array (List Token)
  key : Option PossibleKey
  outerKeys : List (Option PossibleKey)
  indent : Int
  outerIndents : List Int
  allowsKey : Bool

namespace Lexer

/-- The start of a text. -/
def start (text : List Char) : Lexer := ⟨.start text, #[], none, [], -1, [], true⟩

/-- Whether the reader is between brackets. -/
def isInFlow (lex : Lexer) : Bool := !lex.outerKeys.isEmpty

/-- Adds a token. -/
def add (lex : Lexer) (token : Token) : Lexer := { lex with slots := lex.slots.push [token] }

/-- Puts tokens into a slot. -/
def fill (lex : Lexer) (slot : Nat) (tokens : List Token) : Lexer :=
  { lex with slots := lex.slots.setIfInBounds slot tokens }

/-- Gives up a possible key, which must not be required. -/
def dropKey (lex : Lexer) : Result Lexer :=
  if lex.key.any PossibleKey.isRequired then malformed else .ok { lex with key := none }

/-- Whether a possible key is too far back. -/
def isStale (lex : Lexer) (key : PossibleKey) : Bool :=
  key.start.line ≠ lex.cur.line || key.start.index + keyLimit < lex.cur.index

/-- Gives up the possible keys that are too far back. -/
def dropStaleKeys (lex : Lexer) : Result Lexer := do
  let lex ← if lex.key.any lex.isStale then lex.dropKey else .ok lex
  let stale := lex.outerKeys.map fun key => key.filter lex.isStale
  if stale.any fun key => key.any PossibleKey.isRequired then malformed
  else
    let outerKeys := lex.outerKeys.map fun key => key.filter fun key => !lex.isStale key
    return { lex with outerKeys := outerKeys }

/-- Notes that what comes next may be a key. -/
def saveKey (lex : Lexer) : Result Lexer :=
  if lex.allowsKey then do
    let lex ← lex.dropKey
    let isRequired := !lex.isInFlow && lex.indent = lex.cur.column
    let key := PossibleKey.mk lex.slots.size isRequired lex.cur
    return { lex with key := some key, slots := lex.slots.push [] }
  else .ok lex

/-- Closes blocks that are indented further than a column. -/
def closeBlocksFrom (lex : Lexer) (column : Int) : List Int → Lexer
  | [] => lex
  | outer :: outers =>
    if column < lex.indent then
      closeBlocksFrom { lex.add .blockEnd with indent := outer, outerIndents := outers } column outers
    else lex

/-- Closes blocks that are indented further than a column, unless between brackets. -/
def closeBlocks (lex : Lexer) (column : Int) : Lexer :=
  if lex.isInFlow then lex else lex.closeBlocksFrom column lex.outerIndents

/-- Opens a block at a column, if it is indented further than the block around it. -/
def openBlock? (lex : Lexer) (column : Int) : Option Lexer :=
  if lex.indent < column then
    some { lex with indent := column, outerIndents := lex.indent :: lex.outerIndents }
  else none

/-- Opens a block here, with its token, if it is indented further than the block around it. -/
def openBlock (lex : Lexer) (token : Token) : Lexer :=
  match lex.openBlock? lex.cur.column with
  | some lex => lex.add token
  | none => lex

/-- Sets whether a key may come next. -/
def allowKey (lex : Lexer) (allowed : Bool) : Lexer := { lex with allowsKey := allowed }

/-- Goes on to another place. -/
def goTo (lex : Lexer) (cur : Cursor) : Lexer := { lex with cur := cur }

/-- Adds a token of some characters. -/
def take (lex : Lexer) (length : Nat) (token : Token) : Lexer :=
  (lex.add token).goTo (lex.cur.drop length)

/-! ## Between tokens -/

/-- Skips spaces, comments and line breaks. A key may stand at the start of a line. -/
def skipBlanks : (steps : Nat) → Lexer → Lexer
  | 0, lex => lex
  | steps + 1, lex =>
    let cur := lex.cur.skipSpaces.skipComment
    match cur.lineBreak? with
    | some (_, cur) => skipBlanks steps { lex with cur, allowsKey := lex.allowsKey || !lex.isInFlow }
    | none => lex.goTo cur

/-- Skips a byte order mark at the start of the text. -/
def skipMark (lex : Lexer) : Lexer :=
  if lex.cur.index = 0 ∧ lex.cur.head = '\uFEFF' then lex.goTo lex.cur.next else lex

/-! ## Tags and directives -/

/-- A character of an address. -/
def isAddressCharacter (c : Char) : Bool := c.isAlphanum || "-;/?:@&=+$,_.!~*'()[]%".toList.contains c

/-- Bytes that are written with percent signs and hexadecimal digits. -/
def percentBytes : List Char → Option (List UInt8 × List Char)
  | '%' :: c :: d :: rest =>
    match Text.hexValue? c, Text.hexValue? d with
    | some high, some low =>
      match percentBytes rest with
      | some (bytes, rest) => some (UInt8.ofNat (high * 16 + low) :: bytes, rest)
      | none => none
    | _, _ => none
  | '%' :: _ => none
  | rest => some ([], rest)

/-- The characters of an address, with the bytes of percent signs decoded. -/
def addressText : (steps : Nat) → List Char → Option (List Char)
  | 0, _ => some []
  | _, [] => some []
  | steps + 1, c :: rest =>
    if c = '%' then
      match percentBytes (c :: rest) with
      | some (bytes, rest) =>
        match Text.decode bytes with
        | .ok text => (addressText steps rest).map (text.toList ++ ·)
        | .error _ => none
      | none => none
    else (addressText steps rest).map (c :: ·)

/-- An address, which is not empty. -/
def address (cur : Cursor) : Result (String × Cursor) :=
  let (chars, after) := cur.span isAddressCharacter
  if chars.isEmpty then malformed
  else match addressText chars.length chars with
    | some text => .ok (String.ofList text, after)
    | none => malformed

/-- A handle: an exclamation mark, alone before a space or with a second one behind a word. -/
def handle (cur : Cursor) : Result (String × Cursor) :=
  if cur.head ≠ '!' then malformed
  else
    let cur := cur.next
    if cur.head = ' ' then .ok ("!", cur)
    else
      let (word, cur) := cur.span isWordCharacter
      if cur.head = '!' then .ok (String.ofList ('!' :: word ++ ['!']), cur.next) else malformed

/-- Whether a handle with two marks stands here: a second mark comes before the next gap. -/
def hasHandle (cur : Cursor) : Bool :=
  (cur.rest.drop 1).find? (fun c => c = '!' || isGap c) = some '!'

/-- A tag. -/
def tag (cur : Cursor) : Result (Token × Cursor) := do
  let c := cur.peek 1
  let (token, cur) ←
    if c = '<' then do
      let (text, cur) ← address (cur.drop 2)
      if cur.head = '>' then pure (Token.tag none text, cur.next) else malformed
    else if isWideGap c then pure (Token.tag none "!", cur.next)
    else if hasHandle cur then do
      let (name, cur) ← handle cur
      let (text, cur) ← address cur
      pure (Token.tag (some name) text, cur)
    else do
      let (text, cur) ← address cur.next
      pure (Token.tag (some "!") text, cur)
  if isGap cur.head then return (token, cur) else malformed

/-- A number of a version. -/
def versionNumber (cur : Cursor) : Result (Int × Cursor) :=
  let (digits, cur) := cur.span Decimal.isDigit
  if digits.isEmpty then malformed
  else match Decimal.intOfDigits false digits with
    | .ok n => .ok (n, cur)
    | .error e => .error (.fault e)

/-- What follows the name of a version directive. -/
def versionDirective (cur : Cursor) : Result (Token × Cursor) := do
  let (major, cur) ← versionNumber cur.skipSpaces
  if cur.head ≠ '.' then malformed
  let (_, cur) ← versionNumber cur.next
  if isGap cur.head then return (.version major, cur) else malformed

/-- What follows the name of a shorthand directive. -/
def shorthandDirective (cur : Cursor) : Result (Token × Cursor) := do
  let (name, cur) ← handle cur.skipSpaces
  if cur.head ≠ ' ' then malformed
  let (text, cur) ← address cur.skipSpaces
  if isGap cur.head then return (.shorthand name text, cur) else malformed

/-- A directive and the rest of its line. -/
def directive (cur : Cursor) : Result (Token × Cursor) := do
  let (name, cur) := cur.next.span isWordCharacter
  if name.isEmpty ∨ !isGap cur.head then malformed
  let (token, cur) ←
    if name = "YAML".toList then versionDirective cur
    else if name = "TAG".toList then shorthandDirective cur
    else pure (Token.remark, cur.skip fun c => !isBreak c)
  return (token, ← cur.ignoredLine)

/-- The name of an anchor or alias. -/
def anchorName (cur : Cursor) : Result (String × Cursor) :=
  let (name, cur) := cur.span isWordCharacter
  let endsName := isWideGap cur.head || "?:,]\x7d%@\x60".toList.contains cur.head
  if name.isEmpty ∨ !endsName then malformed else .ok (String.ofList name, cur)

/-! ## One token -/

/-- Ends all blocks before a directive or a separator of documents. -/
def endDocument (lex : Lexer) : Result Lexer := do
  return (← (lex.closeBlocks (-1)).dropKey).allowKey false

/-- An opening bracket. -/
def takeOpening (lex : Lexer) (token : Token) : Result Lexer := do
  let lex ← lex.saveKey
  return ({ lex with key := none, outerKeys := lex.key :: lex.outerKeys }.take 1 token).allowKey true

/-- A closing bracket. -/
def takeClosing (lex : Lexer) (token : Token) : Result Lexer := do
  let lex ← lex.dropKey
  match lex.outerKeys with
  | [] => malformed
  | key :: outerKeys => return ({ lex with key, outerKeys }.take 1 token).allowKey false

/-- A comma between brackets. -/
def takeComma (lex : Lexer) : Result Lexer := do
  return ((← lex.dropKey).take 1 .comma).allowKey true

/-- A dash before an item of a block. -/
def takeDash (lex : Lexer) : Result Lexer := do
  let lex ←
    if lex.isInFlow then .ok lex
    else if lex.allowsKey then .ok (lex.openBlock .blockList)
    else malformed
  return ((← lex.dropKey).take 1 .dash).allowKey true

/-- A question mark before a key. -/
def takeKeyMark (lex : Lexer) : Result Lexer := do
  let lex ←
    if lex.isInFlow then .ok lex
    else if lex.allowsKey then .ok (lex.openBlock .blockMap)
    else malformed
  return ((← lex.dropKey).take 1 .key).allowKey !lex.isInFlow

/-- A colon: it shows a possible key to be one, or ends a marked key. -/
def takeColon (lex : Lexer) : Result Lexer := do
  match lex.key with
  | some key =>
    let lex := { lex with key := none }
    let lex :=
      if lex.isInFlow then lex.fill key.slot [.key]
      else match lex.openBlock? key.start.column with
        | some lex => lex.fill key.slot [.blockMap, .key]
        | none => lex.fill key.slot [.key]
    return (lex.take 1 .value).allowKey false
  | none =>
    let lex ←
      if lex.isInFlow then .ok lex
      else if lex.allowsKey then .ok (lex.openBlock .blockMap)
      else malformed
    return (lex.take 1 .value).allowKey !lex.isInFlow

/-- Something that may be a key, read by `scan`. -/
def takePossibleKey (lex : Lexer) (scan : Cursor → Result (Token × Cursor)) : Result Lexer := do
  let lex ← lex.saveKey
  let (token, cur) ← scan lex.cur
  return ((lex.add token).goTo cur).allowKey false

/-- A plain scalar. A key may follow it if it ends at the start of a line. -/
def takePlain (lex : Lexer) : Result Lexer := do
  let lex ← lex.saveKey
  let scalar := plainScalar lex.isInFlow (lex.indent + 1).toNat lex.cur
  return ((lex.add (.scalar scalar.text true)).goTo scalar.after).allowKey scalar.isBroken

/-- A block scalar. -/
def takeBlock (lex : Lexer) (folded : Bool) : Result Lexer := do
  let lex ← lex.dropKey
  let (text, cur) ← blockScalar folded lex.indent lex.cur
  return ((lex.add (.scalar text false)).goTo cur).allowKey true

/-- Whether a plain scalar starts here. -/
def startsPlain (lex : Lexer) : Bool :=
  let c := lex.cur.head
  !(isWideGap c || "-?:,[]\x7b\x7d#&*!|>'\"%@\x60".toList.contains c)
    || (!isWideGap (lex.cur.peek 1) && (c = '-' || (!lex.isInFlow && (c = '?' || c = ':'))))

/-- Takes the token that starts here; the text does not end here. -/
def takeToken (lex : Lexer) : Result Lexer := do
  let cur := lex.cur
  let c := cur.head
  let atMargin := cur.column = 0
  let isMark := lex.isInFlow || isWideGap (cur.peek 1)
  if c = '%' ∧ atMargin then
    let lex ← lex.endDocument
    let (token, cur) ← directive cur
    return (lex.add token).goTo cur
  else if atMargin ∧ cur.isSeparator '-' then return (← lex.endDocument).take 3 .documentStart
  else if atMargin ∧ cur.isSeparator '.' then return (← lex.endDocument).take 3 .documentEnd
  else if c = '[' then lex.takeOpening .openList
  else if c = '{' then lex.takeOpening .openMap
  else if c = ']' then lex.takeClosing .closeList
  else if c = '}' then lex.takeClosing .closeMap
  else if c = ',' then lex.takeComma
  else if c = '-' ∧ isWideGap (cur.peek 1) then lex.takeDash
  else if c = '?' ∧ isMark then lex.takeKeyMark
  else if c = ':' ∧ isMark then lex.takeColon
  else if c = '*' then
    lex.takePossibleKey fun cur => do
      let (name, cur) ← anchorName cur.next
      return (.alias name, cur)
  else if c = '&' then
    lex.takePossibleKey fun cur => do
      let (name, cur) ← anchorName cur.next
      return (.anchor name, cur)
  else if c = '!' then lex.takePossibleKey tag
  else if (c = '|' ∨ c = '>') ∧ !lex.isInFlow then lex.takeBlock (c = '>')
  else if c = '\'' ∨ c = '"' then
    lex.takePossibleKey fun cur => do
      let (text, cur) ← quotedScalar (c = '"') cur
      return (.scalar text false, cur)
  else if lex.startsPlain then lex.takePlain
  else malformed

/-! ## All tokens -/

/-- The tokens in the order of their slots. -/
def tokens (lex : Lexer) : List Token := lex.slots.toList.flatten

/-- The tokens from here on; each step takes at least one character. -/
def run : (steps : Nat) → Lexer → Tokens
  | 0, lex => ⟨lex.tokens, none⟩
  | steps + 1, lex =>
    let lex := skipBlanks (lex.cur.rest.length + 1) lex.skipMark
    match lex.dropStaleKeys with
    | .error e => ⟨lex.tokens, some e⟩
    | .ok lex =>
      let lex := lex.closeBlocks lex.cur.column
      if lex.cur.rest.isEmpty then
        match lex.endDocument with
        | .ok lex => ⟨lex.tokens, none⟩
        | .error e => ⟨lex.tokens, some e⟩
      else match lex.takeToken with
        | .ok lex => run steps lex
        | .error e => ⟨lex.tokens, some e⟩

end Lexer

/-- The tokens of a text. -/
def Tokens.ofText (text : List Char) : Tokens :=
  if text.all isAllowed then Lexer.run (text.length + 1) (.start text) else ⟨[], some .malformed⟩

end MethodLint.Yaml
