import MethodLint.Text.Hexadecimal
import MethodLint.Yaml.Cursor

/-!
The texts of scalars: plain ones, ones between quotes, and blocks. Inside a text a single line break
reads as a space and further ones as themselves; a block keeps its breaks unless it is folded.
-/
namespace MethodLint.Yaml

/-- Some line breaks, and the cursor behind them. -/
abbrev Breaks := List Char × Cursor

/-- How a break and the breaks after it are read: a lone line feed as a space. -/
def foldBreaks (first : Char) (more : List Char) : List Char :=
  if first ≠ '\n' then first :: more
  else if more.isEmpty then [' ']
  else more

/-! ## Quoted scalars -/

/-- What a letter behind a backslash stands for. -/
def escape? : Char → Option Char
  | '0' => some '\x00'
  | 'a' => some '\x07'
  | 'b' => some '\x08'
  | 't' | '\t' => some '\t'
  | 'n' => some '\n'
  | 'v' => some '\x0b'
  | 'f' => some '\x0c'
  | 'r' => some '\r'
  | 'e' => some '\x1b'
  | ' ' => some ' '
  | '"' => some '"'
  | '\\' => some '\\'
  | '/' => some '/'
  | 'N' => some '\x85'
  | '_' => some '\xa0'
  | 'L' => some '\u2028'
  | 'P' => some '\u2029'
  | _ => none

/-- The number of digits behind a letter that names a code point. -/
def escapeLength? : Char → Option Nat
  | 'x' => some 2
  | 'u' => some 4
  | 'U' => some 8
  | _ => none

/-- The value of some hexadecimal digits. -/
def hexNumber? (digits : List Char) : Option Nat :=
  digits.foldlM (fun n c => (Text.hexValue? c).map (n * 16 + ·)) 0

/-- The character of a code point. Halves of pairs are replaced. -/
def characterOf (n : Nat) : Result Char :=
  if 0x10FFFF < n then .error (.fault .badCodePoint)
  else .ok (if 0xD800 ≤ n ∧ n ≤ 0xDFFF then '\uFFFD' else Char.ofNat n)

/-- The breaks between the lines of a quoted text, and the spaces before the next line. -/
def quotedBreaks : (steps : Nat) → (found : List Char) → Cursor → Result Breaks
  | 0, found, cur => .ok (found.reverse, cur)
  | steps + 1, found, cur =>
    if cur.isAnySeparator then malformed
    else
      let cur := cur.skip fun c => c = ' ' || c = '\t'
      match cur.lineBreak? with
      | some (c, cur) => quotedBreaks steps (c :: found) cur
      | none => .ok (found.reverse, cur)

/-- A character of a quoted text behind a backslash. -/
def escaped (cur : Cursor) : Result (List Char × Cursor) :=
  let c := cur.head
  match escape? c, escapeLength? c with
  | some c, _ => .ok ([c], cur.next)
  | none, some length =>
    let digits := cur.next.rest.take length
    match hexNumber? digits with
    | some n =>
      if digits.length = length then do
        return ([← characterOf n], cur.next.drop length)
      else malformed
    | none => malformed
  | none, none =>
    match cur.lineBreak? with
    | some (_, cur) => quotedBreaks (cur.rest.length + 1) [] cur
    | none => malformed

/-- The rest of a quoted text; what was read is held backwards. -/
def quotedFrom (double : Bool) : (steps : Nat) → (done : List Char) → Cursor →
    Result (String × Cursor)
  | 0, _, _ => malformed
  | steps + 1, done, cur =>
    match cur.rest with
    | [] => malformed
    | '\'' :: '\'' :: _ =>
      if double then quotedFrom double steps ('\'' :: done) cur.next
      else quotedFrom double steps ('\'' :: done) (cur.drop 2)
    | c :: _ =>
      if c = (if double then '"' else '\'') then .ok (String.ofList done.reverse, cur.next)
      else if double ∧ c = '\\' then
        match escaped cur.next with
        | .ok (cs, cur) => quotedFrom double steps (cs.reverse ++ done) cur
        | .error e => .error e
      else if isWideGap c then
        let (spaces, after) := cur.span fun c => c = ' ' || c = '\t'
        match after.lineBreak? with
        | some (c, cur) =>
          match quotedBreaks (cur.rest.length + 1) [] cur with
          | .ok (breaks, cur) => quotedFrom double steps ((foldBreaks c breaks).reverse ++ done) cur
          | .error e => .error e
        | none => quotedFrom double steps (spaces.reverse ++ done) after
      else quotedFrom double steps (c :: done) cur.next

/-- A quoted text; the cursor is at its opening quote. -/
def quotedScalar (double : Bool) (cur : Cursor) : Result (String × Cursor) :=
  quotedFrom double (2 * cur.rest.length + 2) [] cur.next

/-! ## Plain scalars -/

/-- A plain text ends before this character, which the next one follows. -/
def endsPlain (inFlow : Bool) (c next : Char) : Bool :=
  isWideGap c
    || (c = ':' && (isWideGap next || (inFlow && ",[]\x7b\x7d".toList.contains next)))
    || (inFlow && ",?[]\x7b\x7d".toList.contains c)

/-- A run of a plain text without spaces. -/
def plainRun (inFlow : Bool) : List Char → List Char
  | [] => []
  | c :: rest =>
    if endsPlain inFlow c (rest.headD ending) then [] else c :: plainRun inFlow rest

/-- The breaks after the first one between the lines of a plain text; nothing is answered at a
separator of documents. -/
def plainBreaks : (steps : Nat) → (found : List Char) → Cursor → Option (List Char) × Cursor
  | 0, found, cur => (some found.reverse, cur)
  | steps + 1, found, cur =>
    if cur.head = ' ' then plainBreaks steps found cur.next
    else match cur.lineBreak? with
      | some (c, cur) =>
        if cur.isAnySeparator then (none, cur) else plainBreaks steps (c :: found) cur
      | none => (some found.reverse, cur)

/-- The spaces and breaks between two runs of a plain text; whether there were breaks. -/
def plainSpaces (cur : Cursor) : List Char × Bool × Cursor :=
  let (spaces, cur) := cur.span (· = ' ')
  match cur.lineBreak? with
  | some (c, cur) =>
    if cur.isAnySeparator then ([], true, cur)
    else match plainBreaks (cur.rest.length + 1) [] cur with
      | (some breaks, cur) => (foldBreaks c breaks, true, cur)
      | (none, cur) => ([], true, cur)
  | none => (spaces, false, cur)

/-- A plain text: what was read of it, whether it reached over a line break, and the cursor. -/
structure PlainScalar where
  text : String
  isBroken : Bool
  after : Cursor

/-- The rest of a plain text. Lines that continue it must stand right of `indent`. -/
def plainFrom (inFlow : Bool) (indent : Nat) : (steps : Nat) → (done spaces : List Char) →
    (isBroken : Bool) → Cursor → PlainScalar
  | 0, done, _, isBroken, cur => ⟨String.ofList done.reverse, isBroken, cur⟩
  | steps + 1, done, spaces, isBroken, cur =>
    let run := if cur.head = '#' then [] else plainRun inFlow cur.rest
    if run.isEmpty then ⟨String.ofList done.reverse, isBroken, cur⟩
    else
      let done := run.reverse ++ (spaces.reverse ++ done)
      let (spaces, broken, cur) := plainSpaces (cur.drop run.length)
      if spaces.isEmpty ∨ cur.head = '#' ∨ (!inFlow ∧ cur.column < indent) then
        ⟨String.ofList done.reverse, broken, cur⟩
      else plainFrom inFlow indent steps done spaces broken cur

/-- A plain text. -/
def plainScalar (inFlow : Bool) (indent : Nat) (cur : Cursor) : PlainScalar :=
  plainFrom inFlow indent (cur.rest.length + 1) [] [] false cur

/-! ## Block scalars -/

/-- What becomes of the breaks at the end of a block. -/
inductive Chomping
  | strip
  | clip
  | keep
  deriving DecidableEq

/-- The sign that tells what becomes of the last breaks. -/
def chomping? : Char → Option Chomping
  | '+' => some .keep
  | '-' => some .strip
  | _ => none

/-- A digit that gives the indentation of a block. -/
def indentDigit? (c : Char) : Option Nat :=
  if '0' ≤ c ∧ c ≤ '9' then some (c.toNat - '0'.toNat) else none

/-- The header of a block: what becomes of its last breaks, and its indentation if it is given. -/
def blockHeader (cur : Cursor) : Result (Chomping × Option Nat × Cursor) := do
  let (sign, digit, cur) := match chomping? cur.head with
    | some sign =>
      match indentDigit? cur.next.head with
      | some n => (some sign, some n, cur.drop 2)
      | none => (some sign, none, cur.next)
    | none =>
      match indentDigit? cur.head with
      | some n =>
        match chomping? cur.next.head with
        | some sign => (some sign, some n, cur.drop 2)
        | none => (none, some n, cur.next)
      | none => (none, none, cur)
  if digit = some 0 then malformed
  else if isGap cur.head then return (sign.getD .clip, digit, ← cur.ignoredLine)
  else malformed

/-- The cursor behind the spaces before a column. -/
def skipToColumn (column : Nat) : (steps : Nat) → Cursor → Cursor
  | 0, cur => cur
  | steps + 1, cur =>
    if cur.column < column ∧ cur.head = ' ' then skipToColumn column steps cur.next else cur

/-- The breaks before the next line of a block, whose indentation is known. -/
def blockBreaks (indent : Nat) : (steps : Nat) → (found : List Char) → Cursor → Breaks
  | 0, found, cur => (found.reverse, cur)
  | steps + 1, found, cur =>
    let cur := skipToColumn indent (indent + 1) cur
    match cur.lineBreak? with
    | some (c, cur) => blockBreaks indent steps (c :: found) cur
    | none => (found.reverse, cur)

/-- The breaks before the first line of a block, and the greatest column that was reached. -/
def blockOpening : (steps : Nat) → (found : List Char) → (column : Nat) → Cursor →
    List Char × Nat × Cursor
  | 0, found, column, cur => (found.reverse, column, cur)
  | steps + 1, found, column, cur =>
    if cur.head = ' ' then blockOpening steps found (max column cur.next.column) cur.next
    else match cur.lineBreak? with
      | some (c, cur) => blockOpening steps (c :: found) column cur
      | none => (found.reverse, column, cur)

/-- The lines of a block. Of two lines that begin with other than white space, a folded block makes
one. -/
def blockLines (folded : Bool) (chomping : Chomping) (indent : Nat) : (steps : Nat) →
    (done breaks : List Char) → Cursor → String × Cursor
  | 0, done, _, cur => (String.ofList done.reverse, cur)
  | steps + 1, done, breaks, cur =>
    let isFlush := cur.head ≠ ' ' ∧ cur.head ≠ '\t'
    let (line, cur) := cur.span fun c => !isBreak c
    let done := line.reverse ++ (breaks.reverse ++ done)
    let (lineBreak, cur) := match cur.lineBreak? with
      | some (c, cur) => ([c], cur)
      | none => ([], cur)
    let (breaks, cur) := blockBreaks indent (cur.rest.length + 1) [] cur
    if cur.column = indent ∧ cur.head ≠ ending then
      let joined :=
        if folded ∧ lineBreak = ['\n'] ∧ isFlush ∧ cur.head ≠ ' ' ∧ cur.head ≠ '\t' then
          if breaks.isEmpty then [' '] else []
        else lineBreak
      blockLines folded chomping indent steps (joined ++ done) breaks cur
    else
      let done := if chomping = .strip then done else lineBreak ++ done
      let done := if chomping = .keep then breaks.reverse ++ done else done
      (String.ofList done.reverse, cur)

/-- A block inside one that is indented to `outer`; the cursor is at its sign. -/
def blockScalar (folded : Bool) (outer : Int) (cur : Cursor) : Result (String × Cursor) := do
  let (chomping, increment, cur) ← blockHeader cur.next
  let least := (max (outer + 1) 1).toNat
  let steps := cur.rest.length + 1
  let (breaks, indent, cur) := match increment with
    | none =>
      let (breaks, column, cur) := blockOpening steps [] 0 cur
      (breaks, max least column, cur)
    | some n =>
      let (breaks, cur) := blockBreaks (least + n - 1) steps [] cur
      (breaks, least + n - 1, cur)
  if cur.column = indent ∧ cur.head ≠ ending then
    return blockLines folded chomping indent steps [] breaks cur
  else return (String.ofList (if chomping = .keep then breaks else []), cur)

end MethodLint.Yaml
