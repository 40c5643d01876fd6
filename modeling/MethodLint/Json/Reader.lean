import MethodLint.Decimal.Numeral
import MethodLint.Json.Error
import MethodLint.Text.Hexadecimal
import MethodLint.Value.Basic

/-!
Reading a JSON document into a value. Arrays become lists and objects mappings, in which the last of
several equal keys wins and the first gives the place; numbers with a point or an exponent are
binary, all others whole. Besides the standard's numbers there are `NaN`, `Infinity` and
`-Infinity`. The reader goes down the nesting with a budget, so a document nested more deeply than
that is refused, and along the text with a cursor that knows its index.
-/
namespace MethodLint.Json

/-- What is left of a text, and the index at which it starts. -/
structure Cursor where
  rest : List Char
  index : Nat

/-- The outcome of reading a part of a text: what was read, and where the reader stands. -/
abbrev Reading (α : Type) := Except Error (α × Cursor)

/-- White space of the grammar. -/
def isSpace (c : Char) : Bool := c = ' ' || c = '\t' || c = '\n' || c = '\r'

/-- Counts and drops white space. -/
def skipSpaceFrom : List Char → Nat → Cursor
  | c :: rest, index => if isSpace c then skipSpaceFrom rest (index + 1) else ⟨c :: rest, index⟩
  | [], index => ⟨[], index⟩

/-- The cursor after white space. -/
def Cursor.skipSpace (cur : Cursor) : Cursor := skipSpaceFrom cur.rest cur.index

/-- The cursor some characters on. -/
def Cursor.drop (cur : Cursor) (n : Nat) : Cursor := ⟨cur.rest.drop n, cur.index + n⟩

/-- An error at the cursor. -/
def Cursor.fail {α : Type} (cur : Cursor) (expected : Expectation) : Except Error α :=
  .error (.grammar expected cur.index)

/-- The letter of an escape and what it stands for. -/
def escape? : Char → Option Char
  | '"' => some '"'
  | '\\' => some '\\'
  | '/' => some '/'
  | 'b' => some '\x08'
  | 'f' => some '\x0c'
  | 'n' => some '\n'
  | 'r' => some '\r'
  | 't' => some '\t'
  | _ => none

/-- Four hexadecimal digits and at least one character after them. -/
def codeUnit? : List Char → Option (Nat × List Char)
  | a :: b :: c :: d :: next :: rest => do
    let a ← Text.hexValue? a
    let b ← Text.hexValue? b
    let c ← Text.hexValue? c
    let d ← Text.hexValue? d
    return (((a * 16 + b) * 16 + c) * 16 + d, next :: rest)
  | _ => none

/-- The low half of a pair of code units, if one follows. -/
def lowHalf? : List Char → Option (Nat × List Char)
  | '\\' :: 'u' :: rest => do
    let (n, rest) ← codeUnit? rest
    if 0xDC00 ≤ n ∧ n ≤ 0xDFFF then some (n, rest) else none
  | _ => none

/-- The rest of a text between quotes. The index of the opening quote is `start`. -/
def readString (start : Nat) : (steps : Nat) → (done : List Char) → Cursor → Reading String
  | 0, _, _ => .error (.grammar .closingQuote start)
  | steps + 1, done, cur =>
    match cur.rest with
    | [] => .error (.grammar .closingQuote start)
    | '"' :: rest => .ok (String.ofList done.reverse, ⟨rest, cur.index + 1⟩)
    | '\\' :: [] => .error (.grammar .closingQuote start)
    | '\\' :: 'u' :: rest =>
      match codeUnit? rest with
      | none => .error (.grammar .codeUnit (cur.index + 1))
      | some (n, after) =>
        if 0xD800 ≤ n ∧ n ≤ 0xDBFF then
          match lowHalf? after with
          | some (low, after) =>
            let c := Char.ofNat (0x10000 + (n - 0xD800) * 0x400 + (low - 0xDC00))
            readString start steps (c :: done) ⟨after, cur.index + 12⟩
          | none => readString start steps ('\uFFFD' :: done) ⟨after, cur.index + 6⟩
        else
          let c := if 0xDC00 ≤ n ∧ n ≤ 0xDFFF then '\uFFFD' else Char.ofNat n
          readString start steps (c :: done) ⟨after, cur.index + 6⟩
    | '\\' :: c :: rest =>
      match escape? c with
      | none => .error (.grammar .escape cur.index)
      | some c => readString start steps (c :: done) ⟨rest, cur.index + 2⟩
    | c :: rest =>
      if c.toNat < 0x20 then .error (.grammar .plainCharacter cur.index)
      else readString start steps (c :: done) ⟨rest, cur.index + 1⟩

/-- A text between quotes; the cursor is after the opening quote. -/
def Cursor.string (cur : Cursor) : Reading String :=
  readString (cur.index - 1) (cur.rest.length + 1) [] cur

/-- The part after the point of a number, if there is one. -/
def fraction? : List Char → Option (List Char × List Char)
  | '.' :: rest =>
    let digits := rest.takeWhile Decimal.isDigit
    if digits.isEmpty then none else some (digits, rest.drop digits.length)
  | _ => none

/-- The exponent of a number, if there is one: its text's length, its value, and the rest. -/
def exponent? : List Char → Option (Nat × Int × List Char)
  | e :: rest =>
    if e = 'e' ∨ e = 'E' then
      let (signs, negative, rest) := match rest with
        | '-' :: rest => (1, true, rest)
        | '+' :: rest => (1, false, rest)
        | rest => (0, false, rest)
      let digits := rest.takeWhile Decimal.isDigit
      if digits.isEmpty then none
      else
        let n : Int := Decimal.ofDigits (digits.take 12)
        some (1 + signs + digits.length, if negative then -n else n, rest.drop digits.length)
    else none
  | [] => none

/-- The whole part of a number: a single zero, or all digits. -/
def wholePart : List Char → List Char
  | '0' :: _ => ['0']
  | rest => rest.takeWhile Decimal.isDigit

/-- A number without its sign; `start` is the cursor at the sign. -/
def readNumber (negative : Bool) (start cur : Cursor) : Reading Value :=
  let whole := wholePart cur.rest
  if whole.isEmpty then start.fail .value
  else
    let after := cur.drop whole.length
    match fraction? after.rest, exponent? ((fraction? after.rest).elim after.rest Prod.snd) with
    | none, none =>
      match Decimal.intOfDigits negative whole with
      | .ok n => .ok (.int n, after)
      | .error fault => .error (.fault fault)
    | fraction, exponent =>
      let digits := (fraction.map Prod.fst).getD []
      let after := if fraction.isSome then after.drop (digits.length + 1) else after
      match exponent with
      | none => .ok (.float (Decimal.floatOfDigits negative whole digits 0), after)
      | some (length, e, _) =>
        .ok (.float (Decimal.floatOfDigits negative whole digits e), after.drop length)

/-- A keyword of the grammar, with its value. -/
def keyword? (cs : List Char) : Option (Value × Nat) :=
  if "null".toList.isPrefixOf cs then some (.null, 4)
  else if "true".toList.isPrefixOf cs then some (.bool true, 4)
  else if "false".toList.isPrefixOf cs then some (.bool false, 5)
  else if "NaN".toList.isPrefixOf cs then some (.float (0.0 / 0.0), 3)
  else if "Infinity".toList.isPrefixOf cs then some (.float (1.0 / 0.0), 8)
  else if "-Infinity".toList.isPrefixOf cs then some (.float (-1.0 / 0.0), 9)
  else none

/-- A number or keyword. -/
def readAtom (cur : Cursor) : Reading Value :=
  match keyword? cur.rest with
  | some (value, length) => .ok (value, cur.drop length)
  | none =>
    match cur.rest with
    | '-' :: rest => readNumber true cur ⟨rest, cur.index + 1⟩
    | _ => readNumber false cur cur

/-- The items of an array; the cursor is at an item. -/
def readItems (item : Cursor → Reading Value) :
    (steps : Nat) → (done : List Value) → Cursor → Reading Value
  | 0, _, cur => cur.fail .value
  | steps + 1, done, cur =>
    match item cur with
    | .error e => .error e
    | .ok (value, cur) =>
      let cur := cur.skipSpace
      match cur.rest with
      | ']' :: _ => .ok (.list (value :: done).reverse, cur.drop 1)
      | ',' :: _ => readItems item steps (value :: done) (cur.drop 1).skipSpace
      | _ => cur.fail .comma

/-- Entries with one more. An equal key keeps its place and gets the new value. -/
def insertEntry (key : String) (value : Value) :
    List (Value × Value) → Option (List (Value × Value))
  | [] => none
  | (.str k, v) :: rest =>
    if k = key then some ((.str k, value) :: rest)
    else (insertEntry key value rest).map ((.str k, v) :: ·)
  | entry :: rest => (insertEntry key value rest).map (entry :: ·)

/-- Entries, held backwards, with one more. -/
def addEntry (key : String) (value : Value) (entries : List (Value × Value)) :
    List (Value × Value) :=
  (insertEntry key value entries).getD ((.str key, value) :: entries)

/-- The entries of an object; the cursor is where a name must stand. -/
def readEntries (item : Cursor → Reading Value) :
    (steps : Nat) → (done : List (Value × Value)) → Cursor → Reading Value
  | 0, _, cur => cur.fail .propertyName
  | steps + 1, done, cur =>
    match cur.rest with
    | '"' :: _ =>
      match (cur.drop 1).string with
      | .error e => .error e
      | .ok (key, cur) =>
        let cur := cur.skipSpace
        match cur.rest with
        | ':' :: _ =>
          match item (cur.drop 1).skipSpace with
          | .error e => .error e
          | .ok (value, cur) =>
            let cur := cur.skipSpace
            let done := addEntry key value done
            match cur.rest with
            | '}' :: _ => .ok (.map done.reverse, cur.drop 1)
            | ',' :: _ => readEntries item steps done (cur.drop 1).skipSpace
            | _ => cur.fail .comma
        | _ => cur.fail .colon
    | _ => cur.fail .propertyName

/-- A text as a value; the cursor is at the opening quote. -/
def readText (cur : Cursor) : Reading Value :=
  match (cur.drop 1).string with
  | .error e => .error e
  | .ok (s, cur) => .ok (.str s, cur)

/-- A value nested at most `budget` levels deep. -/
def readValue : (budget : Nat) → Cursor → Reading Value
  | 0, cur =>
    match cur.rest with
    | '[' :: _ | '{' :: _ => .error (.fault .tooDeep)
    | '"' :: _ => readText cur
    | _ => readAtom cur
  | budget + 1, cur =>
    match cur.rest with
    | [] => cur.fail .value
    | '[' :: _ =>
      let inside := (cur.drop 1).skipSpace
      match inside.rest with
      | ']' :: _ => .ok (.list [], inside.drop 1)
      | _ => readItems (readValue budget) (inside.rest.length + 1) [] inside
    | '{' :: _ =>
      let inside := (cur.drop 1).skipSpace
      match inside.rest with
      | '}' :: _ => .ok (.map [], inside.drop 1)
      | _ => readEntries (readValue budget) (inside.rest.length + 1) [] inside
    | '"' :: _ => readText cur
    | _ => readAtom cur

/-- A document of one value, nested at most `budget` levels deep. -/
def read (budget : Nat) (text : String) : Except Error Value :=
  let cs := text.toList
  match cs with
  | '\uFEFF' :: _ => .error (.grammar .noByteOrderMark 0)
  | _ =>
    match readValue budget (Cursor.mk cs 0).skipSpace with
    | .error e => .error e
    | .ok (value, cur) =>
      let cur := cur.skipSpace
      if cur.rest.isEmpty then .ok value else cur.fail .documentEnd

end MethodLint.Json
