import MethodLint.Decimal.Loose
import MethodLint.Text.Base64
import MethodLint.Value.Number
import MethodLint.Yaml.Lexer
import MethodLint.Yaml.Node

/-!
The value of a document. A mapping may take entries from others, which its own entries override.
What is inside a collection is built only after everything beside the collection, so of several
faults the one that is nested least is reported, and among those the first.
-/
namespace MethodLint.Yaml

/-! ## Values of texts -/

/-- A plain result, which may be refused. -/
def ofFault {α : Type} (x : Except Fault α) : Result α := x.mapError Refusal.fault

/-- The parts of a text between colons. -/
def colonParts (text : List Char) : List (List Char) := text.splitOn ':'

/-- A truth value. -/
def boolOf (text : String) : Except Fault Value :=
  let word := Text.lower text
  if word = "yes" ∨ word = "true" ∨ word = "on" then .ok (.bool true)
  else if word = "no" ∨ word = "false" ∨ word = "off" then .ok (.bool false)
  else .error (.missingKey (Text.quoted word))

/-- A whole number without its sign and underscores: of base two, eight, ten or sixteen, or of groups
below sixty. -/
def unsignedInt : List Char → Except Fault Int
  | [] => .error .emptyNumeral
  | ['0'] => .ok 0
  | '0' :: 'b' :: rest => Decimal.looseInt 2 rest
  | '0' :: 'x' :: rest => Decimal.looseInt 16 rest
  | c :: rest =>
    if c = '0' then Decimal.looseInt 8 (c :: rest)
    else do
      let parts ← (colonParts (c :: rest)).mapM (Decimal.looseInt 10)
      return parts.foldl (fun n part => n * 60 + part) 0

/-- A whole number. -/
def intOf (text : String) : Except Fault Value :=
  match text.toList.filter (· ≠ '_') with
  | [] => .error .emptyNumeral
  | chars => do
    let (negative, chars) := Decimal.signed chars
    let n ← unsignedInt chars
    return .int (if negative then -n else n)

/-- The sum of groups of sixty, the last of which counts ones. -/
def sexagesimal (parts : List Float) : Float :=
  (parts.reverse.zipIdx).foldl (fun x part => x + part.1 * Float.ofNat (Nat.pow 60 part.2)) 0.0

/-- A fraction without its sign and underscores, in small letters. -/
def unsignedFloat (text : List Char) : Except Fault Float :=
  if text = ".inf".toList then .ok (1.0 / 0.0)
  else if text = ".nan".toList then .ok (0.0 / 0.0)
  else if text.contains ':' then do
    return sexagesimal (← (colonParts text).mapM Decimal.looseFloat)
  else Decimal.looseFloat text

/-- A fraction. -/
def floatOf (text : String) : Except Fault Value :=
  match (Text.lower (String.ofList (text.toList.filter (· ≠ '_')))).toList with
  | [] => .error .emptyNumeral
  | chars => do
    let (negative, chars) := Decimal.signed chars
    let x ← unsignedFloat chars
    return .float (if negative then -x else x)

/-- Binary data, written in ASCII. -/
def binaryOf (text : String) : Result Value :=
  if text.toList.all fun c => c.toNat < 128 then
    match Text.base64Bytes text.toList with
    | some bytes => .ok (.bytes bytes)
    | none => malformed
  else malformed

/-- A date or moment. -/
def timestampOf (text : String) : Except Fault Value :=
  match Timestamp.ofText? (Tag.withoutLastBreak text.toList) with
  | some t => t.value
  | none => .error (.noOperation "NoneType" "groupdict")

/-- The value of a text. -/
def textValue (tag : Tag) (text : String) : Result Value :=
  match tag with
  | .null => .ok .null
  | .bool => ofFault (boolOf text)
  | .int => ofFault (intOf text)
  | .float => ofFault (floatOf text)
  | .binary => binaryOf text
  | .timestamp => ofFault (timestampOf text)
  | .str => .ok (.str text)
  | _ => malformed

/-- Whether the value of a tag is a collection, which is built later than what stands beside it. -/
def Tag.isCollection : Tag → Bool
  | .orderedMap | .pairs | .set | .seq | .map => true
  | _ => false

/-! ## Values under construction -/

/-- A value, or a refusal and how far inside it was found. -/
abbrev Built (α : Type) := Except (Nat × Refusal) α

namespace Built

/-- A result that is found here. -/
def here {α : Type} (x : Result α) : Built α := x.mapError fun e => (0, e)

/-- A result of what is inside. -/
def inside {α : Type} (x : Built α) : Built α := x.mapError fun e => (e.1 + 1, e.2)

/-- Two results; of two refusals the one that was found less far inside. -/
def both {α β : Type} : Built α → Built β → Built (α × β)
  | .ok a, .ok b => .ok (a, b)
  | .error e, .ok _ => .error e
  | .ok _, .error e => .error e
  | .error e, .error f => .error (if f.1 < e.1 then f else e)

/-- Some results. -/
def all {α : Type} : List (Built α) → Built (List α)
  | [] => .ok []
  | x :: rest => (both x (all rest)).map fun pair => pair.1 :: pair.2

/-- A result as a key, which cannot be a collection. -/
def asKey : Built Value → Built Value
  | .ok v => match v with
    | .list _ | .tuple _ | .set _ | .map _ => .error (0, .malformed)
    | v => .ok v
  | .error (0, e) => .error (0, e)
  | .error _ => .error (0, .malformed)

end Built

/-- An entry of a mapping. -/
abbrev Entry := Built Value × Built Value

/-- The entries of a mapping: those it takes from others, and its own. -/
structure Entries where
  taken : List Entry
  own : List Entry

/-- All entries; of two with one key the later one counts. -/
def Entries.all (entries : Entries) : List Entry := entries.taken ++ entries.own

/-- The mapping of some entries. -/
def mapOf (entries : List Entry) : Built (List (Value × Value)) :=
  (Built.all (entries.map fun entry => Built.both entry.1.asKey entry.2)).map fun pairs =>
    pairs.foldl (fun done pair => Value.putKey pair.1 pair.2 done) []

/-! ## Values of nodes -/

mutual

/-- The text of a node: a scalar's own, or that of the default of a mapping. -/
def textOf? : Node → Option String
  | .scalar _ text => some text
  | .list _ _ => none
  | .map _ entries => defaultOf? entries

/-- The text of the first default among some entries. -/
def defaultOf? : List (Node × Node) → Option String
  | [] => none
  | (key, value) :: rest => if key.tag = .default then textOf? value else defaultOf? rest

end

mutual

/-- The value of a node. -/
def valueOf : Node → Built Value
  | .scalar tag text =>
    if tag.isCollection then Built.inside (Built.here malformed) else Built.here (textValue tag text)
  | .list tag items =>
    match tag with
    | .seq => Built.inside ((Built.all (valuesOf items)).map .list)
    | .orderedMap | .pairs => Built.inside ((Built.all (pairsOf items)).map .list)
    | .set | .map => Built.inside (Built.here malformed)
    | _ => Built.here malformed
  | .map tag entries =>
    match tag with
    | .map => Built.inside do return .map (← mapOf (← Built.here (entriesOf entries)).all)
    | .set =>
      Built.inside do
        return .set ((← mapOf (← Built.here (entriesOf entries)).all).map Prod.fst)
    | .seq | .orderedMap | .pairs => Built.inside (Built.here malformed)
    | tag =>
      match defaultOf? entries with
      | some text => Built.here (textValue tag text)
      | none => Built.here malformed

/-- The values of some nodes. -/
def valuesOf : List Node → List (Built Value)
  | [] => []
  | node :: rest => valueOf node :: valuesOf rest

/-- The pairs of some nodes. -/
def pairsOf : List Node → List (Built Value)
  | [] => []
  | node :: rest => pairOf node :: pairsOf rest

/-- The pair of a mapping with a single entry. -/
def pairOf : Node → Built Value
  | .map _ [(key, value)] =>
    (Built.both (valueOf key) (valueOf value)).map fun pair => .tuple [pair.1, pair.2]
  | _ => Built.here malformed

/-- The entries of a mapping. The key of a default stands for its own text. -/
def entriesOf : List (Node × Node) → Result Entries
  | [] => .ok ⟨[], []⟩
  | (key, value) :: rest =>
    if key.tag = .merge then do
      let first ← takenFrom value
      let entries ← entriesOf rest
      return ⟨first ++ entries.taken, entries.own⟩
    else do
      let entries ← entriesOf rest
      let name :=
        if key.tag = .default then Built.here (((textOf? key).map Value.str).elim malformed .ok)
        else valueOf key
      return ⟨entries.taken, (name, valueOf value) :: entries.own⟩

/-- The entries that are taken from a mapping, or from a list of them of which the first overrides
the others. -/
def takenFrom : Node → Result (List Entry)
  | .map _ entries => do return (← entriesOf entries).all
  | .list _ items => takenFromEach items
  | .scalar _ _ => malformed

/-- The entries that are taken from some mappings, the last one's first. -/
def takenFromEach : List Node → Result (List Entry)
  | [] => .ok []
  | .map _ entries :: rest => do
    let first ← entriesOf entries
    return (← takenFromEach rest) ++ first.all
  | _ :: _ => malformed

end

/-- The value of the document that a text holds; null if it holds none. -/
def read (text : String) : Result Value := do
  match ← Node.ofTokens? (.ofText text.toList) with
  | none => return .null
  | some node => (valueOf node).mapError Prod.snd

end MethodLint.Yaml
