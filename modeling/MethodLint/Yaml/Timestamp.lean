import MethodLint.Decimal.Numeral
import MethodLint.Fault
import MethodLint.Value.Basic

/-!
Dates and moments as scalars: year, month and day with dashes, and then, behind a letter or blanks,
a time of day with a fraction of seconds and the distance from universal time. Whether the numbers
denote a day of the calendar is asked only when the value is built.
-/
namespace MethodLint.Yaml

/-- A time of day. -/
structure Clock where
  hour : Nat
  minute : Nat
  second : Nat
  microsecond : Nat
  offset : Option Int

/-- The numbers of a date or moment; whether month and day have two digits. -/
structure Timestamp where
  year : Nat
  month : Nat
  day : Nat
  isPadded : Bool
  clock : Option Clock

namespace Timestamp

/-- At least `least` and at most `most` digits: how many there are, and their number. -/
def number? (least most : Nat) (text : List Char) : Option (Nat × Nat × List Char) :=
  let digits := (text.take most).takeWhile Decimal.isDigit
  if digits.length < least then none
  else some (digits.length, Decimal.ofDigits digits, text.drop digits.length)

/-- The text behind a character. -/
def behind? (c : Char) : List Char → Option (List Char)
  | [] => none
  | d :: rest => if d = c then some rest else none

/-- A space or a tab. -/
def isSpace (c : Char) : Bool := c = ' ' || c = '\t'

/-- The text behind the letter or blanks between day and time. -/
def behindGap? : List Char → Option (List Char)
  | [] => none
  | c :: rest =>
    if c = 'T' ∨ c = 't' then some rest
    else if isSpace c then some (rest.dropWhile isSpace)
    else none

/-- The millionths that the digits of a fraction denote; further digits are cut off. -/
def millionths (digits : List Char) : Nat :=
  let digits := digits.take 6
  Decimal.ofDigits (digits ++ List.replicate (6 - digits.length) '0')

/-- The distance from universal time at the end of a text: in minutes, if there is one. -/
def offset? (text : List Char) : Option (Option Int) :=
  match text.dropWhile isSpace with
  | [] => if text.isEmpty then some none else none
  | ['Z'] => some (some 0)
  | sign :: rest =>
    if sign = '+' ∨ sign = '-' then
      match number? 1 2 rest with
      | none => none
      | some (_, hours, rest) =>
        let minutes? := match rest with
          | [] => some 0
          | ':' :: rest =>
            match number? 2 2 rest with
            | some (_, minutes, []) => some minutes
            | _ => none
          | _ => none
        minutes?.map fun (minutes : Nat) =>
          let n : Int := hours * 60 + minutes
          some (if sign = '-' then -n else n)
    else none

/-- A time of day at the end of a text. -/
def clock? (text : List Char) : Option Clock := do
  let (_, hour, rest) ← number? 1 2 text
  let (_, minute, rest) ← number? 2 2 (← behind? ':' rest)
  let (_, second, rest) ← number? 2 2 (← behind? ':' rest)
  match behind? '.' rest with
  | some rest =>
    let digits := rest.takeWhile Decimal.isDigit
    return ⟨hour, minute, second, millionths digits, ← offset? (rest.drop digits.length)⟩
  | none => return ⟨hour, minute, second, 0, ← offset? rest⟩

/-- The numbers of a date or moment. -/
def ofText? (text : List Char) : Option Timestamp := do
  let (_, year, rest) ← number? 4 4 text
  let (monthLength, month, rest) ← number? 1 2 (← behind? '-' rest)
  let (dayLength, day, rest) ← number? 1 2 (← behind? '-' rest)
  let isPadded := monthLength = 2 && dayLength = 2
  if rest.isEmpty then return ⟨year, month, day, isPadded, none⟩
  else return ⟨year, month, day, isPadded, some (← clock? (← behindGap? rest))⟩

/-- What a plain text must look like to be read as a date or moment. -/
def isPlain (t : Timestamp) : Bool := t.isPadded || t.clock.isSome

/-- The date or moment with these numbers. -/
def value (t : Timestamp) : Except Fault Value :=
  let result := match t.clock with
    | none => (Date.of t.year t.month t.day).map Value.date
    | some c =>
      (Moment.of t.year t.month t.day c.hour c.minute c.second c.microsecond c.offset).map
        Value.moment
  result.mapError Fault.calendar

end Timestamp

end MethodLint.Yaml
