import Phrasebook.Scalar
import Phrasebook.Yaml.Characters

/-!
# Timestamps

How days and moments are written: year, month and day, then possibly a time of day with a fraction
and an offset from universal time. Whether such fields name a day that exists is a separate
question, answered by the calendar.
-/

namespace Phrasebook.Yaml

/-- A time of day as it is written. -/
structure WrittenTime where
  hour : Nat
  minute : Nat
  second : Nat
  /-- the digits after the point -/
  fraction : List Char
  /-- the minutes that local time is ahead of universal time -/
  offset? : Option Int
deriving Repr, DecidableEq

/-- A day or moment as it is written. -/
structure Timestamp where
  year : Nat
  month : Nat
  day : Nat
  time? : Option WrittenTime
deriving Repr, DecidableEq

namespace Timestamp

/-! ## Digits -/

/-- The number that ASCII digits write. -/
def number (digits : List Char) : Nat :=
  digits.foldl (fun n c => n * 10 + (c.toNat - '0'.toNat)) 0

/-- Takes digits off: at most `most`, and no fewer than `least`. -/
def takeDigits? (least most : Nat) (s : List Char) : Option (Nat × List Char) :=
  let digits := (s.take most).takeWhile isAsciiDigit
  if digits.length < least then none else some (number digits, s.drop digits.length)

/-- Takes a character off. -/
def takeChar? (c : Char) : List Char → Option (List Char)
  | d :: rest => if d = c then some rest else none
  | [] => none

/-! ## Parts -/

/-- Takes off what separates a day from its time: the letter T, or blanks. -/
def takeGap? : List Char → Option (List Char)
  | c :: rest =>
    if c = 'T' || c = 't' then some rest
    else if isSpace c then some (rest.dropWhile isSpace)
    else none
  | [] => none

/-- Reads an offset that takes up all of the text: nothing, or after blanks either Z or a sign,
hours and possibly minutes. -/
def offsetOf? (s : List Char) : Option (Option Int) :=
  match s, s.dropWhile isSpace with
  | [], _ => some none
  | _, ['Z'] => some (some 0)
  | _, sign :: rest =>
    if sign = '+' || sign = '-' then do
      let (hours, rest) ← takeDigits? 1 2 rest
      let minutes ←
        match rest with
        | [] => some 0
        | _ => do
          let (minutes, rest) ← takeDigits? 2 2 (← takeChar? ':' rest)
          if rest.isEmpty then some minutes else none
      let total : Int := (hours * 60 + minutes : Nat)
      return some (if sign = '-' then -total else total)
    else none
  | _, [] => none

/-- Reads a time of day that takes up all of the text. -/
def timeOf? (s : List Char) : Option WrittenTime := do
  let (hour, s) ← takeDigits? 1 2 s
  let (minute, s) ← takeDigits? 2 2 (← takeChar? ':' s)
  let (second, s) ← takeDigits? 2 2 (← takeChar? ':' s)
  let (fraction, s) :=
    match s with
    | '.' :: rest => (rest.takeWhile isAsciiDigit, rest.dropWhile isAsciiDigit)
    | _ => ([], s)
  return ⟨hour, minute, second, fraction, ← offsetOf? s⟩

/-- Reads a timestamp that takes up all of the text. -/
def ofChars? (s : List Char) : Option Timestamp := do
  let (year, s) ← takeDigits? 4 4 s
  let (month, s) ← takeDigits? 1 2 (← takeChar? '-' s)
  let (day, s) ← takeDigits? 1 2 (← takeChar? '-' s)
  match s with
  | [] => return ⟨year, month, day, none⟩
  | _ => return ⟨year, month, day, some (← timeOf? (← takeGap? s))⟩

/-! ## Meaning -/

/-- The microseconds of a fraction; digits after the sixth do not count. -/
def microseconds (fraction : List Char) : Nat :=
  let kept := fraction.take 6
  number kept * Nat.pow 10 (6 - kept.length)

/-- The day or moment that a timestamp names, if there is one. -/
def toScalar? (t : Timestamp) : Option Scalar := do
  let date ← Date.ofFields? t.year t.month t.day
  match t.time? with
  | none => return .date date
  | some w =>
    return .moment (← Moment.ofFields? date w.hour w.minute w.second (microseconds w.fraction)
      w.offset?)

example : (ofChars? "2001-12-14 21:59:43.10 -5".toList).bind (·.time?)
    = some ⟨21, 59, 43, ['1', '0'], some (-300)⟩ := by decide +kernel

end Timestamp

end Phrasebook.Yaml
