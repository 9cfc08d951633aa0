import Phrasebook.Decimal.Nearest
import Phrasebook.Text.Digits

/-!
# Numerals

How the text of a number is read. Blanks may stand around it and one sign in front. The digits are
those of any script; the letters that continue the digits of a base above ten are ASCII.

* A whole number in base two, eight or sixteen may start with `0b`, `0o` or `0x`. In base ten it has
  at most 4300 digits.
* A number with a fraction or an exponent has at least one digit before the exponent. `inf`,
  `infinity` and `nan` are read too.
-/

namespace Phrasebook.Decimal

open Phrasebook.Text

/-- The most digits that a decimal whole number may have, read or written. -/
def maxDigits : Nat := 4300

/-- Drops the blanks at both ends. -/
def trim (s : List Char) : List Char :=
  ((s.dropWhile isBlank).reverse.dropWhile isBlank).reverse

/-- Takes a sign off; the result says whether it was a minus. -/
def takeSign : List Char → Bool × List Char
  | '-' :: rest => (true, rest)
  | '+' :: rest => (false, rest)
  | s => (false, s)

/-- The value of a digit in bases up to sixteen. -/
def baseDigit? (c : Char) : Option Nat :=
  match digitValue? c with
  | some v => some v
  | none =>
    if 'a' ≤ c && c ≤ 'z' then some (c.toNat - 'a'.toNat + 10)
    else if 'A' ≤ c && c ≤ 'Z' then some (c.toNat - 'A'.toNat + 10)
    else none

/-- Reads digits in a base after a value already read. -/
def digitsFrom? (base : Nat) : Nat → List Char → Option Nat
  | value, [] => some value
  | value, c :: rest =>
    match baseDigit? c with
    | some d => if d < base then digitsFrom? base (value * base + d) rest else none
    | none => none

/-- The value of a run of digits that is not empty. -/
def natural? (base : Nat) (s : List Char) : Option Nat :=
  if s.isEmpty then none else digitsFrom? base 0 s

/-- Drops the mark of a base, in either case. -/
def dropBaseMark (base : Nat) : List Char → List Char
  | '0' :: c :: rest =>
    if (base = 16 && (c = 'x' || c = 'X')) || (base = 8 && (c = 'o' || c = 'O'))
      || (base = 2 && (c = 'b' || c = 'B')) then rest
    else '0' :: c :: rest
  | s => s

/-- Reads a whole number in a base. -/
def int? (base : Nat) (s : List Char) : Option Int :=
  let (negative, body) := takeSign (trim s)
  let digits := dropBaseMark base body
  if base = 10 && maxDigits < digits.length then none
  else (natural? base digits).map fun n => if negative then -(n : Int) else n

/-- The scaled decimal `mantissa · 10 ^ exponent` as a floating point number. Exponents far beyond
the range of the format are settled without computing the power. -/
def scaledFloat (mantissa : Nat) (exponent : Int) : Float :=
  let magnitude := (mantissa.repr.length : Int) + exponent
  if mantissa = 0 || magnitude < -400 then nearest 0 1
  else if 400 < magnitude then infinity
  else nearest (mantissa * Nat.pow 10 exponent.toNat) (Nat.pow 10 (-exponent).toNat)

/-- The exponent of a number, when all of the text is one. -/
def exponentPart? : List Char → Option Int
  | [] => some 0
  | c :: rest =>
    if c = 'e' || c = 'E' then
      let (negative, digits) := takeSign rest
      (natural? 10 digits).map fun n => if negative then -(n : Int) else n
    else none

/-- Whether a character is a decimal digit. -/
def isDigit (c : Char) : Bool :=
  (digitValue? c).isSome

/-- Reads a number without sign or blanks. -/
def unsignedFloat? (s : List Char) : Option Float :=
  let word := s.map Char.toLower
  if word = "inf".toList || word = "infinity".toList then some infinity
  else if word = "nan".toList then some notANumber
  else
    let whole := s.takeWhile isDigit
    let afterWhole := s.drop whole.length
    let (fraction, rest) := match afterWhole with
      | '.' :: r => (r.takeWhile isDigit, r.dropWhile isDigit)
      | r => ([], r)
    match natural? 10 (whole ++ fraction), exponentPart? rest with
    | some m, some e => some (scaledFloat m (e - fraction.length))
    | _, _ => none

/-- Reads a floating point number. -/
def float? (s : List Char) : Option Float :=
  let (negative, body) := takeSign (trim s)
  (unsignedFloat? body).map fun x => if negative then -x else x

end Phrasebook.Decimal
