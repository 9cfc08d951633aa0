/-!
# Shortest decimals

A binary floating point number is written with the fewest digits that read back as the same number,
and, among the decimals with that many digits, with the one nearest to it.

A finite number is `m · 2 ^ q`. The reals that round to it form an interval around it; its ends
belong to it when `m` is even. On the grid of the multiples of `10 ^ k` the only candidates are the
two neighbours of the number, so the search goes from a coarse grid to finer ones and stops at the
first on which a neighbour lies in the interval. All comparisons are between natural numbers.
-/

namespace Phrasebook.Decimal

/-! ## The parts of a number -/

/-- A floating point number taken apart: its sign and, when finite, `mantissa · 2 ^ exponent`. -/
inductive Parts where
  | finite (negative : Bool) (mantissa : Nat) (exponent : Int)
  | infinite (negative : Bool)
  | nan
deriving Repr, DecidableEq

/-- The leading bit of a mantissa, which the encoding leaves out: the fraction field has 52 bits. -/
def hiddenBit : Nat := Nat.pow 2 52

/-- Takes a number apart by the fields of its encoding. -/
def Parts.ofBits (bits : Nat) : Parts :=
  let negative := bits / Nat.pow 2 63 % 2 == 1
  let biased := bits / hiddenBit % 2048
  let fraction := bits % hiddenBit
  if biased = 2047 then if fraction = 0 then .infinite negative else .nan
  else if biased = 0 then .finite negative fraction (-1074)
  else .finite negative (fraction + hiddenBit) (biased - 1075 : Int)

@[inherit_doc Parts.ofBits]
def Parts.ofFloat (x : Float) : Parts :=
  .ofBits x.toBits.toNat

/-! ## The interval of reals that round to a number -/

/-- The number and the ends of its interval, in units of `2 ^ exponent`. -/
structure Interval where
  low : Nat
  value : Nat
  high : Nat
  exponent : Int
  closed : Bool

/--
The interval of `m · 2 ^ q`. Half of the distance to each neighbour belongs to the number; below a
power of two the neighbours are twice as dense.
-/
def Interval.around (m : Nat) (q : Int) : Interval where
  low := if m = hiddenBit && q ≠ -1074 then 4 * m - 1 else 4 * m - 2
  value := 4 * m
  high := 4 * m + 2
  exponent := q - 2
  closed := m % 2 == 0

/-- Whether the multiple `d` of the grid lies in the interval; `scale` and `step` bring both to
one unit. -/
def Interval.holds (i : Interval) (scale step d : Nat) : Bool :=
  if i.closed then i.low * scale ≤ d * step && d * step ≤ i.high * scale
  else i.low * scale < d * step && d * step < i.high * scale

/-- The multiple of `10 ^ k` to write for the number, when one lies in the interval. -/
def Interval.onGrid? (i : Interval) (k : Int) : Option Nat :=
  let scale := Nat.pow 2 i.exponent.toNat * Nat.pow 10 (-k).toNat
  let step := Nat.pow 2 (-i.exponent).toNat * Nat.pow 10 k.toNat
  let below := i.value * scale / step
  let above := below + 1
  match i.holds scale step below, i.holds scale step above with
  | false, false => none
  | true, false => some below
  | false, true => some above
  | true, true =>
    let left := i.value * scale - below * step
    let right := above * step - i.value * scale
    if left < right then some below
    else if right < left then some above
    else if below % 2 = 0 then some below else some above

/-- Searches from the grid of `10 ^ k` towards finer ones, `fuel` grids in all. -/
def Interval.shortestFrom (i : Interval) : Nat → Int → Nat × Int
  | 0, k => (0, k)
  | fuel + 1, k =>
    match i.onGrid? k with
    | some d => (d, k)
    | none => i.shortestFrom fuel (k - 1)

/-- Digits and exponent of the shortest decimal of `m · 2 ^ q`, for `m` not zero. -/
def shortest (m : Nat) (q : Int) : Nat × Int :=
  let magnitude := ((Nat.log2 m : Int) + q) * 30103 / 100000
  (Interval.around m q).shortestFrom 24 (magnitude + 2)

/-! ## How decimals are written -/

/-- The decisions of a decimal format. -/
structure Style where
  /-- least scientific exponent that is written positionally -/
  positionalFrom : Int
  /-- first scientific exponent that is no longer written positionally -/
  positionalBelow : Int
  /-- least number of digits of a written exponent -/
  exponentWidth : Nat

/-- Fills a numeral with zeros on the left. -/
def padLeft (width : Nat) (digits : List Char) : List Char :=
  List.replicate (width - digits.length) '0' ++ digits

/-- The digits of a natural number. -/
def digitsOf (n : Nat) : List Char :=
  (Nat.repr n).toList

/-- Writes `digits · 10 ^ k` positionally, with at least one digit on each side of the point. -/
def positional (digits : List Char) (k : Int) : List Char :=
  if 0 ≤ k then digits ++ List.replicate k.toNat '0' ++ ['.', '0']
  else
    let places := (-k).toNat
    let filled := padLeft (places + 1) digits
    filled.take (filled.length - places) ++ '.' :: filled.drop (filled.length - places)

/-- Writes `digits · 10 ^ k` with one digit before the point and a signed exponent. -/
def scientific (width : Nat) (digits : List Char) (k : Int) : List Char :=
  let e := k + (digits.length : Int) - 1
  let sign := if e < 0 then '-' else '+'
  let mantissa := match digits with
    | [] => []
    | [d] => [d]
    | d :: rest => d :: '.' :: rest
  mantissa ++ 'e' :: sign :: padLeft width (digitsOf e.natAbs)

/-- Writes the digits of `d · 10 ^ k` in the style. -/
def Style.write (f : Style) (d : Nat) (k : Int) : List Char :=
  let digits := digitsOf d
  let e := k + (digits.length : Int) - 1
  if f.positionalFrom ≤ e && e < f.positionalBelow then positional digits k
  else scientific f.exponentWidth digits k

/-- Scalars are written positionally from one ten-thousandth to below `10 ^ 16`, and else with an
exponent of at least two digits. -/
def scalarStyle : Style := ⟨-4, 16, 2⟩

/-- The text of a number taken apart. -/
def Parts.text : Parts → String
  | .nan => "nan"
  | .infinite negative => if negative then "-inf" else "inf"
  | .finite negative m q =>
    let body := if m = 0 then ['0', '.', '0']
      else let (d, k) := shortest m q; scalarStyle.write d k
    String.ofList (if negative then '-' :: body else body)

/-- The text of a floating point number. -/
def floatText (x : Float) : String :=
  (Parts.ofFloat x).text

example : (Parts.finite false 1 0).text = "1.0" := by decide +kernel
example : (Parts.finite true 0 (-1074)).text = "-0.0" := by decide +kernel
example : (Parts.finite false 1 (-1074)).text = "5e-324" := by decide +kernel

end Phrasebook.Decimal
