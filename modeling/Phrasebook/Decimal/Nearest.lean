/-!
# Nearest floating point number

The binary floating point number nearest to a quotient of natural numbers; of two equally near ones
the one with an even mantissa; infinity beyond the largest finite number.

The quotient is scaled by a power of two so that its integer part has the width of a mantissa, and
the rest of the division decides the rounding. Numbers too small for that width keep the least
exponent, which gives the subnormal ones. Exponent and mantissa are added, not put side by side, so
that a mantissa that rounds up to the next power of two carries into the exponent.
-/

namespace Phrasebook.Decimal

/-- The quotient rounded to the nearest natural number, a tie to the even one. -/
def roundDiv (num den : Nat) : Nat :=
  let q := num / den
  let r := num % den
  if 2 * r < den then q else if den < 2 * r then q + 1 else q + q % 2

/-- Rounding moves the quotient by at most one half. -/
theorem roundDiv_near (num : Nat) {den : Nat} (h : 0 < den) :
    2 * num ≤ 2 * (roundDiv num den * den) + den ∧
      2 * (roundDiv num den * den) ≤ 2 * num + den := by
  have hd := Nat.div_add_mod num den
  have hm := Nat.mod_lt num h
  have hc : den * (num / den) = num / den * den := Nat.mul_comm _ _
  unfold roundDiv
  simp only
  split
  · omega
  · split
    · rw [Nat.add_mul]; omega
    · rcases Nat.mod_two_eq_zero_or_one (num / den) with he | he <;>
        rw [he] <;> simp only [Nat.add_mul, Nat.one_mul, Nat.add_zero] <;> omega

/-- The encoding of infinity. -/
def infinityBits : Nat := 2047 * Nat.pow 2 52

/-- The encoding of the number nearest to `num / den`. -/
def nearestBits (num den : Nat) : Nat :=
  if num = 0 then 0 else
    let estimate := (Nat.log2 num : Int) - Nat.log2 den - 52
    let scaled (e : Int) : Nat × Nat := (num * Nat.pow 2 (-e).toNat, den * Nat.pow 2 e.toNat)
    let short := let (n, d) := scaled estimate; n / d < Nat.pow 2 52
    let e := max (if short then estimate - 1 else estimate) (-1074)
    let (n, d) := scaled e
    min ((e + 1074).toNat * Nat.pow 2 52 + roundDiv n d) infinityBits

/-- The floating point number nearest to `num / den`. -/
def nearest (num den : Nat) : Float :=
  Float.ofBits (UInt64.ofNat (nearestBits num den))

/-- Not a number. -/
def notANumber : Float :=
  Float.ofBits 0x7FF8000000000000

/-- Infinity. -/
def infinity : Float :=
  Float.ofBits (UInt64.ofNat infinityBits)

example : nearestBits 1 3 = 0x3FD5555555555555 := by decide
example : nearestBits 9007199254740993 1 = nearestBits 9007199254740992 1 := by decide

end Phrasebook.Decimal
