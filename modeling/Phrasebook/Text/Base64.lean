/-!
# Base 64

Bytes written with sixty-four characters, six bits each, four characters to three bytes. Reading
passes over every character that is none of the sixty-four. Padding ends the text where it completes
a group of four, and is passed over elsewhere; the text may not stop inside a group otherwise.
-/

namespace Phrasebook.Text.Base64

/-- The six bits that a character stands for. -/
def value? (c : Char) : Option Nat :=
  if 'A' ≤ c && c ≤ 'Z' then some (c.toNat - 'A'.toNat)
  else if 'a' ≤ c && c ≤ 'z' then some (c.toNat - 'a'.toNat + 26)
  else if '0' ≤ c && c ≤ '9' then some (c.toNat - '0'.toNat + 52)
  else if c = '+' then some 62
  else if c = '/' then some 63
  else none

theorem value?_lt {c : Char} {v : Nat} (h : value? c = some v) : v < 64 := by
  have le_toNat {a b : Char} (h : a ≤ b) : a.toNat ≤ b.toNat := h
  unfold value? at h
  split at h
  · next hc =>
    simp only [Bool.and_eq_true, decide_eq_true_eq] at hc
    have := le_toNat hc.2
    cases h; simp only [Char.reduceToNat] at *; omega
  · split at h
    · next hc =>
      simp only [Bool.and_eq_true, decide_eq_true_eq] at hc
      have := le_toNat hc.2
      cases h; simp only [Char.reduceToNat] at *; omega
    · split at h
      · next hc =>
        simp only [Bool.and_eq_true, decide_eq_true_eq] at hc
        have := le_toNat hc.2
        cases h; simp only [Char.reduceToNat] at *; omega
      · split at h
        · cases h; omega
        · split at h
          · cases h; omega
          · cases h

/-- The byte that is complete when `v` comes after the six bits `previous` as the character of a
group with this place. The first character of a group completes none. -/
def completed (place previous v : Nat) : List UInt8 :=
  match place with
  | 0 => []
  | 1 => [UInt8.ofNat (previous % 64 * 4 + v / 16)]
  | 2 => [UInt8.ofNat (previous % 16 * 16 + v / 4)]
  | _ => [UInt8.ofNat (previous % 4 * 64 + v)]

/-- Reads on inside a group, after a number of its characters, the bits of the last one, and the
padding after it. -/
def decodeFrom? (place previous pads : Nat) : List Char → Option (List UInt8)
  | [] => if place = 0 then some [] else none
  | c :: rest =>
    if c = '=' then
      if 2 ≤ place && 4 ≤ place + pads + 1 then some []
      else decodeFrom? place previous (if 2 ≤ place then pads + 1 else pads) rest
    else
      match value? c with
      | none => decodeFrom? place previous pads rest
      | some v =>
        (decodeFrom? ((place + 1) % 4) v 0 rest).map (completed place previous v ++ ·)

/-- The bytes of a text. -/
def decode? (s : List Char) : Option (List UInt8) :=
  decodeFrom? 0 0 0 s

example : decode? "TWFu".toList = some [77, 97, 110] := by decide +kernel
example : decode? "T W\nE=".toList = some [77, 97] := by decide +kernel
example : decode? "TWF".toList = none := by decide +kernel

end Phrasebook.Text.Base64
