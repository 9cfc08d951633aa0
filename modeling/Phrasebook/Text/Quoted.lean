import Phrasebook.Text.Printable

/-!
# Quoted texts

Messages show keys, templates and names between quotes, so that blanks and control characters can
be seen.

The rules, in one place:

* single quotes, unless the text holds a single quote and no double quote; then double quotes
* a backslash stands before a backslash and before the quote in use
* line feed, carriage return and tab are `\n`, `\r`, `\t`
* any other character that is not printable is written by its code point, in lower case
  hexadecimal: `\xhh`, `\uhhhh` or `\Uhhhhhhhh`, whichever is the first that fits

Bytes follow the same rules with a `b` in front, and only printable ASCII is shown as itself.
-/

namespace Phrasebook.Text

/-! ## Hexadecimal digits -/

/-- The digit of a value below sixteen, in lower case. -/
def hexDigit (d : Nat) : Char :=
  if d < 10 then Char.ofNat ('0'.toNat + d) else Char.ofNat ('a'.toNat + (d - 10))

/-- The last `width` hexadecimal digits of a number. -/
def hexDigits : Nat → Nat → List Char
  | 0, _ => []
  | width + 1, n => hexDigits width (n / 16) ++ [hexDigit (n % 16)]

@[simp]
theorem length_hexDigits (width n : Nat) : (hexDigits width n).length = width := by
  induction width generalizing n with
  | zero => rfl
  | succ width ih => simp [hexDigits, ih]

/-! ## Texts -/

/-- The quote that goes around a text. -/
def quoteFor (s : List Char) : Char :=
  if s.contains '\'' && !s.contains '"' then '"' else '\''

/-- The written form of a code point that is not shown as itself. -/
def escapeCode (n : Nat) : List Char :=
  if n < 0x100 then '\\' :: 'x' :: hexDigits 2 n
  else if n < 0x10000 then '\\' :: 'u' :: hexDigits 4 n
  else '\\' :: 'U' :: hexDigits 8 n

/-- The written form of one character between the quotes `q`. -/
def escapeChar (q c : Char) : List Char :=
  if c = q || c = '\\' then ['\\', c]
  else if c = '\n' then ['\\', 'n']
  else if c = '\r' then ['\\', 'r']
  else if c = '\t' then ['\\', 't']
  else if isPrintable c then [c]
  else escapeCode c.toNat

/-- A text between quotes, on one line and in printable characters only. -/
def quoteChars (s : List Char) : List Char :=
  let q := quoteFor s
  q :: (s.flatMap (escapeChar q) ++ [q])

@[inherit_doc quoteChars]
def quote (s : String) : String :=
  String.ofList (quoteChars s.toList)

/-- A text that needs no escaping stands between single quotes as it is. -/
theorem quoteChars_eq_of_plain {s : List Char}
    (h : ∀ c ∈ s, c ≠ '\'' ∧ c ≠ '\\' ∧ isPrintable c = true) :
    quoteChars s = '\'' :: (s ++ ['\'']) := by
  have hq : quoteFor s = '\'' := by
    have hm : '\'' ∉ s := fun hm => (h _ hm).1 rfl
    simp [quoteFor, hm]
  have hs : ∀ t : List Char, (∀ c ∈ t, c ≠ '\'' ∧ c ≠ '\\' ∧ isPrintable c = true) →
      t.flatMap (escapeChar '\'') = t := by
    intro t ht
    induction t with
    | nil => rfl
    | cons c r ih =>
      obtain ⟨h1, h2, h3⟩ := ht c (by simp)
      have hn : c ≠ '\n' := by rintro rfl; exact absurd h3 (by decide)
      have hr : c ≠ '\r' := by rintro rfl; exact absurd h3 (by decide)
      have ht' : c ≠ '\t' := by rintro rfl; exact absurd h3 (by decide)
      simp [escapeChar, h1, h2, h3, hn, hr, ht', ih (fun x hx => ht x (by simp [hx]))]
  simp [quoteChars, hq, hs s h]

/-! ## Bytes -/

/-- The written form of one byte between the quotes `q`. -/
def escapeByte (q : Char) (b : UInt8) : List Char :=
  if 0x20 ≤ b.toNat && b.toNat < 0x7F then escapeChar q (Char.ofNat b.toNat)
  else if b = 10 then ['\\', 'n']
  else if b = 13 then ['\\', 'r']
  else if b = 9 then ['\\', 't']
  else '\\' :: 'x' :: hexDigits 2 b.toNat

/-- A run of bytes between quotes, with a `b` in front. -/
def quoteBytes (bs : List UInt8) : String :=
  let q := if bs.contains 39 && !bs.contains 34 then '"' else '\''
  String.ofList ('b' :: q :: (bs.flatMap (escapeByte q) ++ [q]))

end Phrasebook.Text
