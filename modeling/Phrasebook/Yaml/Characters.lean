import Phrasebook.Failure

/-!
# Characters of a document

A document is a sequence of characters, given as text or as bytes. Bytes are UTF-16 when they start
with its byte order mark, and else UTF-8. Control characters other than tab and line breaks, and the
two code points that are not characters at the end of the basic plane, may not occur.

The end of the text ends whatever a line break or a blank would end; the tests on the next character
therefore take an `Option`, with `none` for the end.
-/

namespace Phrasebook.Yaml

/-- Why a document cannot be read. -/
inductive Problem where
  /-- the text does not follow the rules of the format -/
  | malformed
  /-- a part of the text stands for a value that does not exist -/
  | mishap (m : Mishap)
deriving Repr, DecidableEq, Inhabited

/-! ## Classes of characters -/

/-- Whether a character ends a line. -/
def isBreak (c : Char) : Bool :=
  c = '\n' || c = '\r' || c = '\x85' || c = '\u2028' || c = '\u2029'

/-- Whether a character is a space or a tab. -/
def isSpace (c : Char) : Bool :=
  c = ' ' || c = '\t'

/-- Whether a character is a space, a tab or a line break. -/
def isGap (c : Char) : Bool :=
  isSpace c || isBreak c

/-- Whether a space, a tab, a line break or the end comes next. -/
def gapNext (next? : Option Char) : Bool :=
  next?.all isGap

/-- Whether a line break or the end comes next. -/
def breakNext (next? : Option Char) : Bool :=
  next?.all isBreak

/-- Whether a space, a line break or the end comes next. -/
def stopNext (next? : Option Char) : Bool :=
  next?.all fun c => c = ' ' || isBreak c

/-- Whether a character may be part of a name. -/
def isNameChar (c : Char) : Bool :=
  c.isAlphanum || c = '-' || c = '_'

/-- Whether a character is an ASCII digit. -/
def isAsciiDigit (c : Char) : Bool :=
  '0' ≤ c && c ≤ '9'

/-- The value of a hexadecimal digit. -/
def hexValue? (c : Char) : Option Nat :=
  if '0' ≤ c && c ≤ '9' then some (c.toNat - '0'.toNat)
  else if 'a' ≤ c && c ≤ 'f' then some (c.toNat - 'a'.toNat + 10)
  else if 'A' ≤ c && c ≤ 'F' then some (c.toNat - 'A'.toNat + 10)
  else none

/-- The text that a line break stands for, given what follows it: the separators of lines and
paragraphs stand for themselves, all others for a line feed. A carriage return before a line feed
is no break of its own. -/
def breakText? (c : Char) (next? : Option Char) : Option Char :=
  if c = '\r' && next? = some '\n' then none
  else if c = '\u2028' || c = '\u2029' then some c
  else some '\n'

/-- Whether a character may occur in a document. -/
def isAllowed (c : Char) : Bool :=
  let n := c.toNat
  n = 9 || n = 10 || n = 13 || (0x20 ≤ n && n ≤ 0x7E) || n = 0x85
    || (0xA0 ≤ n && n ≤ 0xFFFD) || 0x10000 ≤ n

/-! ## Reading bytes -/

/-- The code units of UTF-16 text, when the bytes come in pairs. -/
def codeUnits? (bigEndian : Bool) : List UInt8 → Option (List Nat)
  | [] => some []
  | [_] => none
  | a :: b :: rest =>
    let unit := if bigEndian then a.toNat * 256 + b.toNat else b.toNat * 256 + a.toNat
    (codeUnits? bigEndian rest).map (unit :: ·)

/-- The characters of code units; a surrogate without its partner has none. -/
def charsOfUnits? : List Nat → Option (List Char)
  | [] => some []
  | [u] => if 0xD800 ≤ u && u < 0xE000 then none else some [Char.ofNat u]
  | u :: v :: rest =>
    if 0xD800 ≤ u && u < 0xDC00 then
      if 0xDC00 ≤ v && v < 0xE000 then
        (charsOfUnits? rest).map
          (Char.ofNat (0x10000 + (u - 0xD800) * 0x400 + (v - 0xDC00)) :: ·)
      else none
    else if 0xDC00 ≤ u && u < 0xE000 then none
    else (charsOfUnits? (v :: rest)).map (Char.ofNat u :: ·)

/-- The characters that bytes encode. A byte order mark stays in place as a character. -/
def decode? (bytes : List UInt8) : Option (List Char) :=
  match bytes with
  | 0xFF :: 0xFE :: _ => (codeUnits? false bytes).bind charsOfUnits?
  | 0xFE :: 0xFF :: _ => (codeUnits? true bytes).bind charsOfUnits?
  | _ => (String.fromUTF8? ⟨bytes.toArray⟩).map String.toList

/-- The characters of a document, or the finding that one may not occur. -/
def allowed (chars : List Char) : Except Problem (List Char) :=
  if chars.all isAllowed then .ok chars else .error .malformed

/-- The characters of a document given as bytes. -/
def readBytes (bytes : List UInt8) : Except Problem (List Char) :=
  match decode? bytes with
  | some chars => allowed chars
  | none => .error .malformed

end Phrasebook.Yaml
