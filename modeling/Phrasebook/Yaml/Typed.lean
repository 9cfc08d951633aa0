import Phrasebook.Text.Base64
import Phrasebook.Text.Lowercase
import Phrasebook.Yaml.Tag

/-!
# Typed scalars

The value that the text of a scalar has under a tag. An explicit tag may stand before any text, so
each tag has to say what it makes of texts that do not have its form.

In numbers, lines between digits do not count. A number may be written in sixtieths, as hours,
minutes and seconds are.
-/

namespace Phrasebook.Yaml

namespace Typed

/-- Fails with a mishap. -/
def fail {α : Type} (m : Mishap) : Except Problem α := .error (.mishap m)

/-- The value of a partial reading; a text that cannot be read stands for no value. -/
def orNoValue {α : Type} : Option α → Except Problem α
  | some a => .ok a
  | none => fail .noSuchValue

/-! ## Truth values -/

/-- The words for truth values, in lower case. -/
def truthValues : List (String × Bool) :=
  [("yes", true), ("no", false), ("true", true), ("false", false), ("on", true), ("off", false)]

/-- The truth value of a word in any case. -/
def truth (text : String) : Except Problem Bool :=
  let word := String.ofList (Text.lower text.toList)
  match truthValues.find? (·.1 == word) with
  | some (_, b) => .ok b
  | none => fail (.noEntry (Text.quote word))

/-! ## Whole numbers -/

/-- Drops the lines between digits. -/
def dropLines (text : String) : List Char :=
  text.toList.filter (· != '_')

/-- The parts of a number in sixtieths, least first. -/
def sixtieths (s : List Char) : List (List Char) :=
  (Text.split [':'] s).reverse

/-- The whole number that digits without a sign stand for. -/
def unsignedInt (s : List Char) : Except Problem Int :=
  match s with
  | [] => fail .noCharacter
  | '0' :: 'b' :: rest => orNoValue (Decimal.int? 2 rest)
  | '0' :: 'x' :: rest => orNoValue (Decimal.int? 16 rest)
  | '0' :: _ => orNoValue (Decimal.int? 8 s)
  | _ =>
    if s.contains ':' then do
      let parts ← orNoValue ((sixtieths s).mapM (Decimal.int? 10))
      return parts.foldr (fun part value => value * 60 + part) 0
    else orNoValue (Decimal.int? 10 s)

/-- The whole number of a text. -/
def int (text : String) : Except Problem Int := do
  match dropLines text with
  | [] => fail .noCharacter
  | s@(c :: _) =>
    let n ← unsignedInt (Decimal.takeSign s).2
    return if c = '-' then -n else n

/-! ## Floating point numbers -/

/-- The number of sixtieth powers that floating point numbers reach. -/
def maxSixtieths : Nat := 174

/-- Adds up the parts of a number in sixtieths, least first; `power` is the number of parts already
added to `total`. -/
def sumSixtieths : Nat → Float → List Float → Except Problem Float
  | _, total, [] => .ok total
  | power, total, part :: more =>
    if power < maxSixtieths then
      sumSixtieths (power + 1) (total + part * Decimal.nearest (Nat.pow 60 power) 1) more
    else fail .outOfRange

/-- The notation of the value that is not a number. -/
def notANumberMark : List Char := ".nan".toList

/-- The floating point number that digits without a sign stand for. -/
def unsignedFloat (s : List Char) : Except Problem Float :=
  if s = ".inf".toList then .ok Decimal.infinity
  else if s = notANumberMark then .ok Decimal.notANumber
  else if s.contains ':' then do
    sumSixtieths 0 0 (← orNoValue ((sixtieths s).mapM Decimal.float?))
  else orNoValue (Decimal.float? s)

/-- The text of a floating point number in lower case, without lines. -/
def floatChars (text : String) : List Char :=
  Text.lower (dropLines text)

/-- The floating point number of a text. -/
def float (text : String) : Except Problem Float := do
  match floatChars text with
  | [] => fail .noCharacter
  | s@(c :: _) =>
    let x ← unsignedFloat (Decimal.takeSign s).2
    return if c = '-' then -x else x

/-- Whether a text is the notation of the value that is not a number, in any case and with any
sign. -/
def isNotANumberMark (text : String) : Bool :=
  (Decimal.takeSign (floatChars text)).2 = notANumberMark

/-! ## Bytes and timestamps -/

/-- The bytes of a text in base 64, all ASCII. -/
def bytes (text : String) : Except Problem (List UInt8) :=
  if text.toList.all (·.toNat < 128) then
    match Text.Base64.decode? text.toList with
    | some bs => .ok bs
    | none => .error .malformed
  else .error .malformed

/-- The day or moment of a text. -/
def timestamp (text : String) : Except Problem Scalar :=
  match Timestamp.ofChars? (Tag.dropFinalBreak text.toList) with
  | some t => orNoValue t.toScalar?
  | none => fail .noForm

/-! ## All tags -/

/-- The value of a text under a tag; tags of collections and tags without meaning have none. -/
def scalar (tag : Tag) (text : String) : Except Problem Scalar :=
  match tag with
  | .null => .ok .null
  | .bool => .bool <$> truth text
  | .int => .int <$> int text
  | .float => .float <$> float text
  | .binary => .bytes <$> bytes text
  | .timestamp => timestamp text
  | .text => .ok (.text text)
  | _ => .error .malformed

end Typed

end Phrasebook.Yaml
