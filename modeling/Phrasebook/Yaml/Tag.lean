import Phrasebook.Text.Split
import Phrasebook.Yaml.Timestamp

/-!
# Tags

A tag says what a node stands for. A node without a tag gets one from its form: a collection is a
sequence or a mapping, a quoted scalar is a text, and a plain scalar is what its text looks like.

The look of a plain scalar is settled by its first character and a handful of forms. A line feed at
the very end does not count.
-/

namespace Phrasebook.Yaml

/-- What a node stands for. -/
inductive Tag where
  | null
  | bool
  | int
  | float
  | binary
  | timestamp
  | text
  | sequence
  | mapping
  | set
  | orderedMap
  | pairs
  /-- a key whose value is merged into the mapping -/
  | merge
  /-- a key whose value stands for the mapping where a scalar is needed -/
  | value
  /-- anything else; nothing can be made of it -/
  | other
deriving Repr, DecidableEq, Inhabited

namespace Tag

/-- The start of the tags that have a meaning. -/
def start : String := "tag:yaml.org,2002:"

/-- The tags that can be written, by what follows the common start. -/
def names : List (String × Tag) :=
  [("null", null), ("bool", bool), ("int", int), ("float", float), ("binary", binary),
   ("timestamp", timestamp), ("str", text), ("seq", sequence), ("map", mapping), ("set", set),
   ("omap", orderedMap), ("pairs", pairs), ("merge", merge), ("value", value)]

/-- The tag that is written as a text. -/
def ofText (s : String) : Tag :=
  ((names.find? fun n => start ++ n.1 == s).map Prod.snd).getD other

/-! ## Forms of plain scalars -/

/-- The words for truth values. -/
def truthWords : List String :=
  ["yes", "Yes", "YES", "no", "No", "NO", "true", "True", "TRUE", "false", "False", "FALSE",
   "on", "On", "ON", "off", "Off", "OFF"]

/-- The words for nothing. -/
def nullWords : List String := ["", "~", "null", "Null", "NULL"]

/-- Whether a character is a digit or the line that may stand between digits. -/
def isSpacedDigit (c : Char) : Bool :=
  isAsciiDigit c || c = '_'

/-- Whether a text starts with a digit and goes on with digits and lines between them. -/
def isSpacedNumber : List Char → Bool
  | c :: rest => isAsciiDigit c && rest.all isSpacedDigit
  | [] => false

/-- Whether a text is a number below sixty, of one or two digits. -/
def isSixtieth : List Char → Bool
  | [c] => isAsciiDigit c
  | [c, d] => '0' ≤ c && c ≤ '5' && isAsciiDigit d
  | _ => false

/-- Whether a text has the form of a whole number. -/
def isIntForm (s : List Char) : Bool :=
  match (Decimal.takeSign s).2 with
  | '0' :: 'b' :: rest => !rest.isEmpty && rest.all (fun c => c = '0' || c = '1' || c = '_')
  | '0' :: 'x' :: rest => !rest.isEmpty && rest.all (fun c => (hexValue? c).isSome || c = '_')
  | '0' :: rest => rest.all fun c => ('0' ≤ c && c ≤ '7') || c = '_'
  | body =>
    match Text.split [':'] body with
    | first :: more => isSpacedNumber first && more.all isSixtieth
    | [] => false

/-- Whether a text is empty or an exponent, which has a sign. -/
def isExponentForm : List Char → Bool
  | [] => true
  | e :: sign :: digits =>
    (e = 'e' || e = 'E') && (sign = '+' || sign = '-') && !digits.isEmpty
      && digits.all isAsciiDigit
  | [_] => false

/-- Whether a text without sign has the form of a number with a point. Without digits in front of
the point there is one after it; in front there may be sixtieths, and then there is no exponent. -/
def isPointForm (signed : Bool) (body : List Char) : Bool :=
  let whole := body.takeWhile (· != '.')
  match body.drop whole.length with
  | [] => false
  | _ :: fraction =>
    if whole.isEmpty then
      !signed && fraction.head?.any isAsciiDigit
        && isExponentForm (fraction.dropWhile isSpacedDigit)
    else
      match Text.split [':'] whole with
      | [first] => isSpacedNumber first && isExponentForm (fraction.dropWhile isSpacedDigit)
      | first :: more =>
        isSpacedNumber first && more.all isSixtieth && fraction.all isSpacedDigit
      | [] => false

/-- Whether a text has the form of a floating point number. -/
def isFloatForm (s : List Char) : Bool :=
  let body := (Decimal.takeSign s).2
  let signed := body.length < s.length
  isPointForm signed body
    || [".inf", ".Inf", ".INF"].contains (String.ofList body)
    || (!signed && [".nan", ".NaN", ".NAN"].contains (String.ofList body))

/-- Whether a text has the form of a timestamp. A day alone has two digits for month and day. -/
def isTimestampForm (s : List Char) : Bool :=
  match Timestamp.ofChars? s with
  | some t => t.time?.isSome || s.length = 10
  | none => false

/-- Drops a line feed at the end of a longer text. -/
def dropFinalBreak (s : List Char) : List Char :=
  if 1 < s.length && s.getLast? = some '\n' then s.dropLast else s

/-- The tag of a plain scalar. -/
def ofPlain (text : String) : Tag :=
  let s := dropFinalBreak text.toList
  let word := String.ofList s
  if truthWords.contains word then bool
  else if isFloatForm s then float
  else if isIntForm s then int
  else if word = "<<" then merge
  else if nullWords.contains word then null
  else if isTimestampForm s then timestamp
  else if word = "=" then value
  else if ["!", "&", "*"].contains word then other
  else Tag.text

example : ofPlain "1:30" = int := by decide +kernel
example : ofPlain "1e3" = Tag.text := by decide +kernel
example : ofPlain "1.0e+3" = float := by decide +kernel
example : ofPlain "2001-1-1" = Tag.text := by decide +kernel

end Tag

end Phrasebook.Yaml
