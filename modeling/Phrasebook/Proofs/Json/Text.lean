import Phrasebook.Yaml.TokenStream
import Phrasebook.Tree

/-!
# JSON texts

The JSON texts of nested objects whose leaves are strings, with all that may be written in more than
one way: blanks between the tokens, and characters as themselves or as escapes. Surrogate escapes
are left out, since one of them alone stands for no character. Nothing else than JSON can be built
from these parts.

Documents are read as YAML, which takes most of these texts for what they are, but not all.
`Json.fits` says which: tabs do not separate tokens, a key and its colon stand on one line and not
too far from each other, and a few characters may only be written as escapes.
-/

namespace Phrasebook

namespace Json

/-! ## Blanks -/

/-- A character that may stand between tokens and means nothing. -/
inductive Blank where
  | space
  | tab
  | lineFeed
  | carriageReturn
deriving Repr, DecidableEq

/-- The character itself. -/
def Blank.char : Blank → Char
  | space => ' '
  | tab => '\t'
  | lineFeed => '\n'
  | carriageReturn => '\r'

/-- The blanks between two tokens. -/
abbrev Gap := List Blank

/-- The blanks as they are written. -/
def Gap.chars (g : Gap) : List Char := g.map Blank.char

/-! ## Strings -/

/-- An escape of a single letter. -/
inductive Short where
  | quote
  | backslash
  | slash
  | backspace
  | formFeed
  | lineFeed
  | carriageReturn
  | tab
deriving Repr, DecidableEq

/-- What stands after the backslash. -/
def Short.letter : Short → Char
  | quote => '"'
  | backslash => '\\'
  | slash => '/'
  | backspace => 'b'
  | formFeed => 'f'
  | lineFeed => 'n'
  | carriageReturn => 'r'
  | tab => 't'

/-- The character that the escape stands for. -/
def Short.char : Short → Char
  | quote => '"'
  | backslash => '\\'
  | slash => '/'
  | backspace => '\x08'
  | formFeed => '\x0c'
  | lineFeed => '\n'
  | carriageReturn => '\r'
  | tab => '\t'

/-- A hexadecimal digit; from ten on it is a letter, small or capital. -/
structure HexDigit where
  value : Fin 16
  capital : Bool := false
deriving Repr, DecidableEq

/-- The digit as it is written. -/
def HexDigit.char (d : HexDigit) : Char :=
  if d.value.val < 10 then Char.ofNat (0x30 + d.value.val)
  else Char.ofNat ((if d.capital then 0x41 else 0x61) + (d.value.val - 10))

/-- The code that four digits are. -/
def codeOf (a b c d : HexDigit) : Nat :=
  ((a.value.val * 16 + b.value.val) * 16 + c.value.val) * 16 + d.value.val

/-- Whether a code is half of a pair, and no character of its own. -/
def isSurrogate (code : Nat) : Bool := 0xD800 ≤ code && code < 0xE000

/-- Whether a character may stand for itself in a string. -/
def isPlain (c : Char) : Bool := 0x20 ≤ c.toNat && c ≠ '"' && c ≠ '\\'

/-- A character of a string, in one of the ways in which it may be written. -/
inductive Piece where
  | plain (c : Char) (h : isPlain c = true)
  | short (s : Short)
  | code (a b c d : HexDigit) (h : isSurrogate (codeOf a b c d) = false)
deriving Repr, DecidableEq

/-- The piece as it is written. -/
def Piece.source : Piece → List Char
  | plain c _ => [c]
  | short s => ['\\', s.letter]
  | code a b c d _ => ['\\', 'u', a.char, b.char, c.char, d.char]

/-- The character that the piece stands for. -/
def Piece.char : Piece → Char
  | plain c _ => c
  | short s => s.char
  | code a b c d _ => Char.ofNat (codeOf a b c d)

/-- A string as it is written between its quotes. -/
abbrev Literal := List Piece

/-- What is written between the quotes. -/
def Literal.inside (l : Literal) : List Char := l.flatMap Piece.source

/-- The string as it is written. -/
def Literal.source (l : Literal) : List Char := '"' :: (l.inside ++ ['"'])

/-- The characters of the string. -/
def Literal.chars (l : Literal) : List Char := l.map Piece.char

/-- The string. -/
def Literal.text (l : Literal) : String := String.ofList l.chars

/-! ## Values -/

/-- A key and its value, with the blanks around each. -/
structure Member (α : Type) where
  beforeKey : Gap := []
  key : Literal
  afterKey : Gap := []
  beforeValue : Gap := []
  value : α
  afterValue : Gap := []
deriving Repr

end Json

/-- A string, or an object of strings and objects, as it is written. The blanks of an object stand
behind its opening brace. -/
inductive Json where
  | string (l : Json.Literal)
  | object (opening : Json.Gap) (members : List (Json.Member Json))
deriving Repr, Inhabited

namespace Json

/-- The comma that stands before every member but the first. -/
def comma (first : Bool) : List Char := if first then [] else [',']

mutual

/-- The value as it is written. -/
def source : Json → List Char
  | .string l => l.source
  | .object opening members => '\x7b' :: (opening.chars ++ membersSource true members)

/-- The members as they are written, with the closing brace. -/
def membersSource (first : Bool) : List (Member Json) → List Char
  | [] => ['\x7d']
  | ⟨beforeKey, key, afterKey, beforeValue, value, afterValue⟩ :: rest =>
    comma first ++ (beforeKey.chars ++ (key.source ++ (afterKey.chars ++ (':' ::
      (beforeValue.chars ++ (value.source ++ (afterValue.chars ++ membersSource false rest)))))))

end

mutual

/-- The node that the value denotes: strings are leaves, objects are branches. Of members with the
same key the last counts, in the place of the first. -/
def node : Json → Node
  | .string l => .leaf l.text
  | .object _ members => .branch (collectEntries (children members))

/-- The nodes that the members denote, each under its key. -/
def children : List (Member Json) → List (String × Node)
  | [] => []
  | ⟨_, key, _, _, value, _⟩ :: rest => (key.text, value.node) :: children rest

end

mutual

theorem wellKeyed_node : ∀ v : Json, v.node.WellKeyed
  | .string _ => trivial
  | .object _ members => wellKeyed_collect (allWellKeyed_children members)

theorem allWellKeyed_children : ∀ members : List (Member Json),
    Node.AllWellKeyed (children members)
  | [] => trivial
  | ⟨_, _, _, _, value, _⟩ :: rest => ⟨wellKeyed_node value, allWellKeyed_children rest⟩

end

/-! ## Texts that are read as they are meant -/

/-- Whether blanks may stand between any two tokens. -/
def Gap.fits (g : Gap) : Bool := g.all fun b => b ≠ .tab

/-- Whether all characters may occur in a document. -/
def Literal.allowed (l : Literal) : Bool := l.inside.all Yaml.isAllowed

/-- Whether a key and the blanks behind it keep to one line and to the length of keys. -/
def Literal.fitsKey (key : Literal) (afterKey : Gap) : Bool :=
  key.inside.all (!Yaml.isBreak ·) && afterKey.all (fun b => b = .space)
    && key.source.length + afterKey.length ≤ Yaml.maxKeyLength

/-- Whether line breaks in a quoted scalar stand for themselves: only separators of lines and
paragraphs do, and only without blanks around them and without a mark between documents behind. -/
def unfolded : List Char → Bool
  | [] => true
  | c :: rest =>
    (if Yaml.isSpace c then !rest.head?.any Yaml.isBreak
      else if Yaml.isBreak c then
        (c = '\u2028' || c = '\u2029') && !rest.head?.any Yaml.isSpace && !Yaml.isDocumentMark rest
      else true) && unfolded rest

mutual

/-- Whether a value is read as what it denotes. -/
def fits : Json → Bool
  | .string l => l.allowed && unfolded (l.inside ++ ['"'])
  | .object opening members => opening.fits && membersFit members

/-- Whether members are read as what they denote. -/
def membersFit : List (Member Json) → Bool
  | [] => true
  | ⟨beforeKey, key, afterKey, beforeValue, value, afterValue⟩ :: rest =>
    beforeKey.fits && (key.allowed && key.fitsKey afterKey)
      && (beforeValue.fits && value.fits && afterValue.fits) && membersFit rest

end

end Json

/-! ## Whole texts -/

/-- A whole JSON text: an object with blanks around it. -/
structure JsonText where
  before : Json.Gap := []
  opening : Json.Gap := []
  members : List (Json.Member Json)
  after : Json.Gap := []
deriving Repr, Inhabited

namespace JsonText

/-- The object of the text. -/
def object (t : JsonText) : Json := .object t.opening t.members

/-- The characters of the text. -/
def source (t : JsonText) : List Char :=
  t.before.chars ++ (t.object.source ++ t.after.chars)

/-- The tree that the text denotes. -/
def tree (t : JsonText) : Tree := .collect _ (Json.allWellKeyed_children t.members)

/-- Whether the text is read as what it denotes. -/
def fits (t : JsonText) : Bool := t.before.fits && t.object.fits && t.after.fits

end JsonText

end Phrasebook
