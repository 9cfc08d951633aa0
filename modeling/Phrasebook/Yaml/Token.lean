import Phrasebook.Yaml.Plain
import Phrasebook.Yaml.Quoted
import Phrasebook.Yaml.Block
import Phrasebook.Decimal.Numeral

/-!
# Tokens

The smallest parts of a document that mean something: marks of documents and collections, keys and
values, scalars, and the properties of nodes, that is anchors, aliases and tags.
-/

namespace Phrasebook.Yaml

/-- A tag as it is written: whole, or a suffix for a handle that a directive explains. -/
structure TagName where
  handle? : Option String
  suffix : String
deriving Repr, DecidableEq, Inhabited

/-- A line of instructions before a document. -/
inductive Directive where
  | version (major minor : Nat)
  | tagHandle (handle expansion : String)
  | unknown
deriving Repr, DecidableEq, Inhabited

/-- The smallest meaningful parts of a document. -/
inductive Token where
  | streamEnd
  | directive (d : Directive)
  | documentStart
  | documentEnd
  | blockSequenceStart
  | blockMappingStart
  | blockEnd
  | flowSequenceStart
  | flowSequenceEnd
  | flowMappingStart
  | flowMappingEnd
  | blockEntry
  | flowEntry
  | key
  | value
  | alias (name : String)
  | anchor (name : String)
  | tag (name : TagName)
  | scalar (text : String) (plain : Bool)
deriving Repr, DecidableEq, Inhabited

/-! ## Anchors and aliases -/

/-- Whether the name of an anchor may end before this character. -/
def endsName (next? : Option Char) : Bool :=
  gapNext next? || next?.any fun c => ['?', ':', ',', ']', '\x7d', '%', '@', '\x60'].contains c

/-- Reads the name of an anchor or alias, the cursor standing at its indicator. -/
def readName (c : Cursor) : Except Problem (String × Cursor) :=
  let (name, c) := (c.advance 1).takeWhile isNameChar
  if name.isEmpty || !endsName c.next? then .error .malformed
  else .ok (String.ofList name, c)

/-! ## Tags -/

/-- Whether a character may stand in a tag; a percent sign starts an escaped byte. -/
def isTagChar (c : Char) : Bool :=
  c.isAlphanum || "-;/?:@&=+$,_.!~*'()[]".toList.contains c

/-- Reads a row of escaped bytes. -/
def escapedBytes : Nat → Cursor → Except Problem (List UInt8 × Cursor)
  | 0, c => .ok ([], c)
  | fuel + 1, c =>
    match c.rest with
    | '%' :: rest =>
      match hexNumber? 2 0 rest with
      | none => .error .malformed
      | some n => do
        let (bytes, c) ← escapedBytes fuel (c.advance 3)
        return (UInt8.ofNat n :: bytes, c)
    | _ => .ok ([], c)

/-- Reads the characters of a tag, escaped bytes as the text that they encode. -/
def tagChars : Nat → Cursor → Except Problem (List Char × Cursor)
  | 0, c => .ok ([], c)
  | fuel + 1, c =>
    let (run, c) := c.takeWhile isTagChar
    if c.next? = some '%' then do
      let (bytes, c) ← escapedBytes c.rest.length c
      match String.fromUTF8? ⟨bytes.toArray⟩ with
      | none => throw .malformed
      | some text =>
        let (more, c) ← tagChars fuel c
        return (run ++ text.toList ++ more, c)
    else .ok (run, c)

/-- Reads the part of a tag that is not empty. -/
def readTagText (c : Cursor) : Except Problem (String × Cursor) :=
  match c.next? with
  | none => .error .malformed
  | some ch =>
    if isTagChar ch || ch = '%' then do
      let (text, c) ← tagChars (c.rest.length + 1) c
      return (String.ofList text, c)
    else .error .malformed

/-- Reads a handle: an exclamation mark, or a name between two. -/
def readHandle (c : Cursor) : Except Problem (String × Cursor) :=
  if c.next? != some '!' then .error .malformed
  else
    let (name, c) := (c.advance 1).takeWhile isNameChar
    if name.isEmpty && c.next? = some ' ' then .ok ("!", c)
    else if c.next? = some '!' then
      .ok (String.ofList ('!' :: (name ++ ['!'])), c.advance 1)
    else .error .malformed

/-- Whether a handle with a second exclamation mark comes before the end of the word. -/
def hasHandle (rest : List Char) : Bool :=
  (rest.takeWhile fun c => !(c = ' ' || isBreak c)).contains '!'

/-- Reads a tag, the cursor standing at its exclamation mark. -/
def readTag (c : Cursor) : Except Problem (TagName × Cursor) := do
  let (name, c) ←
    match c.rest.drop 1 with
    | [] => pure (TagName.mk none "!", c.advance 1)
    | next :: rest =>
      if next = '<' then do
        let (text, c) ← readTagText (c.advance 2)
        if c.next? = some '>' then pure (TagName.mk none text, c.advance 1)
        else throw .malformed
      else if isGap next then pure (TagName.mk none "!", c.advance 1)
      else do
        let (handle, c) ←
          if hasHandle (next :: rest) then readHandle c else pure ("!", c.advance 1)
        let (text, c) ← readTagText c
        pure (TagName.mk (some handle) text, c)
  if stopNext c.next? then return (name, c) else throw .malformed

/-! ## Directives -/

/-- Reads one number of a version. -/
def readVersionNumber (c : Cursor) : Except Problem (Nat × Cursor) :=
  let (digits, c) := c.takeWhile isAsciiDigit
  if digits.isEmpty then .error .malformed
  else
    match Decimal.int? 10 digits with
    | some n => .ok (n.toNat, c)
    | none => .error (.mishap .noSuchValue)

/-- Reads a directive, the cursor standing at its percent sign. -/
def readDirective (c : Cursor) : Except Problem (Directive × Cursor) := do
  let (name, c) := (c.advance 1).takeWhile isNameChar
  if name.isEmpty || !stopNext c.next? then throw .malformed
  let skipSpaces (c : Cursor) : Cursor := c.skipWhile (· = ' ')
  let (directive, c) ←
    if name = "YAML".toList then do
      let (major, c) ← readVersionNumber (skipSpaces c)
      if c.next? != some '.' then throw .malformed
      let (minor, c) ← readVersionNumber (c.advance 1)
      if !stopNext c.next? then throw .malformed
      pure (Directive.version major minor, c)
    else if name = "TAG".toList then do
      let (handle, c) ← readHandle (skipSpaces c)
      if c.next? != some ' ' then throw .malformed
      let (expansion, c) ← readTagText (skipSpaces c)
      if !stopNext c.next? then throw .malformed
      pure (Directive.tagHandle handle expansion, c)
    else pure (Directive.unknown, c.skipWhile (!isBreak ·))
  return (directive, ← c.finishLine)

end Phrasebook.Yaml
