import Phrasebook.Yaml.Cursor

/-!
# Block scalars

A block scalar is a header and lines. The header says whether lines are folded, what becomes of the
line breaks at the end, and possibly how far the lines are indented; else the first line with
something on it says so. In a folded scalar a single line feed between two lines that start with no
blank becomes a space.
-/

namespace Phrasebook.Yaml

/-- What becomes of the line breaks at the end of a block scalar. -/
inductive Chomping where
  | strip
  | clip
  | keep
deriving Repr, DecidableEq

/-- The chomping that a sign asks for. -/
def Chomping.ofSign? (c : Char) : Option Chomping :=
  if c = '+' then some keep else if c = '-' then some strip else none

/-- What the header of a block scalar says. -/
structure BlockHeader where
  chomping : Chomping := .clip
  increment? : Option Nat := none
deriving Repr, DecidableEq

/-- An indentation in a header; zero is none. -/
def readIncrement (c : Cursor) : Except Problem (Option Nat × Cursor) :=
  match c.next? with
  | some d =>
    if d = '0' then .error .malformed
    else if isAsciiDigit d then .ok (some (d.toNat - '0'.toNat), c.advance 1)
    else .ok (none, c)
  | none => .ok (none, c)

/-- A chomping in a header. -/
def readChomping (c : Cursor) : Chomping × Cursor :=
  match c.next?.bind Chomping.ofSign? with
  | some k => (k, c.advance 1)
  | none => (.clip, c)

/-- Reads the header of a block scalar, the cursor standing after its indicator. The two signs may
stand in either order. -/
def readHeader (c : Cursor) : Except Problem (BlockHeader × Cursor) := do
  let signFirst := (c.next?.bind Chomping.ofSign?).isSome
  let (header, c) ←
    if signFirst then do
      let (chomping, c) := readChomping c
      let (increment?, c) ← readIncrement c
      pure (BlockHeader.mk chomping increment?, c)
    else do
      let (increment?, c) ← readIncrement c
      if increment?.isNone then pure (BlockHeader.mk .clip none, c)
      else
        let (chomping, c) := readChomping c
        pure (BlockHeader.mk chomping increment?, c)
  if stopNext c.next? then return (header, ← c.finishLine) else throw .malformed

/-- Moves over blank lines to the first line with something on it. Returns the line breaks and the
greatest indentation on the way. -/
def leadingBreaks : Nat → List Char → Position → List Char × Nat × Cursor
  | indent, [], p => ([], indent, ⟨[], p⟩)
  | indent, c :: rest, p =>
    let after := p.after c rest.head?
    if c = ' ' then leadingBreaks (max indent after.column) rest after
    else if isBreak c then
      let (more, indent, cursor) := leadingBreaks indent rest after
      ((breakText? c rest.head?).toList ++ more, indent, cursor)
    else ([], indent, ⟨c :: rest, p⟩)

/-- Moves over blank lines, and over the indentation of the line after them as far as it counts. -/
def blockBreaks (indent : Nat) : List Char → Position → List Char × Cursor
  | [], p => ([], ⟨[], p⟩)
  | c :: rest, p =>
    let after := p.after c rest.head?
    if c = ' ' && p.column < indent then blockBreaks indent rest after
    else if isBreak c then
      let (more, cursor) := blockBreaks indent rest after
      ((breakText? c rest.head?).toList ++ more, cursor)
    else ([], ⟨c :: rest, p⟩)

/-- The lines of a block scalar, and the line breaks at its end. -/
structure BlockLines where
  text : List Char
  lastBreak : List Char
  breaks : List Char
  cursor : Cursor

/-- Whether a line of the scalar starts here. -/
def atBlockLine (indent : Nat) (c : Cursor) : Bool :=
  c.position.column = indent && !c.rest.isEmpty

/-- Reads the lines of a block scalar; `breaks` are the blank lines before the next one. -/
def blockLines (folded : Bool) (indent : Nat) : Nat → List Char → List Char → Cursor → BlockLines
  | 0, lastBreak, breaks, c => ⟨[], lastBreak, breaks, c⟩
  | fuel + 1, lastBreak, breaks, c =>
    if atBlockLine indent c then
      let leading := c.next?.any (!isSpace ·)
      let (line, c) := c.takeWhile (!isBreak ·)
      let (lineBreak?, c) := c.lineBreak
      let (more, c) := blockBreaks indent c.rest c.position
      let joint :=
        if atBlockLine indent c then
          if folded && lineBreak? = some '\n' && leading && c.next?.any (!isSpace ·) then
            if more.isEmpty then [' '] else []
          else lineBreak?.toList
        else []
      let tail := blockLines folded indent fuel lineBreak?.toList more c
      { tail with text := breaks ++ line ++ joint ++ tail.text }
    else ⟨[], lastBreak, breaks, c⟩

/-- Reads a block scalar, the cursor standing at its indicator; `least` is the least indentation of
its lines. -/
def readBlock (folded : Bool) (least : Nat) (c : Cursor) : Except Problem (List Char × Cursor) := do
  let (header, c) ← readHeader (c.advance 1)
  let (breaks, indent, c) :=
    match header.increment? with
    | some n =>
      let indent := least + n - 1
      let (breaks, c) := blockBreaks indent c.rest c.position
      (breaks, indent, c)
    | none =>
      let (breaks, indent, c) := leadingBreaks 0 c.rest c.position
      (breaks, max least indent, c)
  let lines := blockLines folded indent (c.rest.length + 1) [] breaks c
  let ending := match header.chomping with
    | .strip => []
    | .clip => lines.lastBreak
    | .keep => lines.lastBreak ++ lines.breaks
  return (lines.text ++ ending, lines.cursor)

end Phrasebook.Yaml
