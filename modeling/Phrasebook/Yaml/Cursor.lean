import Phrasebook.Yaml.Characters

/-!
# Cursors

A cursor is a place in a document: what is still to be read, and where that is. Lines and columns
matter for two reasons: the column of a token says to which block it belongs, and a key has to end
on its line, within 1024 characters.

All functions that move a cursor go through the rest of the text once, character by character, and
carry the position along.
-/

namespace Phrasebook.Yaml

/-! ## Positions -/

/-- Where a character stands. -/
structure Position where
  index : Nat := 0
  line : Nat := 0
  column : Nat := 0
deriving Repr, DecidableEq, Inhabited

/-- The mark that may stand at the start of a document; it takes up no column. -/
def byteOrderMark : Char := '\uFEFF'

/-- The position after a character, given the one that follows. -/
def Position.after (p : Position) (c : Char) (next? : Option Char) : Position :=
  if isBreak c && !(c = '\r' && next? = some '\n') then ⟨p.index + 1, p.line + 1, 0⟩
  else if c = byteOrderMark then ⟨p.index + 1, p.line, p.column⟩
  else ⟨p.index + 1, p.line, p.column + 1⟩

/-! ## Cursors -/

/-- A place in a document. -/
structure Cursor where
  rest : List Char
  position : Position := {}
deriving Repr, DecidableEq, Inhabited

namespace Cursor

/-- The next character. -/
def next? (c : Cursor) : Option Char := c.rest.head?

/-- Moves over a number of characters. -/
def advance : Nat → Cursor → Cursor
  | 0, c => c
  | _ + 1, ⟨[], p⟩ => ⟨[], p⟩
  | n + 1, ⟨ch :: rest, p⟩ => advance n ⟨rest, p.after ch rest.head?⟩

/-- Moves over the longest run of characters with a property, and returns the run. -/
def takeWhile (p : Char → Bool) (c : Cursor) : List Char × Cursor :=
  let run := c.rest.takeWhile p
  (run, c.advance run.length)

/-- Moves over the longest run of characters with a property. -/
def skipWhile (p : Char → Bool) (c : Cursor) : Cursor :=
  (c.takeWhile p).2

/-- Moves over a line break, and returns the text that it stands for. -/
def lineBreak (c : Cursor) : Option Char × Cursor :=
  match c.rest with
  | '\r' :: '\n' :: _ => (some '\n', c.advance 2)
  | ch :: rest => if isBreak ch then (breakText? ch rest.head?, c.advance 1) else (none, c)
  | [] => (none, c)

/-- Moves over spaces and a comment to the end of the line, and over the line break. Anything else
on the line is a mistake. -/
def finishLine (c : Cursor) : Except Problem Cursor :=
  let c := c.skipWhile (· = ' ')
  let c := if c.next? = some '#' then c.skipWhile (!isBreak ·) else c
  if breakNext c.next? then .ok c.lineBreak.2 else .error .malformed

@[simp]
theorem rest_advance (n : Nat) (c : Cursor) : (c.advance n).rest = c.rest.drop n := by
  fun_induction advance n c with
  | case1 => rfl
  | case2 => simp
  | case3 n ch rest p ih => simpa using ih

end Cursor

/-! ## Marks between documents -/

/-- Whether a text starts with three equal marks and a blank after them. -/
def startsWithMark (mark : Char) : List Char → Bool
  | a :: b :: c :: rest => a = mark && b = mark && c = mark && gapNext rest.head?
  | _ => false

/-- Whether a line that starts here is a mark between documents. -/
def isDocumentMark (rest : List Char) : Bool :=
  startsWithMark '-' rest || startsWithMark '.' rest

/-! ## Folding -/

/-- The text that a row of line breaks inside a scalar stands for: a single line feed becomes a
space, and of several the first is dropped. -/
def foldBreaks : List Char → List Char
  | [] => []
  | first :: more =>
    (if first != '\n' then [first] else if more.isEmpty then [' '] else []) ++ more

/-! ## Gaps between tokens -/

/-- Moves over spaces, comments and line breaks. The result says whether there was a line break. -/
def skipGap : Bool → List Char → Position → Cursor × Bool
  | _, [], p => (⟨[], p⟩, false)
  | comment, c :: rest, p =>
    if isBreak c then
      ((skipGap false rest (p.after c rest.head?)).1, true)
    else if comment || c = ' ' then skipGap comment rest (p.after c rest.head?)
    else if c = '#' then skipGap true rest (p.after c rest.head?)
    else (⟨c :: rest, p⟩, false)

end Phrasebook.Yaml
