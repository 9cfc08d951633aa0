import Phrasebook.Yaml.Cursor

/-!
# Plain scalars

A scalar without quotes goes on as long as nothing can end it: a blank followed by a number sign, a
colon followed by a blank, in a flow collection also its punctuation, a line that is indented too
little, or a mark between documents. Line breaks inside are folded.

A tab ends a plain scalar, since tabs are no space between tokens.
-/

namespace Phrasebook.Yaml

/-- The punctuation of flow collections. -/
def isFlowMark (c : Char) : Bool :=
  c = ',' || c = '[' || c = ']' || c = '\x7b' || c = '\x7d'

/-- The longest run of characters without a blank that stays inside a plain scalar. -/
def plainRun (inFlow : Bool) : List Char → List Char
  | [] => []
  | c :: rest =>
    if isGap c || (c = ':' && (gapNext rest.head? || (inFlow && rest.head?.any isFlowMark)))
      || (inFlow && (isFlowMark c || c = '?')) then []
    else c :: plainRun inFlow rest

/-- Moves over line breaks and the spaces around them. Returns the breaks, and whether a mark
between documents stopped it. -/
def plainBreaks : List Char → Position → List Char × Cursor × Bool
  | [], p => ([], ⟨[], p⟩, false)
  | c :: rest, p =>
    let after := p.after c rest.head?
    if c = ' ' then plainBreaks rest after
    else if isBreak c then
      match breakText? c rest.head? with
      | none => plainBreaks rest after
      | some text =>
        if isDocumentMark rest then ([text], ⟨rest, after⟩, true)
        else
          let (more, cursor, stopped) := plainBreaks rest after
          (text :: more, cursor, stopped)
    else ([], ⟨c :: rest, p⟩, false)

/-- The blanks after a run of a plain scalar. -/
structure PlainGap where
  /-- what stands for them if the scalar goes on; `none` if it does not -/
  text? : Option (List Char)
  cursor : Cursor
  /-- whether there is a line break -/
  broken : Bool

/-- Reads the blanks after a run of a plain scalar. -/
def plainGap (c : Cursor) : PlainGap :=
  let (spaces, c) := c.takeWhile (· = ' ')
  if c.next?.any isBreak then
    let (breaks, c, stopped) := plainBreaks c.rest c.position
    ⟨if stopped then none else some (foldBreaks breaks), c, true⟩
  else ⟨if spaces.isEmpty then none else some spaces, c, false⟩

/-- The text of a scalar, the place after it, and whether a line break comes just before that
place. -/
structure PlainScalar where
  text : List Char
  cursor : Cursor
  broken : Bool

/-- Reads runs and the blanks between them. `gap` is what stands for the blanks before the next
run; `indent` is the least column of a further line outside flow collections. -/
def plainFrom (inFlow : Bool) (indent : Nat) : Nat → List Char → Cursor → Bool → PlainScalar
  | 0, _, c, broken => ⟨[], c, broken⟩
  | fuel + 1, gap, c, broken =>
    let run := plainRun inFlow c.rest
    if run.isEmpty then ⟨[], c, broken⟩
    else
      let next := plainGap (c.advance run.length)
      match next.text? with
      | none => ⟨gap ++ run, next.cursor, next.broken⟩
      | some more =>
        if next.cursor.next? = some '#' || (!inFlow && next.cursor.position.column < indent) then
          ⟨gap ++ run, next.cursor, next.broken⟩
        else
          let tail := plainFrom inFlow indent fuel more next.cursor next.broken
          { tail with text := gap ++ run ++ tail.text }

/-- Reads a plain scalar. -/
def readPlain (inFlow : Bool) (indent : Nat) (c : Cursor) : PlainScalar :=
  plainFrom inFlow indent (c.rest.length + 1) [] c false

end Phrasebook.Yaml
