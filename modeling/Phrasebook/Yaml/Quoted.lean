import Phrasebook.Yaml.Cursor

/-!
# Quoted scalars

Between single quotes only a doubled quote is special. Between double quotes a backslash starts an
escape: a letter for a control character, a code point in hexadecimal, or a line break that is to be
left out. Line breaks are folded in both; blanks around them do not count.
-/

namespace Phrasebook.Yaml

/-- The character that a letter after a backslash stands for. -/
def escapeLetter? (c : Char) : Option Char :=
  if c = '0' then some '\x00'
  else if c = 'a' then some '\x07'
  else if c = 'b' then some '\x08'
  else if c = 't' || c = '\t' then some '\t'
  else if c = 'n' then some '\n'
  else if c = 'v' then some '\x0b'
  else if c = 'f' then some '\x0c'
  else if c = 'r' then some '\r'
  else if c = 'e' then some '\x1b'
  else if c = ' ' || c = '"' || c = '\\' || c = '/' then some c
  else if c = 'N' then some '\x85'
  else if c = '_' then some '\xa0'
  else if c = 'L' then some '\u2028'
  else if c = 'P' then some '\u2029'
  else none

/-- How many hexadecimal digits follow a letter after a backslash. -/
def escapeWidth? (c : Char) : Option Nat :=
  if c = 'x' then some 2 else if c = 'u' then some 4 else if c = 'U' then some 8 else none

/-- The number that the first `width` characters are in hexadecimal. -/
def hexNumber? : Nat → Nat → List Char → Option Nat
  | 0, value, _ => some value
  | _ + 1, _, [] => none
  | width + 1, value, c :: rest =>
    match hexValue? c with
    | some d => hexNumber? width (value * 16 + d) rest
    | none => none

/-- The character of a code point. Surrogates have none of their own and become the replacement
character; beyond the last code point there is none. -/
def charOfCode (n : Nat) : Except Problem Char :=
  if 0x7FFFFFFF < n then .error (.mishap .outOfRange)
  else if 0x10FFFF < n then .error (.mishap .noSuchValue)
  else if 0xD800 ≤ n && n < 0xE000 then .ok '\uFFFD'
  else .ok (Char.ofNat n)

/-- Moves over line breaks and the blanks around them, and returns the breaks. A mark between
documents may not follow one. -/
def quotedBreaks : List Char → Position → Except Problem (List Char × Cursor)
  | [], p => .ok ([], ⟨[], p⟩)
  | c :: rest, p =>
    let after := p.after c rest.head?
    if isSpace c then quotedBreaks rest after
    else if isBreak c then
      match breakText? c rest.head? with
      | none => quotedBreaks rest after
      | some text =>
        if isDocumentMark rest then .error .malformed
        else do
          let (more, cursor) ← quotedBreaks rest after
          return (text :: more, cursor)
    else .ok ([], ⟨c :: rest, p⟩)

/-- Reads blanks inside a quoted scalar: spaces and tabs as they are, line breaks folded. -/
def quotedGap (c : Cursor) : Except Problem (List Char × Cursor) :=
  let (spaces, c) := c.takeWhile isSpace
  if c.next?.any isBreak then do
    let (breaks, c) ← quotedBreaks c.rest c.position
    return (foldBreaks breaks, c)
  else .ok (spaces, c)

/-- Reads an escape, the cursor standing after the backslash. -/
def quotedEscape (c : Cursor) : Except Problem (List Char × Cursor) :=
  match c.rest with
  | [] => .error .malformed
  | letter :: rest =>
    match escapeLetter? letter, escapeWidth? letter with
    | some ch, _ => .ok ([ch], c.advance 1)
    | none, some width =>
      match hexNumber? width 0 rest with
      | none => .error .malformed
      | some n => do return ([← charOfCode n], c.advance (1 + width))
    | none, none =>
      if isBreak letter then do
        let (breaks, c) ← quotedBreaks c.rest c.position
        return (breaks.drop 1, c)
      else .error .malformed

/-- Reads the inside of a quoted scalar and its closing quote. -/
def quotedFrom (double : Bool) : Nat → Cursor → Except Problem (List Char × Cursor)
  | 0, _ => .error .malformed
  | fuel + 1, c =>
    match c.rest with
    | [] => .error .malformed
    | ch :: rest =>
      let goOn (part : List Char × Cursor) : Except Problem (List Char × Cursor) := do
        let (text, c) ← quotedFrom double fuel part.2
        return (part.1 ++ text, c)
      if isGap ch then do goOn (← quotedGap c)
      else if double && ch = '\\' then do goOn (← quotedEscape (c.advance 1))
      else if !double && ch = '\'' && rest.head? = some '\'' then goOn (['\''], c.advance 2)
      else if ch = (if double then '"' else '\'') then .ok ([], c.advance 1)
      else goOn ([ch], c.advance 1)

/-- Reads a quoted scalar, the cursor standing at the opening quote. -/
def readQuoted (double : Bool) (c : Cursor) : Except Problem (List Char × Cursor) :=
  quotedFrom double (c.rest.length + 1) (c.advance 1)

end Phrasebook.Yaml
