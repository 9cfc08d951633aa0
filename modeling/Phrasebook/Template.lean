/-!
# Templates

A template is a text with declarations in it. A declaration names a property and may carry a default
text; in the standard grammar it is written with a percent sign, the name between braces, and the
default after a bar.

`Grammar` holds the decisions of one way to write declarations. `Grammar.segments` cuts a template,
from left to right, into declarations and the characters between them; nothing is lost, and a place
that starts no declaration is an ordinary character.
-/

namespace Phrasebook

/-- A declaration as it occurs in a template. -/
structure Declaration where
  literal : String
  name : String
  default? : Option String
deriving Repr, DecidableEq, Inhabited

/-! ## Grammars -/

/-- One way to write declarations: the opening, the name, and then either the mark, the default and
its closing, or the plain closing. -/
structure Grammar where
  opening : List Char
  isNameChar : Char → Bool
  /-- whether the name may be empty -/
  emptyName : Bool
  /-- what stands between name and default -/
  mark : Char
  /-- whether the mark belongs to the default -/
  keepsMark : Bool
  isDefaultChar : Char → Bool
  defaultClosing : List Char
  plainClosing : List Char

namespace Grammar

/-- The standard grammar. -/
def standard : Grammar where
  opening := ['%', '\x7b']
  isNameChar c := c != '\x7d' && c != '|'
  emptyName := false
  mark := '|'
  keepsMark := false
  isDefaultChar c := c != '\x7d'
  defaultClosing := ['\x7d']
  plainClosing := ['\x7d']

/-- The default that follows a name, as long as its closing is there; with it the number of
characters that it takes up. -/
def defaultPart? (g : Grammar) : List Char → Option (List Char × Nat)
  | [] => none
  | c :: rest =>
    let body := rest.takeWhile g.isDefaultChar
    if c = g.mark && g.defaultClosing.isPrefixOf (rest.drop body.length) then
      some (if g.keepsMark then c :: body else body, body.length + 1 + g.defaultClosing.length)
    else none

/-- The declaration that the text starts with. -/
def declaration? (g : Grammar) (s : List Char) : Option Declaration :=
  if g.opening.isPrefixOf s then
    let inner := s.drop g.opening.length
    let name := inner.takeWhile g.isNameChar
    let after := inner.drop name.length
    let start := g.opening.length + name.length
    if name.isEmpty && !g.emptyName then none
    else match g.defaultPart? after with
      | some (default, length) =>
        some ⟨String.ofList (s.take (start + length)), String.ofList name,
          some (String.ofList default)⟩
      | none =>
        if g.plainClosing.isPrefixOf after then
          some ⟨String.ofList (s.take (start + g.plainClosing.length)), String.ofList name, none⟩
        else none
  else none

end Grammar

/-! ## Segments -/

/-- A piece of a template. -/
inductive Segment where
  | char (c : Char)
  | slot (d : Declaration)
deriving Repr, DecidableEq

/-- The text of a piece in the template. -/
def Segment.source : Segment → List Char
  | char c => [c]
  | slot d => d.literal.toList

/-- The declaration that a piece is. -/
def Segment.declaration? : Segment → Option Declaration
  | char _ => none
  | slot d => some d

namespace Grammar

/-- Cuts a text into pieces. The counter says how many characters of a declaration are still to be
passed over. -/
def segmentsFrom (g : Grammar) : Nat → List Char → List Segment
  | _, [] => []
  | skip + 1, _ :: rest => g.segmentsFrom skip rest
  | 0, c :: rest =>
    match g.declaration? (c :: rest) with
    | some d => .slot d :: g.segmentsFrom (d.literal.length - 1) rest
    | none => .char c :: g.segmentsFrom 0 rest

/-- The pieces of a template. -/
def segments (g : Grammar) (template : String) : List Segment :=
  g.segmentsFrom 0 template.toList

/-- The declarations of a template, in order. -/
def declarations (g : Grammar) (template : String) : List Declaration :=
  (g.segments template).filterMap Segment.declaration?

end Grammar

/-- The text of a row of pieces when each declaration shows the text that it is given. -/
def fillSegments (value : Declaration → List Char) (segments : List Segment) : List Char :=
  segments.flatMap fun
    | .char c => [c]
    | .slot d => value d

end Phrasebook
