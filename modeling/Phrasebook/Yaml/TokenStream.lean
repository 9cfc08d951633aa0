import Phrasebook.Yaml.Token

/-!
# The tokens of a document

A document is cut into tokens from left to right. Outside flow collections the columns of tokens
open and close blocks: a token that stands further to the left than its block closes it.

Whether a scalar is a key shows only at the colon after it. A token that may start a key is noted as
a candidate, and the colon puts the marks of a key before it. A candidate is given up at the end of
its line, after 1024 characters, or when another takes its place; where the layout leaves nothing
but a key, giving up is a mistake.

A reader of tokens is never ahead of a candidate. When cutting fails, the tokens from the first
candidate on are therefore not handed out.
-/

namespace Phrasebook.Yaml

/-- How far a key may be from its colon. -/
def maxKeyLength : Nat := 1024

/-- A token that may start a key. -/
structure Candidate where
  /-- how many tokens come before it -/
  number : Nat
  /-- whether nothing but a key can stand here -/
  required : Bool
  position : Position
deriving Repr, DecidableEq, Inhabited

/-- The state of cutting a document into tokens. -/
structure Scanner where
  cursor : Cursor
  /-- the tokens so far, latest first -/
  tokens : List Token := []
  /-- the columns of the open blocks, innermost first -/
  indents : List Nat := []
  /-- whether a key may start here -/
  keyAllowed : Bool := true
  /-- the candidates of the open flow collections, innermost first, and of the blocks -/
  candidates : List (Option Candidate) := [none]
  finished : Bool := false
deriving Repr, Inhabited

namespace Scanner

/-! ## Places -/

/-- Whether a flow collection is open. -/
def inFlow (s : Scanner) : Bool := 1 < s.candidates.length

/-- The column of the next character. -/
def column (s : Scanner) : Nat := s.cursor.position.column

/-- Adds a token. -/
def push (t : Token) (s : Scanner) : Scanner := { s with tokens := t :: s.tokens }

/-- Adds a token of a number of characters, and moves over it. -/
def pushOver (t : Token) (length : Nat) (s : Scanner) : Scanner :=
  { s with tokens := t :: s.tokens, cursor := s.cursor.advance length }

/-- Puts a token before the one with a number. -/
def insertAt (number : Nat) (t : Token) (s : Scanner) : Scanner :=
  { s with tokens := s.tokens.insertIdx (s.tokens.length - number) t }

/-! ## Blocks -/

/-- Whether a block would start at a column. -/
def opensBlock (column : Nat) (s : Scanner) : Bool :=
  s.indents.head?.all (· < column)

/-- Closes the blocks that stand further to the right than a column. -/
def closeBlocks (column : Nat) (s : Scanner) : Scanner :=
  if s.inFlow then s
  else
    let closing := s.indents.takeWhile (column < ·)
    { s with
      tokens := closing.map (fun _ => Token.blockEnd) ++ s.tokens
      indents := s.indents.drop closing.length }

/-- Closes all blocks. -/
def closeAllBlocks (s : Scanner) : Scanner :=
  if s.inFlow then s
  else { s with tokens := s.indents.map (fun _ => Token.blockEnd) ++ s.tokens, indents := [] }

/-- Opens a block at the column of the next character, unless one is open there. -/
def openBlock (start : Token) (s : Scanner) : Scanner :=
  if s.inFlow || !s.opensBlock s.column then s
  else { s with tokens := start :: s.tokens, indents := s.column :: s.indents }

/-! ## Candidates -/

/-- Whether a candidate can no longer be a key. -/
def isStale (p : Position) (c : Candidate) : Bool :=
  c.position.line != p.line || maxKeyLength < p.index - c.position.index

/-- Gives up the candidates that can no longer be keys. -/
def dropStale (s : Scanner) : Except Problem Scanner :=
  let stale (c? : Option Candidate) : Bool := c?.any (isStale s.cursor.position)
  if s.candidates.any fun c? => stale c? && c?.any (·.required) then .error .malformed
  else .ok { s with candidates := s.candidates.map fun c? => if stale c? then none else c? }

/-- Gives up the candidate of the innermost collection. -/
def dropCandidate (s : Scanner) : Except Problem Scanner :=
  match s.candidates with
  | some c :: outer =>
    if c.required then .error .malformed else .ok { s with candidates := none :: outer }
  | _ => .ok s

/-- Notes the next token as a candidate, if a key may start here. -/
def noteCandidate (s : Scanner) : Except Problem Scanner :=
  if s.keyAllowed then do
    let s ← s.dropCandidate
    let required := !s.inFlow && s.indents.head? = some s.column
    let candidate := Candidate.mk s.tokens.length required s.cursor.position
    return { s with candidates := some candidate :: s.candidates.drop 1 }
  else .ok s

/-- The tokens that a reader may have: those before the first candidate. -/
def available (s : Scanner) : List Token :=
  let live := s.candidates.filterMap fun c? => c?.filter (!isStale s.cursor.position ·)
  s.tokens.reverse.take ((live.map (·.number)).foldl min s.tokens.length)

/-! ## Single tokens -/

/-- Moves to the next token. Outside flow collections a key may start on a new line. -/
def skipToToken (s : Scanner) : Scanner :=
  let c := s.cursor
  let c := if c.position.index = 0 && c.next? = some byteOrderMark then c.advance 1 else c
  let (c, broken) := skipGap false c.rest c.position
  { s with cursor := c, keyAllowed := s.keyAllowed || (broken && !s.inFlow) }

/-- Reads the end of the document. -/
def scanEnd (s : Scanner) : Except Problem Scanner := do
  let s ← s.closeAllBlocks.dropCandidate
  return { s.push .streamEnd with finished := true, keyAllowed := false }

/-- Reads a directive. -/
def scanDirective (s : Scanner) : Except Problem Scanner := do
  let s ← s.closeAllBlocks.dropCandidate
  let (d, c) ← readDirective s.cursor
  return { s.push (.directive d) with cursor := c, keyAllowed := false }

/-- Reads a mark between documents. -/
def scanDocumentMark (t : Token) (s : Scanner) : Except Problem Scanner := do
  let s ← s.closeAllBlocks.dropCandidate
  return { s.pushOver t 3 with keyAllowed := false }

/-- Reads the start of a flow collection. -/
def scanFlowStart (t : Token) (s : Scanner) : Except Problem Scanner := do
  let s ← s.noteCandidate
  return { s.pushOver t 1 with candidates := none :: s.candidates, keyAllowed := true }

/-- Reads the end of a flow collection. -/
def scanFlowEnd (t : Token) (s : Scanner) : Except Problem Scanner := do
  let s ← s.dropCandidate
  let outer := if s.inFlow then s.candidates.drop 1 else s.candidates
  return { s.pushOver t 1 with candidates := outer, keyAllowed := false }

/-- Reads the comma of a flow collection. -/
def scanFlowEntry (s : Scanner) : Except Problem Scanner := do
  let s ← s.dropCandidate
  return { s.pushOver .flowEntry 1 with keyAllowed := true }

/-- Reads the dash of a block sequence. -/
def scanBlockEntry (s : Scanner) : Except Problem Scanner := do
  if !s.inFlow && !s.keyAllowed then throw .malformed
  let s ← (s.openBlock .blockSequenceStart).dropCandidate
  return { s.pushOver .blockEntry 1 with keyAllowed := true }

/-- Reads the question mark of a key. -/
def scanKey (s : Scanner) : Except Problem Scanner := do
  if !s.inFlow && !s.keyAllowed then throw .malformed
  let s ← (s.openBlock .blockMappingStart).dropCandidate
  return { s.pushOver .key 1 with keyAllowed := !s.inFlow }

/-- Reads the colon of a value. A candidate becomes a key, and may open a block mapping at its
column. -/
def scanValue (s : Scanner) : Except Problem Scanner :=
  match s.candidates with
  | some c :: outer =>
    let s := { s with candidates := none :: outer }.insertAt c.number .key
    let column := c.position.column
    let s :=
      if s.inFlow || !s.opensBlock column then s
      else { s.insertAt c.number .blockMappingStart with indents := column :: s.indents }
    .ok { s.pushOver .value 1 with keyAllowed := false }
  | _ => do
    if !s.inFlow && !s.keyAllowed then throw .malformed
    let s := s.openBlock .blockMappingStart
    return { s.pushOver .value 1 with keyAllowed := !s.inFlow }

/-- Reads an anchor or an alias. -/
def scanName (token : String → Token) (s : Scanner) : Except Problem Scanner := do
  let s ← s.noteCandidate
  let (name, c) ← readName s.cursor
  return { s.push (token name) with cursor := c, keyAllowed := false }

/-- Reads a tag. -/
def scanTag (s : Scanner) : Except Problem Scanner := do
  let s ← s.noteCandidate
  let (name, c) ← readTag s.cursor
  return { s.push (.tag name) with cursor := c, keyAllowed := false }

/-- Reads a block scalar. A key may follow it. -/
def scanBlock (folded : Bool) (s : Scanner) : Except Problem Scanner := do
  let s ← s.dropCandidate
  let least := max 1 ((s.indents.head?.map (· + 1)).getD 0)
  let (text, c) ← readBlock folded least s.cursor
  return { s.push (.scalar (String.ofList text) false) with cursor := c, keyAllowed := true }

/-- Reads a quoted scalar. -/
def scanQuoted (double : Bool) (s : Scanner) : Except Problem Scanner := do
  let s ← s.noteCandidate
  let (text, c) ← readQuoted double s.cursor
  return { s.push (.scalar (String.ofList text) false) with cursor := c, keyAllowed := false }

/-- Reads a plain scalar. -/
def scanPlain (s : Scanner) : Except Problem Scanner := do
  let s ← s.noteCandidate
  let plain := readPlain s.inFlow ((s.indents.head?.map (· + 1)).getD 0) s.cursor
  return { s.push (.scalar (String.ofList plain.text) true) with
    cursor := plain.cursor, keyAllowed := plain.broken }

/-! ## Cutting -/

/-- Characters that start something else than a plain scalar. -/
def isIndicator (c : Char) : Bool :=
  ['-', '?', ':', ',', '[', ']', '\x7b', '\x7d', '#', '&', '*', '!', '|', '>', '\'', '"', '%', '@',
    '\x60'].contains c

/-- Whether a plain scalar starts here. -/
def startsPlain (inFlow : Bool) (c : Char) (rest : List Char) : Bool :=
  (!isGap c && !isIndicator c)
    || (!gapNext rest.head? && (c = '-' || (!inFlow && (c = '?' || c = ':'))))

/-- Reads the token that starts with a character. -/
def scanToken (s : Scanner) (c : Char) (rest : List Char) : Except Problem Scanner :=
  let lineStart := s.column = 0
  let marked := s.inFlow || gapNext rest.head?
  if lineStart && c = '%' then s.scanDirective
  else if lineStart && startsWithMark '-' (c :: rest) then s.scanDocumentMark .documentStart
  else if lineStart && startsWithMark '.' (c :: rest) then s.scanDocumentMark .documentEnd
  else if c = '[' then s.scanFlowStart .flowSequenceStart
  else if c = '\x7b' then s.scanFlowStart .flowMappingStart
  else if c = ']' then s.scanFlowEnd .flowSequenceEnd
  else if c = '\x7d' then s.scanFlowEnd .flowMappingEnd
  else if c = ',' then s.scanFlowEntry
  else if c = '-' && gapNext rest.head? then s.scanBlockEntry
  else if c = '?' && marked then s.scanKey
  else if c = ':' && marked then s.scanValue
  else if c = '*' then s.scanName .alias
  else if c = '&' then s.scanName .anchor
  else if c = '!' then s.scanTag
  else if c = '|' && !s.inFlow then s.scanBlock false
  else if c = '>' && !s.inFlow then s.scanBlock true
  else if c = '\'' then s.scanQuoted false
  else if c = '"' then s.scanQuoted true
  else if startsPlain s.inFlow c rest then s.scanPlain
  else .error .malformed

/-- Reads the next token, and closes the blocks that end before it. -/
def step (s : Scanner) : Except Problem Scanner := do
  let s ← s.skipToToken.dropStale
  let s := s.closeBlocks s.column
  match s.cursor.rest with
  | [] => s.scanEnd
  | c :: rest => s.scanToken c rest

end Scanner

/-- The tokens of a document as far as they can be had, and what ended them if not the end. -/
structure TokenStream where
  tokens : List Token
  problem? : Option Problem := none
deriving Repr, Inhabited

/-- Cuts until the end or the first problem. -/
def TokenStream.scanFrom : Nat → Scanner → TokenStream
  | 0, s => ⟨s.available, some .malformed⟩
  | fuel + 1, s =>
    match s.step with
    | .error p => ⟨s.available, some p⟩
    | .ok s => if s.finished then ⟨s.tokens.reverse, none⟩ else scanFrom fuel s

/-- Cuts a document into tokens. -/
def TokenStream.scan (chars : List Char) : TokenStream :=
  scanFrom (chars.length + 2) { cursor := ⟨chars, {}⟩ }

end Phrasebook.Yaml
