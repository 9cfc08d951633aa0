import Phrasebook.Tree
import Phrasebook.Yaml.Tag
import Phrasebook.Yaml.TokenStream

/-!
# Node graphs

The nodes of a document, numbered in the order in which they start. A collection names its parts by
number, so an alias is the number of an earlier node, and a node that lies inside itself is no
special case.

A graph is built by reading the tokens once, from left to right. What stands before a node, an
anchor or a tag, is read before its content; an anchor is known inside its own node. Reading asks
for a token only when it has to decide on it: where the tokens stop short, everything before that
point is settled first.
-/

namespace Phrasebook.Yaml

/-- What a node consists of. -/
inductive Content where
  | scalar (text : String)
  | sequence (items : List Nat)
  | mapping (entries : List (Nat × Nat))
deriving Repr, DecidableEq, Inhabited

/-- A node of a document. -/
structure GraphNode where
  tag : Tag
  content : Content
deriving Repr, DecidableEq, Inhabited

/-- The nodes of a document, and the number of the outermost. An empty text has none. -/
structure Graph where
  nodes : Array GraphNode
  root? : Option Nat
deriving Repr, Inhabited

/-! ## Building -/

/-- The state of building a graph. -/
structure GraphBuilder where
  tokens : List Token
  /-- why there are no more tokens -/
  problem? : Option Problem
  handles : List (String × String) := []
  anchors : List (String × Nat) := []
  nodes : Array GraphNode := #[]

/-- A step of building a graph. -/
abbrev Build (α : Type) : Type := EStateM Problem GraphBuilder α

namespace Build

/-- Gives up because of a mistake in the document. -/
def malformed {α : Type} : Build α := throw .malformed

/-- The next token, left in place. -/
def next : Build Token := do
  let s ← get
  match s.tokens with
  | t :: _ => return t
  | [] => throw (s.problem?.getD .malformed)

/-- Moves over a token. -/
def skip : Build Unit :=
  modify fun s => { s with tokens := s.tokens.drop 1 }

/-- Moves over a token that has to be there. -/
def expect (t : Token) : Build Unit := do
  if (← next) = t then skip else malformed

/-! ## Nodes -/

/-- Adds a node, and returns its number. -/
def add (tag : Tag) (content : Content) : Build Nat := do
  let number := (← get).nodes.size
  modify fun s => { s with nodes := s.nodes.push ⟨tag, content⟩ }
  return number

/-- Sets the content of a node. -/
def fill (number : Nat) (content : Content) : Build Unit :=
  modify fun s => { s with nodes := s.nodes.modify number fun n => { n with content := content } }

/-- Adds the scalar that stands for an absent node. -/
def absent : Build Nat := add .null (.scalar "")

/-- Builds a node, or the absent one if what comes next ends the place for it. -/
def orAbsent (ends : Token → Bool) (build : Build Nat) : Build Nat := do
  if ends (← next) then absent else build

/-! ## Properties -/

/-- The text of a tag, its handle expanded. -/
def expand (name : TagName) : Build String := do
  match name.handle? with
  | none => return name.suffix
  | some handle =>
    match valueUnder? handle (← get).handles with
    | some expansion => return expansion ++ name.suffix
    | none => malformed

/-- Reads an anchor, if there is one. -/
def anchor? : Build (Option String) := do
  match ← next with
  | .anchor name => skip; return some name
  | _ => return none

/-- Reads a tag, if there is one. -/
def tagName? : Build (Option TagName) := do
  match ← next with
  | .tag name => skip; return some name
  | _ => return none

/-- Reads the anchor and the tag of a node, in either order. -/
def properties : Build (Option String × Option String) := do
  let (anchor, name) ←
    match ← anchor? with
    | some a => pure (some a, ← tagName?)
    | none =>
      match ← tagName? with
      | some t => pure (← anchor?, some t)
      | none => pure (none, none)
  return (anchor, ← name.mapM expand)

/-- Adds a node under an anchor that is not taken. -/
def addUnder (anchor : Option String) (tag : Tag) (content : Content) : Build Nat := do
  match anchor with
  | none => add tag content
  | some name =>
    if (valueUnder? name (← get).anchors).isSome then malformed
    let number ← add tag content
    modify fun s => { s with anchors := (name, number) :: s.anchors }
    return number

/-- The node that an alias names. -/
def aliased (name : String) : Build Nat := do
  match valueUnder? name (← get).anchors with
  | some number => return number
  | none => malformed

/-- The tag of a scalar. An exclamation mark alone stands for the look of the text. -/
def scalarTag (tag? : Option String) (plain : Bool) (text : String) : Tag :=
  match tag? with
  | none => if plain then .ofPlain text else .text
  | some t => if t = "!" then .ofPlain text else .ofText t

/-- The tag of a collection. -/
def collectionTag (tag? : Option String) (default : Tag) : Tag :=
  match tag? with
  | none => default
  | some t => if t = "!" then default else .ofText t

/-! ## Ends of places -/

/-- What ends the place for an item of a block sequence. -/
def endsItem : Token → Bool
  | .blockEntry | .blockEnd => true
  | _ => false

/-- What ends the place for an item of a sequence without a block of its own. -/
def endsLooseItem : Token → Bool
  | .blockEntry | .key | .value | .blockEnd => true
  | _ => false

/-- What ends the place for a key or value of a block mapping. -/
def endsBlockPart : Token → Bool
  | .key | .value | .blockEnd => true
  | _ => false

/-- What ends the place for a key in a flow collection with this last token. -/
def endsFlowKey (last : Token) (t : Token) : Bool :=
  t = .value || t = .flowEntry || t = last

/-- What ends the place for a value in a flow collection with this last token. -/
def endsFlowValue (last : Token) (t : Token) : Bool :=
  t = .flowEntry || t = last

/-! ## Collections -/

/-- Builds the value of an entry: what follows a value mark, or nothing. -/
def valuePart (ends : Token → Bool) (build : Build Nat) : Build Nat := do
  if (← next) = .value then
    skip
    orAbsent ends build
  else absent

mutual

/-- Builds a node. Block collections and sequences without a block of their own are admitted only
where they are asked for. -/
def node (block loose : Bool) : Nat → Build Nat
  | 0 => malformed
  | fuel + 1 => do
    if let .alias name := ← next then
      skip
      return ← aliased name
    let (anchor, tag?) ← properties
    let sequence (items : Build (List Nat)) : Build Nat := do
      let number ← addUnder anchor (collectionTag tag? .sequence) (.sequence [])
      fill number (.sequence (← items))
      return number
    let mapping (entries : Build (List (Nat × Nat))) : Build Nat := do
      let number ← addUnder anchor (collectionTag tag? .mapping) (.mapping [])
      fill number (.mapping (← entries))
      return number
    let scalar (text : String) (plain : Bool) : Build Nat :=
      addUnder anchor (scalarTag tag? plain text) (.scalar text)
    let nothing : Build Nat :=
      if anchor.isNone && tag?.isNone then malformed else scalar "" true
    match ← next with
    | .scalar text plain => skip; scalar text plain
    | .flowSequenceStart => sequence (do skip; flowItems true fuel)
    | .flowMappingStart => mapping (do skip; flowEntries true fuel)
    | .blockEntry => if loose then sequence (looseItems fuel) else nothing
    | .blockSequenceStart => if block then sequence (do skip; blockItems fuel) else nothing
    | .blockMappingStart => if block then mapping (do skip; blockEntries fuel) else nothing
    | _ => nothing

/-- Builds the items of a block sequence. -/
def blockItems : Nat → Build (List Nat)
  | 0 => malformed
  | fuel + 1 => do
    match ← next with
    | .blockEntry =>
      skip
      let item ← orAbsent endsItem (node true false fuel)
      return item :: (← blockItems fuel)
    | .blockEnd => skip; return []
    | _ => malformed

/-- Builds the items of a sequence without a block of its own. -/
def looseItems : Nat → Build (List Nat)
  | 0 => malformed
  | fuel + 1 => do
    match ← next with
    | .blockEntry =>
      skip
      let item ← orAbsent endsLooseItem (node true false fuel)
      return item :: (← looseItems fuel)
    | _ => return []

/-- Builds the entries of a block mapping. -/
def blockEntries : Nat → Build (List (Nat × Nat))
  | 0 => malformed
  | fuel + 1 => do
    match ← next with
    | .key =>
      skip
      let key ← orAbsent endsBlockPart (node true true fuel)
      let value ← valuePart endsBlockPart (node true true fuel)
      return (key, value) :: (← blockEntries fuel)
    | .blockEnd => skip; return []
    | _ => malformed

/-- Builds the items of a flow sequence. An entry with a key is a mapping of its own. -/
def flowItems (first : Bool) : Nat → Build (List Nat)
  | 0 => malformed
  | fuel + 1 => do
    let last := Token.flowSequenceEnd
    if (← next) = last then
      skip
      return []
    if !first then expect .flowEntry
    match ← next with
    | .flowSequenceEnd => skip; return []
    | .key =>
      let item ← add .mapping (.mapping [])
      skip
      let key ← orAbsent (endsFlowKey last) (node false false fuel)
      let value ← valuePart (endsFlowValue last) (node false false fuel)
      fill item (.mapping [(key, value)])
      return item :: (← flowItems false fuel)
    | _ =>
      let item ← node false false fuel
      return item :: (← flowItems false fuel)

/-- Builds the entries of a flow mapping. A node without a key mark is a key without a value. -/
def flowEntries (first : Bool) : Nat → Build (List (Nat × Nat))
  | 0 => malformed
  | fuel + 1 => do
    let last := Token.flowMappingEnd
    if (← next) = last then
      skip
      return []
    if !first then expect .flowEntry
    match ← next with
    | .flowMappingEnd => skip; return []
    | .key =>
      skip
      let key ← orAbsent (endsFlowKey last) (node false false fuel)
      let value ← valuePart (endsFlowValue last) (node false false fuel)
      return (key, value) :: (← flowEntries false fuel)
    | _ =>
      let key ← node false false fuel
      let value ← absent
      return (key, value) :: (← flowEntries false fuel)

end

/-! ## Documents -/

/-- The handles that need no directive. -/
def defaultHandles : List (String × String) := [("!", "!"), ("!!", Tag.start)]

/-- Reads the directives of a document: at most one version, whose first number is one, and each
handle once. The result is the handles. -/
def directives : Nat → Bool → List (String × String) → Build (List (String × String))
  | 0, _, _ => malformed
  | fuel + 1, versioned, handles => do
    match ← next with
    | .directive (.version major _) =>
      skip
      if versioned || major != 1 then malformed
      directives fuel true handles
    | .directive (.tagHandle handle expansion) =>
      skip
      if (valueUnder? handle handles).isSome then malformed
      directives fuel versioned ((handle, expansion) :: handles)
    | .directive .unknown => skip; directives fuel versioned handles
    | _ => return handles ++ defaultHandles

/-- Reads the start of a document that has one, and sets its handles. -/
def documentStart (fuel : Nat) : Build Unit := do
  let handles ← directives fuel false []
  expect .documentStart
  modify fun s => { s with handles := handles }

/-- What ends the place for the outermost node of a document. -/
def endsDocument : Token → Bool
  | .directive _ | .documentStart | .documentEnd | .streamEnd => true
  | _ => false

/-- Moves over the marks at the end of a document. -/
def documentEnds : Nat → Build Unit
  | 0 => malformed
  | fuel + 1 => do
    if (← next) = .documentEnd then
      skip
      documentEnds fuel

/-- Builds the outermost node of the only document. A second document is a mistake, reported only
once its start has been read. -/
def document (fuel : Nat) : Build (Option Nat) := do
  match ← next with
  | .streamEnd => return none
  | t =>
    let root ←
      if t = .documentStart || t matches .directive _ then do
        documentStart fuel
        orAbsent endsDocument (node true false fuel)
      else do
        modify fun s => { s with handles := defaultHandles }
        node true false fuel
    documentEnds fuel
    if (← next) = .streamEnd then return some root
    documentStart fuel
    malformed

end Build

/-- The graph of a document. -/
def Graph.ofTokens (stream : TokenStream) : Except Problem Graph :=
  let start : GraphBuilder := { tokens := stream.tokens, problem? := stream.problem? }
  match Build.document (3 * stream.tokens.length + 10) start with
  | .ok root? s => .ok ⟨s.nodes, root?⟩
  | .error p _ => .error p

end Phrasebook.Yaml
