import Phrasebook.Value.Basic
import Phrasebook.Yaml.Graph
import Phrasebook.Yaml.Typed

/-!
# Values of nodes

The value of a graph. Nodes become values in the order of their distance from the outermost one: a
scalar has its value at once, a collection waits in a queue until those before it are filled. The
order shows only in which of several mistakes is reported.

Every node becomes a value once. What a collection holds is therefore a scalar or the number of
another collection; only at the end are the numbers replaced by the values, and a collection inside
itself by a reference to it.

As a key every value is the same as itself, even one that is not a number and equals nothing. So
scalars remember where they come from: an alias, or an entry merged twice, brings the same value
again.

Before a mapping is filled, its merge keys are replaced by the entries that they stand for. This
changes the graph for good, also for later uses of the same mapping.
-/

namespace Phrasebook.Yaml

/-- Where a scalar comes from: its node, or the one value that is not a number and has a notation
of its own. -/
inductive Provenance where
  | node (number : Nat)
  | notANumber
deriving Repr, DecidableEq, Inhabited

/-- What a node became: a scalar, or the collection of the node's number. -/
inductive Item where
  | scalar (s : Scalar) (provenance : Provenance)
  | collection (number : Nat)
deriving Inhabited

/-- A key of a mapping, and where it comes from. -/
structure OwnKey where
  scalar : Scalar
  provenance : Provenance
deriving Inhabited

/-- Whether two keys are one key: they are equal or the very same value. -/
def OwnKey.same (a b : OwnKey) : Bool :=
  a.provenance = b.provenance || a.scalar.same b.scalar

/-- The key without its provenance. -/
def OwnKey.toKey (k : OwnKey) : Key := .scalar k.scalar

/-- What a collection holds. -/
inductive Holding where
  | list (items : List Item)
  | pairs (items : List (Item × Item))
  | map (entries : List (OwnKey × Item))
  | set (members : List OwnKey)
deriving Inhabited

/-- Whether a collection is a mapping or a list, as far as it may hold itself. -/
def Holding.shape : Holding → Shape
  | .map _ => .map
  | _ => .list

/-- The state of turning nodes into values. -/
structure Valuation where
  nodes : Array GraphNode
  /-- what each node became so far -/
  items : Array (Option Item)
  /-- what each collection holds so far -/
  holdings : Array (Option Holding)
  /-- the collections in the order in which they were met -/
  queue : Array Nat := #[]

/-- A step of turning nodes into values. -/
abbrev Evaluate (α : Type) : Type := EStateM Problem Valuation α

namespace Evaluate

/-! ## Nodes -/

/-- A node by its number. -/
def nodeAt (number : Nat) : Evaluate GraphNode := do
  match (← get).nodes[number]? with
  | some n => return n
  | none => throw .malformed

/-- The entries of a node that has to be a mapping. -/
def entriesOf (number : Nat) : Evaluate (List (Nat × Nat)) := do
  match (← nodeAt number).content with
  | .mapping entries => return entries
  | _ => throw .malformed

/-- Changes a node. -/
def change (number : Nat) (f : GraphNode → GraphNode) : Evaluate Unit :=
  modify fun s => { s with nodes := s.nodes.modify number f }

/-- Whether the node with a number has a tag. -/
def hasTag (tag : Tag) (number : Nat) : Evaluate Bool := do
  return (← nodeAt number).tag = tag

/-! ## Merging -/

/-- The first entry whose key has a tag, and all other entries. -/
def takeTagged? (tag : Tag) : List (Nat × Nat) → Evaluate (Option (Nat × List (Nat × Nat)))
  | [] => return none
  | (key, value) :: rest => do
    if ← hasTag tag key then return some (value, rest)
    else return (← takeTagged? tag rest).map fun (found, others) => (found, (key, value) :: others)

/-- Makes the value keys among the keys of entries ordinary texts. -/
def renameKeys (entries : List (Nat × Nat)) : Evaluate Unit :=
  entries.forM fun (key, _) => do
    if ← hasTag .value key then change key fun n => { n with tag := .text }

mutual

/-- Replaces the merge keys of a mapping by the entries that they stand for, which come before its
own. -/
def flatten (number : Nat) : Nat → Evaluate Unit
  | 0 => throw .malformed
  | fuel + 1 => do
    let merged ← takeMerged number fuel
    let own ← entriesOf number
    renameKeys own
    change number fun n => { n with content := .mapping (merged ++ own) }

/-- Takes the merge keys out of a mapping, and returns the entries that they stand for. In a row of
mappings the later ones come first. -/
def takeMerged (number : Nat) : Nat → Evaluate (List (Nat × Nat))
  | 0 => throw .malformed
  | fuel + 1 => do
    match ← takeTagged? .merge (← entriesOf number) with
    | none => return []
    | some (source, others) =>
      change number fun n => { n with content := .mapping others }
      let flattened (part : Nat) : Evaluate (List (Nat × Nat)) := do
        flatten part fuel
        entriesOf part
      let found ←
        match (← nodeAt source).content with
        | .sequence parts => pure (← parts.mapM flattened).reverse.flatten
        | _ => flattened source
      return found ++ (← takeMerged number fuel)

end

/-- The number of entries of all mappings, which bounds the number of merge keys. -/
def entryCount : Evaluate Nat := do
  return (← get).nodes.foldl (fun n node =>
    match node.content with
    | .mapping entries => n + entries.length
    | _ => n) 0

/-! ## Scalars -/

/-- The text of a node that is used as a scalar. A mapping stands for the scalar under its value
key. -/
def scalarText (number : Nat) : Nat → Evaluate String
  | 0 => throw (.mishap .endless)
  | fuel + 1 => do
    match (← nodeAt number).content with
    | .scalar text => return text
    | .sequence _ => throw .malformed
    | .mapping entries =>
      match ← takeTagged? .value entries with
      | some (value, _) => scalarText value fuel
      | none => throw .malformed

/-- The complaint about a mapping where the text of a timestamp is needed. -/
def timestampMishap : Mishap :=
  .wrongType "expected string or bytes-like object, got 'list'"

/-- The scalar that a node with a scalar tag is. -/
def scalar (number : Nat) (n : GraphNode) : Evaluate Item := do
  let text ← scalarText number ((← get).nodes.size + 1)
  if n.tag = .timestamp && n.content matches .mapping _ then throw (.mishap timestampMishap)
  match Typed.scalar n.tag text with
  | .ok s =>
    let shared := n.tag = .float && Typed.isNotANumberMark text
    return .scalar s (if shared then .notANumber else .node number)
  | .error p => throw p

/-! ## Collections -/

/-- Puts a collection into the queue. -/
def enqueue (number : Nat) : Evaluate Item := do
  modify fun s => { s with queue := s.queue.push number }
  return .collection number

/-- What a node becomes. -/
def item (number : Nat) : Evaluate Item := do
  if let some (some known) := (← get).items[number]? then return known
  let n ← nodeAt number
  let made ←
    match n.tag with
    | .sequence | .mapping | .set | .orderedMap | .pairs => enqueue number
    | .merge | .value | .other => throw .malformed
    | _ => scalar number n
  modify fun s => { s with items := s.items.setIfInBounds number (some made) }
  return made

/-- The key that a node becomes. Collections are no keys. -/
def key (number : Nat) : Evaluate OwnKey := do
  match ← item number with
  | .scalar s provenance => return ⟨s, provenance⟩
  | .collection _ => throw .malformed

/-- The entries of a mapping, merge keys replaced. -/
def entries (number : Nat) : Evaluate (List (OwnKey × Item)) := do
  flatten number (2 * (← entryCount) + 4)
  (← entriesOf number).mapM fun (k, v) => return (← key k, ← item v)

/-- The items of a sequence. -/
def sequenceOf (number : Nat) : Evaluate (List Nat) := do
  match (← nodeAt number).content with
  | .sequence items => return items
  | _ => throw .malformed

/-- The pair that a mapping with a single entry is. -/
def pair (number : Nat) : Evaluate (Item × Item) := do
  match ← entriesOf number with
  | [(k, v)] => return (← item k, ← item v)
  | _ => throw .malformed

/-- What a collection holds. -/
def holding (number : Nat) : Evaluate Holding := do
  match (← nodeAt number).tag with
  | .sequence => return .list (← (← sequenceOf number).mapM item)
  | .orderedMap | .pairs => return .pairs (← (← sequenceOf number).mapM pair)
  | .set => return .set ((collectBy OwnKey.same (← entries number)).map Prod.fst)
  | _ => return .map (collectBy OwnKey.same (← entries number))

/-- Fills the collections of the queue from a place on. Filling may lengthen the queue. -/
def fillFrom (place : Nat) : Nat → Evaluate Unit
  | 0 => return
  | fuel + 1 => do
    match (← get).queue[place]? with
    | none => return
    | some number =>
      let found ← holding number
      modify fun s => { s with holdings := s.holdings.setIfInBounds number (some found) }
      fillFrom (place + 1) fuel

/-- Turns the outermost node and all that it holds into values. -/
def outermost (number : Nat) : Evaluate Item := do
  let made ← item number
  fillFrom 0 ((← get).nodes.size + 1)
  return made

end Evaluate

/-! ## Values -/

/-- The value of an item inside the collections `around`, nearest first. -/
def Item.toValue (holdings : Array (Option Holding)) : Nat → List Nat → Item → Value
  | _, _, .scalar s _ => .scalar s
  | 0, _, .collection _ => .scalar .null
  | fuel + 1, around, .collection number =>
    let held := holdings[number]?.join
    match around.idxOf? number with
    | some n => .enclosing ((held.map Holding.shape).getD .list) n
    | none =>
      let inner := toValue holdings fuel (number :: around)
      match held with
      | some (.list items) => .list (items.map inner)
      | some (.pairs items) => .list (items.map fun (k, v) => .tuple [inner k, inner v])
      | some (.map entries) => .map (entries.map fun (k, v) => (k.toKey, inner v))
      | some (.set members) => .set (members.map OwnKey.toKey)
      | none => .scalar .null

/-- The value of a graph; without a node it is nothing. -/
def Graph.toValue (g : Graph) : Except Problem Value :=
  match g.root? with
  | none => .ok (.scalar .null)
  | some root =>
    let size := g.nodes.size
    let start : Valuation :=
      { nodes := g.nodes, items := Array.replicate size none
        holdings := Array.replicate size none }
    match Evaluate.outermost root start with
    | .ok made s => .ok (made.toValue s.holdings (size + 1) [])
    | .error p _ => .error p

end Phrasebook.Yaml
