import Phrasebook.Scalar
import Phrasebook.Tree

/-!
# Document values

What a document holds before it is made a tree: scalars, lists, tuples, mappings and sets, nested in
any way, and whole trees.

A list or mapping may hold itself. `enclosing shape n` stands for the n-th list or mapping around
the place where it is written, counted from the nearest, and `shape` says which of the two that is;
tuples are not counted. In this form every self-reference is a finite value, and a value without
`enclosing` holds nothing of the kind.

Keys are scalars or tuples of keys: lists, mappings, sets and trees cannot be keys.
-/

namespace Phrasebook

/-- A key of a mapping or a member of a set. -/
inductive Key where
  | scalar (s : Scalar)
  | tuple (items : List Key)
deriving Inhabited

/-- The two kinds of containers that may hold themselves. -/
inductive Shape where
  | list
  | map
deriving Repr, DecidableEq, Inhabited

/-- What a message calls the type of a container. -/
def Shape.typeName : Shape → String
  | list => "list"
  | map => "dict"

/-- A value of a document. -/
inductive Value where
  | scalar (s : Scalar)
  | list (items : List Value)
  | tuple (items : List Value)
  | map (entries : List (Key × Value))
  | set (members : List Key)
  | tree (t : Tree)
  | enclosing (shape : Shape) (n : Nat)
deriving Inhabited

/-! ## Keys -/

mutual

/-- Whether two keys are one key. -/
def Key.same : Key → Key → Bool
  | .scalar a, .scalar b => a.same b
  | .tuple xs, .tuple ys => Key.sameAll xs ys
  | _, _ => false

/-- Whether two rows of keys agree place by place. -/
def Key.sameAll : List Key → List Key → Bool
  | [], [] => true
  | x :: xs, y :: ys => x.same y && Key.sameAll xs ys
  | _, _ => false

end

/-- A text as a key. -/
def Key.ofString (s : String) : Key := .scalar (.text s)

/-- What a message calls the type of a key. -/
def Key.typeName : Key → String
  | .scalar s => s.typeName
  | .tuple _ => "tuple"

/-- What a message calls the type of a value. -/
def Value.typeName : Value → String
  | scalar s => s.typeName
  | list _ => Shape.list.typeName
  | tuple _ => "tuple"
  | map _ => Shape.map.typeName
  | set _ => "set"
  | tree _ => "TranslationTree"
  | enclosing shape _ => shape.typeName

/-- A text as a value. -/
def Value.ofString (s : String) : Value := .scalar (.text s)

mutual

/-- The key that a value is, or the name of the type that keeps it from being one. -/
def Value.toKey : Value → Except String Key
  | .scalar s => .ok (.scalar s)
  | .tuple items => do return .tuple (← Value.toKeys items)
  | v => .error v.typeName

/-- The keys that a row of values is. -/
def Value.toKeys : List Value → Except String (List Key)
  | [] => .ok []
  | v :: rest => do
    let key ← v.toKey
    return key :: (← Value.toKeys rest)

end

/-- The complaint about a value that cannot be a key. -/
def unhashable (typeName : String) : Fault :=
  .mishap (.wrongType ("unhashable type: '" ++ typeName ++ "'"))

/-! ## Mappings -/

/-- Puts a value under a key: the key that is there keeps its place and its own form. Keys are one
key as `same` says. -/
def putBy {κ α : Type} (same : κ → κ → Bool) (key : κ) (value : α) : List (κ × α) → List (κ × α)
  | [] => [(key, value)]
  | (k, v) :: rest =>
    if same k key then (k, value) :: rest else (k, v) :: putBy same key value rest

/-- Collects entries into a mapping, one after the other. -/
def collectBy {κ α : Type} (same : κ → κ → Bool) (entries : List (κ × α)) : List (κ × α) :=
  entries.foldl (fun acc e => putBy same e.1 e.2 acc) []

/-- Collects entries under keys into a mapping. -/
def collectKeys {α : Type} (entries : List (Key × α)) : List (Key × α) :=
  collectBy Key.same entries

/-- The value under a key. -/
def valueUnderKey? {α : Type} (key : Key) : List (Key × α) → Option α
  | [] => none
  | (k, v) :: rest => if k.same key then some v else valueUnderKey? key rest

/-- The mapping that a row of entries makes. -/
def Value.ofEntries (entries : List (Key × Value)) : Value :=
  .map (collectKeys entries)

/-! ## Trees as values -/

mutual

/-- A node as a plain value: branches become mappings. -/
def Node.toValue : Node → Value
  | .leaf text => .scalar (.text text)
  | .branch children => .map (Node.toEntries children)

/-- The entries of a branch as plain values. -/
def Node.toEntries : List (String × Node) → List (Key × Value)
  | [] => []
  | (key, node) :: rest => (Key.ofString key, node.toValue) :: Node.toEntries rest

end

/-- A tree as a plain mapping, order kept. -/
def Tree.toValue (t : Tree) : Value :=
  t.node.toValue

mutual

/-- Whether a node equals a value: the same texts under the same keys, with mappings or trees as
branches. -/
def Node.sameValue : Node → Value → Bool
  | .leaf a, .scalar (.text b) => a == b
  | .branch xs, .map ys => xs.length == ys.length && Node.sameValueEntries xs ys
  | n, .tree t => n.same t.node
  | _, _ => false

/-- Whether every entry has an equal one in a mapping. -/
def Node.sameValueEntries : List (String × Node) → List (Key × Value) → Bool
  | [], _ => true
  | (key, node) :: rest, ys =>
    (match valueUnderKey? (Key.ofString key) ys with
      | some other => node.sameValue other
      | none => false) && Node.sameValueEntries rest ys

end

/-- Whether a tree equals a value. -/
def Tree.sameValue (t : Tree) (v : Value) : Bool :=
  t.node.sameValue v

end Phrasebook
