import Phrasebook.Value.Display

/-!
# Trees from values

A value becomes a tree by normalising: mappings become branches under the texts of their keys, lists
and tuples become branches under the decimal numbers of their places, and every other value becomes
the leaf with its text. Keys whose texts agree become one segment: the place of the first and the
node of the last.

Only nothing, a mapping or a tree can be the root. A value that holds itself has no tree.

`Tree.ofEntries` is the strict way to make a tree: it takes texts and trees under texts and nothing
else.
-/

namespace Phrasebook

/-- The fault of a value that holds itself. -/
def recursionFault : Fault :=
  .document "document is recursive or nested too deeply"

/-- The fault of a root that is no mapping. -/
def rootFault (v : Value) : Fault :=
  .document ("expected a mapping at document root, got " ++ v.typeName)

/-- The segment that a key becomes, or the fault that it has no text. -/
def Key.segment (k : Key) : Except Fault String :=
  match k.text? with
  | some s => .ok s
  | none => .error (.mishap .noSuchValue)

mutual

/-- The text or tree that a value becomes. -/
def Value.normalize : Value → Except Fault Part
  | .scalar s => do return .text (← (Value.scalar s).text)
  | .list items => do return .tree (.ofParts (← Value.normalizeItems 0 items))
  | .tuple items => do return .tree (.ofParts (← Value.normalizeItems 0 items))
  | .map entries => do return .tree (.ofParts (← Value.normalizeEntries entries))
  | .set members => do return .text (← (Value.set members).text)
  | .tree t => .ok (.tree t)
  | .enclosing _ _ => .error recursionFault

/-- The parts that the items of a row become, under the numbers of their places from `place` on. -/
def Value.normalizeItems (place : Nat) : List Value → Except Fault (List (String × Part))
  | [] => .ok []
  | v :: rest => do
    let part ← v.normalize
    return (Nat.repr place, part) :: (← Value.normalizeItems (place + 1) rest)

/-- The parts that the values of a mapping become, under the segments of their keys, clashes not yet
settled. -/
def Value.normalizeEntries : List (Key × Value) → Except Fault (List (String × Part))
  | [] => .ok []
  | (key, v) :: rest => do
    let segment ← key.segment
    let part ← v.normalize
    return (segment, part) :: (← Value.normalizeEntries rest)

end

/-- The tree of a value. -/
def Tree.build : Value → Except Fault Tree
  | .scalar .null => .ok .empty
  | .map entries => do return .ofParts (← Value.normalizeEntries entries)
  | .tree t => .ok t
  | .enclosing _ _ => .error recursionFault
  | v => .error (rootFault v)

/-! ## The strict way -/

/-- The fault of a key that is no text. -/
def keyFault (k : Key) : Fault :=
  .mishap (.wrongType ("Translation tree key must be str, got " ++ k.typeName))

/-- The fault of a child that is neither a text nor a tree. -/
def childFault (key : String) (v : Value) : Fault :=
  .mishap (.wrongType
    ("Unexpected node of type " ++ v.typeName ++ " at " ++ Text.quote key
      ++ " in translation tree"))

/-- The entry of a tree that a key and a child make. The key is looked at first. -/
def strictEntry : Key × Value → Except Fault (String × Part)
  | (.scalar (.text key), .scalar (.text text)) => .ok (key, .text text)
  | (.scalar (.text key), .tree t) => .ok (key, .tree t)
  | (.scalar (.text key), v) => .error (childFault key v)
  | (k, _) => .error (keyFault k)

/-- The entries of a tree, up to the first that does not do. -/
def strictEntries : List (Key × Value) → Except Fault (List (String × Part))
  | [] => .ok []
  | e :: rest => do
    let entry ← strictEntry e
    return entry :: (← strictEntries rest)

/-- The tree with these children. -/
def Tree.ofEntries (entries : List (Key × Value)) : Except Fault Tree := do
  return .ofParts (← strictEntries entries)

end Phrasebook
