import Phrasebook.Text.Quoted

/-!
# Translation trees

A tree holds translations under paths of segments. A leaf is a text; a branch holds nodes under
segments, each segment once, in the order in which they were first put there.

`putEntry` is the one way in which branches grow: a segment that is there keeps its place and takes
the new node. `follow` is the one way in which they are read.

A node by itself may have a segment twice. A tree holds the proof that none of its branches has, at
any depth (`Node.WellKeyed`), so what is made a tree is shown to be well keyed where it is made.
-/

namespace Phrasebook

/-- A node of a tree: a text, or nodes under segments. -/
inductive Node where
  | leaf (text : String)
  | branch (children : List (String × Node))
deriving Repr, Inhabited

/-! ## Entries in order -/

/-- Puts a value under a name: in the place that the name has, or at the end. -/
def putEntry {α : Type} (name : String) (value : α) : List (String × α) → List (String × α)
  | [] => [(name, value)]
  | (n, v) :: rest =>
    if n = name then (n, value) :: rest else (n, v) :: putEntry name value rest

/-- Collects entries one after the other. -/
def collectEntries {α : Type} (entries : List (String × α)) : List (String × α) :=
  entries.foldl (fun acc e => putEntry e.1 e.2 acc) []

/-- The value under a name. -/
def valueUnder? {α : Type} (name : String) : List (String × α) → Option α
  | [] => none
  | (n, v) :: rest => if n = name then some v else valueUnder? name rest

@[simp]
theorem valueUnder?_putEntry {α : Type} (n name : String) (v : α) (l : List (String × α)) :
    valueUnder? n (putEntry name v l) = if n = name then some v else valueUnder? n l := by
  induction l with
  | nil => grind [putEntry, valueUnder?]
  | cons e rest ih => grind [putEntry, valueUnder?]

theorem map_fst_putEntry {α : Type} (name : String) (v : α) (l : List (String × α)) :
    (putEntry name v l).map Prod.fst
      = if name ∈ l.map Prod.fst then l.map Prod.fst else l.map Prod.fst ++ [name] := by
  induction l with
  | nil => simp [putEntry]
  | cons e rest ih => grind [putEntry]

/-- Putting an entry keeps the names distinct. -/
theorem nodup_putEntry {α : Type} (name : String) (v : α) {l : List (String × α)}
    (h : (l.map Prod.fst).Nodup) : ((putEntry name v l).map Prod.fst).Nodup := by
  rw [map_fst_putEntry]
  split
  · exact h
  · next hn => grind [List.nodup_append]

theorem nodup_collectEntries {α : Type} (entries : List (String × α)) :
    ((collectEntries entries).map Prod.fst).Nodup := by
  suffices h : ∀ (es acc : List (String × α)), (acc.map Prod.fst).Nodup →
      ((es.foldl (fun acc e => putEntry e.1 e.2 acc) acc).map Prod.fst).Nodup from
    h entries [] (by simp)
  intro es
  induction es with
  | nil => intro acc h; exact h
  | cons e rest ih => intro acc h; exact ih _ (nodup_putEntry _ _ h)

theorem mem_putEntry {α : Type} {name : String} {value : α} {l : List (String × α)}
    {e : String × α} (h : e ∈ putEntry name value l) : e = (name, value) ∨ e ∈ l := by
  induction l with
  | nil => exact Or.inl (List.mem_singleton.1 h)
  | cons d rest ih =>
    obtain ⟨n, v⟩ := d
    rw [putEntry] at h
    split at h
    · next hname =>
      rcases List.mem_cons.1 h with rfl | hrest
      · exact Or.inl (by rw [hname])
      · exact Or.inr (List.mem_cons_of_mem _ hrest)
    · rcases List.mem_cons.1 h with rfl | hrest
      · exact Or.inr List.mem_cons_self
      · exact (ih hrest).imp_right (List.mem_cons_of_mem _)

/-- What is collected was among the entries. -/
theorem mem_of_mem_collectEntries {α : Type} {entries : List (String × α)} {e : String × α}
    (h : e ∈ collectEntries entries) : e ∈ entries := by
  suffices hfold : ∀ (es acc : List (String × α)),
      e ∈ es.foldl (fun acc e => putEntry e.1 e.2 acc) acc → e ∈ acc ∨ e ∈ es from
    (hfold entries [] h).resolve_left List.not_mem_nil
  intro es
  induction es with
  | nil => exact fun acc => Or.inl
  | cons d rest ih =>
    intro acc h
    rcases ih _ h with hput | hrest
    · rcases mem_putEntry hput with rfl | hacc
      · exact Or.inr List.mem_cons_self
      · exact Or.inl hacc
    · exact Or.inr (List.mem_cons_of_mem _ hrest)

/-! ## Distinct segments -/

mutual

/-- Whether the segments of every branch in the node are distinct. -/
def Node.WellKeyed : Node → Prop
  | .leaf _ => True
  | .branch children => (children.map Prod.fst).Nodup ∧ Node.AllWellKeyed children

/-- Whether the segments of every branch in the children are distinct. -/
def Node.AllWellKeyed : List (String × Node) → Prop
  | [] => True
  | (_, n) :: rest => n.WellKeyed ∧ Node.AllWellKeyed rest

end

mutual

/-- Looks whether the segments of every branch in the node are distinct. -/
def Node.decideWellKeyed : (n : Node) → Decidable n.WellKeyed
  | .leaf _ => .isTrue trivial
  | .branch children =>
    have := Node.decideAllWellKeyed children
    inferInstanceAs (Decidable ((children.map Prod.fst).Nodup ∧ Node.AllWellKeyed children))

/-- Looks whether the segments of every branch in the children are distinct. -/
def Node.decideAllWellKeyed : (children : List (String × Node)) →
    Decidable (Node.AllWellKeyed children)
  | [] => .isTrue trivial
  | (_, n) :: rest =>
    have := n.decideWellKeyed
    have := Node.decideAllWellKeyed rest
    inferInstanceAs (Decidable (n.WellKeyed ∧ Node.AllWellKeyed rest))

end

instance : DecidablePred Node.WellKeyed := Node.decideWellKeyed

theorem allWellKeyed_iff {children : List (String × Node)} :
    Node.AllWellKeyed children ↔ ∀ c ∈ children, c.2.WellKeyed := by
  induction children with
  | nil => exact ⟨fun _ c hc => (nomatch hc), fun _ => trivial⟩
  | cons c rest ih => rw [Node.AllWellKeyed, ih, List.forall_mem_cons]

/-- Collected children make a well keyed branch if they are well keyed. -/
theorem wellKeyed_collect {children : List (String × Node)} (h : Node.AllWellKeyed children) :
    (Node.branch (collectEntries children)).WellKeyed := by
  refine ⟨nodup_collectEntries children, allWellKeyed_iff.2 fun c hc => ?_⟩
  exact allWellKeyed_iff.1 h c (mem_of_mem_collectEntries hc)

/-! ## Trees -/

/-- A tree is a branch: the nodes under its first segments. In no branch of it does a segment come
twice. -/
@[ext]
structure Tree where
  children : List (String × Node) := []
  wellKeyed : (Node.branch children).WellKeyed := by decide +kernel
deriving Repr

namespace Tree

/-- The tree without translations. -/
def empty : Tree := {}

instance : Inhabited Tree := ⟨empty⟩

/-- The tree that well keyed children make when they are collected. -/
def collect (children : List (String × Node)) (h : Node.AllWellKeyed children) : Tree :=
  ⟨collectEntries children, wellKeyed_collect h⟩

/-- The whole tree as a node. -/
def node (t : Tree) : Node := .branch t.children

/-- The number of first segments. -/
def size (t : Tree) : Nat := t.children.length

/-- The first segments, in order. -/
def keys (t : Tree) : List String := t.children.map Prod.fst

/-- The nodes under the first segments, in order. -/
def values (t : Tree) : List Node := t.children.map Prod.snd

/-- The node under a first segment. -/
def get? (t : Tree) (key : String) : Option Node := valueUnder? key t.children

end Tree

/-! ## Parts of trees -/

/-- What lies under a segment of a tree: a text, or a tree of its own. -/
inductive Part where
  | text (s : String)
  | tree (t : Tree)
deriving Repr, Inhabited

/-- A well keyed node as a text or a tree. -/
def Node.part : (n : Node) → n.WellKeyed → Part
  | .leaf text, _ => .text text
  | .branch children, h => .tree ⟨children, h⟩

namespace Part

/-- The node that a part is. -/
def node : Part → Node
  | text s => .leaf s
  | tree t => t.node

theorem wellKeyed : ∀ part : Part, part.node.WellKeyed
  | text _ => trivial
  | tree t => t.wellKeyed

@[simp]
theorem node_part (n : Node) (h : n.WellKeyed) : (n.part h).node = n := by
  cases n with
  | leaf text => rfl
  | branch children => rfl

/-- The nodes of parts under names. -/
def nodes (parts : List (String × Part)) : List (String × Node) :=
  parts.map fun c => (c.1, c.2.node)

/-- Nodes that are parts are nodes of parts. -/
theorem nodes_cons_part {parts : List (String × Part)} {children : List (String × Node)}
    (h : nodes parts = children) (name : String) {n : Node} (hn : n.WellKeyed) :
    nodes ((name, n.part hn) :: parts) = (name, n) :: children := by
  rw [nodes, List.map_cons, node_part]
  exact congrArg _ h

theorem valueUnder?_nodes (name : String) (parts : List (String × Part)) :
    valueUnder? name (nodes parts) = (valueUnder? name parts).map node := by
  induction parts with
  | nil => rfl
  | cons c rest ih =>
    obtain ⟨n, part⟩ := c
    rw [nodes, List.map_cons, valueUnder?, valueUnder?]
    split
    · rfl
    · exact ih

theorem allWellKeyed_nodes (parts : List (String × Part)) :
    Node.AllWellKeyed (nodes parts) := by
  refine allWellKeyed_iff.2 fun c hc => ?_
  obtain ⟨d, -, rfl⟩ := List.mem_map.1 hc
  exact d.2.wellKeyed

end Part

/-- The tree that parts under names make. -/
def Tree.ofParts (parts : List (String × Part)) : Tree :=
  .collect (Part.nodes parts) (Part.allWellKeyed_nodes parts)

/-- What lies under the first segments of a tree. -/
def Tree.parts (t : Tree) : List (String × Part) :=
  t.children.pmap (fun c h => (c.1, c.2.part h)) (allWellKeyed_iff.1 t.wellKeyed.2)

@[simp]
theorem Tree.nodes_parts (t : Tree) : Part.nodes t.parts = t.children := by
  simp [Part.nodes, parts, List.map_pmap]

/-! ## Reading by path -/

/-- Where a path of segments leads from a node. -/
inductive Reached where
  /-- the path ends at this node -/
  | node (n : Node)
  /-- a branch on the way has no such segment -/
  | missing (segment : String)
  /-- there is a leaf on the way, after `depth` segments -/
  | pastLeaf (depth : Nat)
deriving Repr, Inhabited

/-- Follows a path from a node that itself lies `depth` segments deep. -/
def Node.followFrom (depth : Nat) : Node → List String → Reached
  | n, [] => .node n
  | .leaf _, _ :: _ => .pastLeaf depth
  | .branch children, s :: rest =>
    match valueUnder? s children with
    | none => .missing s
    | some child => child.followFrom (depth + 1) rest

/-- Follows a path from the root of a tree. -/
def Tree.follow (t : Tree) (path : List String) : Reached :=
  t.node.followFrom 0 path

/-- The node at the end of a path, when there is one. -/
def Tree.at? (t : Tree) (path : List String) : Option Node :=
  match t.follow path with
  | .node n => some n
  | _ => none

/-! ## Equality up to order -/

mutual

/-- Whether two nodes hold the same texts under the same paths; the order of segments does not
count. -/
def Node.same : Node → Node → Bool
  | .leaf a, .leaf b => a == b
  | .branch xs, .branch ys => xs.length == ys.length && Node.sameEntries xs ys
  | _, _ => false

/-- Whether every entry has a counterpart. -/
def Node.sameEntries : List (String × Node) → List (String × Node) → Bool
  | [], _ => true
  | (key, node) :: rest, ys =>
    (match valueUnder? key ys with
      | some other => node.same other
      | none => false) && Node.sameEntries rest ys

end

/-- Whether two trees hold the same texts under the same paths. -/
def Tree.same (a b : Tree) : Bool :=
  a.node.same b.node

/-! ## Text of a tree -/

mutual

/-- The text of a node inside the text of a tree. -/
def Node.display : Node → String
  | .leaf text => Text.quote text
  | .branch children =>
    "TranslationTree(\x7b" ++ ", ".intercalate (Node.displayEntries children) ++ "\x7d)"

/-- The texts of the entries of a branch. -/
def Node.displayEntries : List (String × Node) → List String
  | [] => []
  | (key, node) :: rest => (Text.quote key ++ ": " ++ node.display) :: Node.displayEntries rest

end

/-- The text of a tree. -/
def Tree.display (t : Tree) : String :=
  t.node.display

end Phrasebook
