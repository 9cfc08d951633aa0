import Phrasebook.Proofs.Json.Nodes
import Phrasebook.Proofs.Json.Values
import Phrasebook.Proofs.PlainCopies

/-!
# From graphs back to nodes

The graph of a node is a graph of texts (`ofTexts_graph`). Its value is the node as a plain value,
where the last of the children under one key stands for all of them (`toValue_graph`).

Where the graph of a node stands in a larger one, its parts stand at the numbers that they were
given (`Node.Stands`): both inductions on nodes go along these numbers, which grow from a branch to
its children, so that no branch is met inside itself.
-/

namespace Phrasebook

open Yaml

/-! ## Keys that come twice -/

mutual

/-- The node with one child for each key, at every depth: the last, in the place of the first. -/
def Node.collected : Node → Node
  | .leaf text => .leaf text
  | .branch children => .branch (collectEntries (Node.collectedChildren children))

/-- The children, each with one child for each key at every depth. -/
def Node.collectedChildren : List (String × Node) → List (String × Node)
  | [] => []
  | (key, n) :: rest => (key, n.collected) :: Node.collectedChildren rest

end

/-! ## Parts of a graph -/

/-- The graph of the node stands at a number. -/
def Node.Stands (nodes : Array GraphNode) (number : Nat) (n : Node) : Prop :=
  n.graph number <+: nodes.toList.drop number

/-- The graphs of children and their keys stand from a number on. -/
def Node.ChildrenStand (nodes : Array GraphNode) (number : Nat) (children : List (String × Node)) :
    Prop :=
  Node.childGraph number children <+: nodes.toList.drop number

section Stands

variable {nodes : Array GraphNode} {number : Nat} {key text : String} {n : Node}
  {children : List (String × Node)}

theorem getElem?_of_prefix_drop {a : GraphNode} {l : List GraphNode}
    (h : a :: l <+: nodes.toList.drop number) :
    nodes[number]? = some a ∧ l <+: nodes.toList.drop (number + 1) := by
  obtain ⟨rest, hrest⟩ := h
  constructor
  · rw [← Array.getElem?_toList, ← Nat.add_zero number, ← List.getElem?_drop, ← hrest]
    rfl
  · refine ⟨rest, ?_⟩
    rw [← List.drop_drop, ← hrest]
    rfl

theorem prefix_drop_of_append {l m : List GraphNode} (h : l ++ m <+: nodes.toList.drop number) :
    l <+: nodes.toList.drop number ∧ m <+: nodes.toList.drop (number + l.length) := by
  obtain ⟨rest, hrest⟩ := h
  rw [List.append_assoc] at hrest
  refine ⟨⟨m ++ rest, hrest⟩, ⟨rest, ?_⟩⟩
  rw [← List.drop_drop, ← hrest, List.drop_left]

theorem stands_leaf (h : (Node.leaf text).Stands nodes number) :
    nodes[number]? = some ⟨.text, .scalar text⟩ :=
  (getElem?_of_prefix_drop h).1

theorem stands_branch (h : (Node.branch children).Stands nodes number) :
    nodes[number]? = some ⟨.mapping, .mapping (Node.entryNumbers (number + 1) children)⟩ ∧
      Node.ChildrenStand nodes (number + 1) children :=
  getElem?_of_prefix_drop h

theorem childrenStand_cons (h : Node.ChildrenStand nodes number ((key, n) :: children)) :
    nodes[number]? = some ⟨.text, .scalar key⟩ ∧ n.Stands nodes (number + 1) ∧
      Node.ChildrenStand nodes (number + 1 + n.graphSize) children := by
  obtain ⟨hkey, hrest⟩ := getElem?_of_prefix_drop h
  obtain ⟨hn, hchildren⟩ := prefix_drop_of_append hrest
  rw [length_graph] at hchildren
  exact ⟨hkey, hn, hchildren⟩

/-- Every node has a number of the graph. -/
theorem Node.Stands.lt_size (h : n.Stands nodes number) : number < nodes.size := by
  cases n with
  | leaf text => exact (Array.getElem?_eq_some_iff.1 (stands_leaf h)).1
  | branch children => exact (Array.getElem?_eq_some_iff.1 (stands_branch h).1).1

/-! ## Entries -/

/-- The entries of children are a text and a node of the graph each. -/
theorem entries_of_childrenStand (h : Node.ChildrenStand nodes number children) :
    ∀ e ∈ Node.entryNumbers number children, IsLeaf nodes e.1 ∧ e.2 < nodes.size := by
  induction children generalizing number with
  | nil => exact fun e he => (nomatch he)
  | cons c rest ih =>
    obtain ⟨key, n⟩ := c
    obtain ⟨hkey, hn, hrest⟩ := childrenStand_cons h
    rw [Node.entryNumbers, List.forall_mem_cons]
    exact ⟨⟨⟨key, hkey⟩, hn.lt_size⟩, ih hrest⟩

theorem isBranch_of_stands (h : (Node.branch children).Stands nodes number) :
    IsBranch nodes number (Node.entryNumbers (number + 1) children) := by
  obtain ⟨hnode, hchildren⟩ := stands_branch h
  have hentries := entries_of_childrenStand hchildren
  exact ⟨hnode, fun e he => (hentries e he).1, fun e he => (hentries e he).2⟩

end Stands

/-! ## Graphs of nodes are graphs of texts -/

mutual

theorem isText_of_stands {nodes : Array GraphNode} : ∀ (n : Node) {number : Nat},
    n.Stands nodes number → ∀ m, number ≤ m → m < number + n.graphSize →
    IsLeaf nodes m ∨ ∃ entries, IsBranch nodes m entries
  | .leaf text, number, h, m, hle, hlt => by
    obtain rfl : m = number := by
      rw [Node.graphSize] at hlt
      omega
    exact Or.inl ⟨text, stands_leaf h⟩
  | .branch children, number, h, m, hle, hlt => by
    rcases Nat.eq_or_lt_of_le hle with rfl | hlater
    · exact Or.inr ⟨_, isBranch_of_stands h⟩
    · rw [Node.graphSize] at hlt
      exact areTexts_of_childrenStand children (stands_branch h).2 m hlater (by omega)

theorem areTexts_of_childrenStand {nodes : Array GraphNode} :
    ∀ (children : List (String × Node)) {number : Nat},
    Node.ChildrenStand nodes number children →
    ∀ m, number ≤ m → m < number + Node.childGraphSize children →
    IsLeaf nodes m ∨ ∃ entries, IsBranch nodes m entries
  | [], number, _, m, hle, hlt => by
    rw [Node.childGraphSize] at hlt
    omega
  | (key, n) :: rest, number, h, m, hle, hlt => by
    obtain ⟨hkey, hn, hrest⟩ := childrenStand_cons h
    rw [Node.childGraphSize] at hlt
    -- the key, the node under it, or what comes behind
    rcases Nat.eq_or_lt_of_le hle with rfl | hlater
    · exact Or.inl ⟨key, hkey⟩
    · by_cases hin : m < number + 1 + n.graphSize
      · exact isText_of_stands n hn m hlater hin
      · exact areTexts_of_childrenStand rest hrest m (by omega) (by omega)

end

theorem stands_graph (n : Node) : n.Stands (n.graph 0).toArray 0 := List.prefix_refl _

/-- **The graph of a node is a graph of texts.** -/
theorem ofTexts_graph (n : Node) : OfTexts (n.graph 0).toArray := by
  intro number hnumber
  rw [List.size_toArray, length_graph] at hnumber
  exact isText_of_stands n (stands_graph n) number (Nat.zero_le _) (by omega)

/-! ## Values of nodes -/

/-- Children may be collected by their names or, as entries, by their keys. -/
theorem toEntries_collectEntries (children : List (String × Node)) :
    Node.toEntries (collectEntries children) = collectBy Key.same (Node.toEntries children) := by
  rw [toEntries_eq_map, toEntries_eq_map, collectEntries_eq_collectBy]
  exact (collectBy_map same_ofString Node.toValue children).symm

section Values

variable {nodes : Array GraphNode} {s : Valuation}

/-- An entry of the graph as an entry of plain values. -/
def plainAt (nodes : Array GraphNode) (s : Valuation) (fuel : Nat) (around : List Nat)
    (e : Nat × Nat) : Key × Value :=
  (.ofString (textAt nodes e.1), (itemAt nodes e.2).toValue s.holdings fuel around)

theorem map_plainAt_keptAt (fuel : Nat) (around : List Nat) (entries : List (Nat × Nat)) :
    (keptAt nodes entries).map (plainAt nodes s fuel around)
      = collectBy Key.same (entries.map (plainAt nodes s fuel around)) := by
  have hsame : ∀ a b, Key.same (.ofString (textAt nodes a)) (.ofString (textAt nodes b))
      = (textAt nodes a == textAt nodes b) := fun a b => same_ofString _ _
  let value (number : Nat) : Value := (itemAt nodes number).toValue s.holdings fuel around
  exact (collectBy_map hsame value entries).symm

/-- At the end of the walk, what a collection that was met holds. -/
theorem holdings_of_mem {number : Nat} {entries : List (Nat × Nat)}
    (hs : Evaluate.Progress nodes s.queue.size s) (hmem : number ∈ s.queue)
    (h : IsBranch nodes number entries) :
    s.holdings[number]? = some (some (.map (heldAt nodes (keptAt nodes entries)))) ∧
      ∀ e ∈ entries, itemAt nodes e.2 = .collection e.2 → e.2 ∈ s.queue := by
  obtain ⟨p, hp⟩ := Array.mem_iff_getElem?.1 hmem
  exact hs.filled p (Array.getElem?_eq_some_iff.1 hp).1 number entries hp h

mutual

/-- What a node of the graph has become is its node as a plain value. -/
theorem toValue_of_stands (hs : Evaluate.Progress nodes s.queue.size s) :
    ∀ (n : Node) {number : Nat} (fuel : Nat) (around : List Nat), n.Stands nodes number →
    n.graphSize ≤ fuel → (∀ a ∈ around, a < number) →
    (itemAt nodes number = .collection number → number ∈ s.queue) →
    (itemAt nodes number).toValue s.holdings fuel around = n.collected.toValue
  | .leaf text, number, fuel, around, h, _, _, _ => by
    rw [itemAt_leaf (stands_leaf h), Item.toValue, Node.collected, Node.toValue]
  | .branch children, number, fuel, around, h, hfuel, haround, hmet => by
    obtain ⟨fuel, rfl⟩ := Nat.exists_eq_succ_of_ne_zero (Nat.ne_zero_of_lt hfuel)
    have hbranch := isBranch_of_stands h
    have hitem := itemAt_branch hbranch
    obtain ⟨hheld, hmetInside⟩ := holdings_of_mem hs (hmet hitem) hbranch
    have houtside : around.idxOf? number = none := by
      rw [List.idxOf?_eq_none_iff]
      intro hmem
      exact Nat.lt_irrefl _ (haround number hmem)
    have hinside := map_plainAt_of_childrenStand hs children fuel (number :: around)
      (stands_branch h).2 (Nat.le_of_succ_le_succ hfuel) (by
        rw [List.forall_mem_cons]
        exact ⟨Nat.lt_succ_self _, fun a ha => Nat.lt_succ_of_lt (haround a ha)⟩) hmetInside
    rw [hitem, Item.toValue, houtside, hheld, Node.collected, Node.toValue,
      toEntries_collectEntries, ← hinside, ← map_plainAt_keptAt]
    change Value.map ((heldAt nodes _).map _) = _
    rw [heldAt, List.map_map]
    rfl

theorem map_plainAt_of_childrenStand (hs : Evaluate.Progress nodes s.queue.size s) :
    ∀ (children : List (String × Node)) {number : Nat} (fuel : Nat) (around : List Nat),
    Node.ChildrenStand nodes number children → Node.childGraphSize children ≤ fuel →
    (∀ a ∈ around, a < number) →
    (∀ e ∈ Node.entryNumbers number children,
      itemAt nodes e.2 = .collection e.2 → e.2 ∈ s.queue) →
    (Node.entryNumbers number children).map (plainAt nodes s fuel around)
      = Node.toEntries (Node.collectedChildren children)
  | [], _, _, _, _, _, _, _ => rfl
  | (key, n) :: rest, number, fuel, around, h, hfuel, haround, hmet => by
    obtain ⟨hkey, hn, hrest⟩ := childrenStand_cons h
    rw [Node.childGraphSize] at hfuel
    rw [Node.entryNumbers, List.forall_mem_cons] at hmet
    have hvalue := toValue_of_stands hs n fuel around hn (by omega)
      (fun a ha => Nat.lt_succ_of_lt (haround a ha)) hmet.1
    have hmore := map_plainAt_of_childrenStand hs rest fuel around hrest (by omega)
      (fun a ha => by have := haround a ha; omega) hmet.2
    rw [Node.entryNumbers, List.map_cons, hmore, Node.collectedChildren, Node.toEntries, plainAt,
      hvalue, textAt, hkey]

end

end Values

/-- **The value of the graph of a node is the node as a plain value.** -/
theorem toValue_graph (n : Node) :
    Graph.toValue ⟨(n.graph 0).toArray, some 0⟩ = .ok n.collected.toValue := by
  obtain ⟨s, hwalk, hs, hmet⟩ := Evaluate.outermost_eq (ofTexts_graph n) (stands_graph n).lt_size
  rw [Graph.toValue]
  dsimp only
  rw [hwalk]
  dsimp only
  rw [toValue_of_stands hs n _ [] (stands_graph n) ?_ (fun a ha => (nomatch ha)) hmet]
  rw [List.size_toArray, length_graph]
  exact Nat.le_succ _

end Phrasebook
