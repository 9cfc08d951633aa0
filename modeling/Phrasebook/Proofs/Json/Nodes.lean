import Phrasebook.Effect
import Phrasebook.Proofs.Json.Tokens
import Phrasebook.Yaml.Graph

/-!
# Graphs of nodes

From the tokens of a node in flow style, its graph is built (`ofTokens_flowTokens`): every leaf,
every key and every branch becomes one node of the graph, numbered in the order in which they are
written.
-/

namespace Phrasebook

open Yaml

/-! ## The graph of a node -/

mutual

/-- How many nodes of a graph a node takes. -/
def Node.graphSize : Node → Nat
  | .leaf _ => 1
  | .branch children => Node.childGraphSize children + 1

/-- How many nodes of a graph children take with their keys. -/
def Node.childGraphSize : List (String × Node) → Nat
  | [] => 0
  | (_, n) :: rest => 1 + n.graphSize + Node.childGraphSize rest

end

/-- The numbers of children and their keys, from a number on. -/
def Node.entryNumbers (number : Nat) : List (String × Node) → List (Nat × Nat)
  | [] => []
  | (_, n) :: rest =>
    (number, number + 1) :: Node.entryNumbers (number + 1 + n.graphSize) rest

mutual

/-- The graph of a node whose number is given. -/
def Node.graph (number : Nat) : Node → List GraphNode
  | .leaf text => [⟨.text, .scalar text⟩]
  | .branch children =>
    ⟨.mapping, .mapping (Node.entryNumbers (number + 1) children)⟩
      :: Node.childGraph (number + 1) children

/-- The graphs of children and their keys, from a number on. -/
def Node.childGraph (number : Nat) : List (String × Node) → List GraphNode
  | [] => []
  | (key, n) :: rest =>
    ⟨.text, .scalar key⟩ ::
      (n.graph (number + 1) ++ Node.childGraph (number + 1 + n.graphSize) rest)

end

mutual

theorem length_graph : ∀ (n : Node) (number : Nat), (n.graph number).length = n.graphSize
  | .leaf _, _ => rfl
  | .branch children, number => by
    rw [Node.graph, List.length_cons, length_childGraph children, Node.graphSize]

theorem length_childGraph : ∀ (children : List (String × Node)) (number : Nat),
    (Node.childGraph number children).length = Node.childGraphSize children
  | [], _ => rfl
  | (key, n) :: rest, number => by
    rw [Node.childGraph, List.length_cons, List.length_append, length_graph n,
      length_childGraph rest, Node.childGraphSize]
    omega

end

namespace Yaml

/-! ## The state while a graph is built -/

/-- The state with these tokens left to read, and with more nodes. -/
def GraphBuilder.grow (s : GraphBuilder) (tokens : List Token) (more : List GraphNode) :
    GraphBuilder :=
  { s with tokens, nodes := s.nodes ++ more }

namespace GraphBuilder

variable (s : GraphBuilder) (tokens : List Token) (more : List GraphNode)

@[simp]
theorem tokens_grow : (s.grow tokens more).tokens = tokens := rfl

@[simp]
theorem size_nodes_grow : (s.grow tokens more).nodes.size = s.nodes.size + more.length := by
  rw [grow, ← Array.length_toList, Array.toList_appendList, List.length_append, Array.length_toList]

@[simp]
theorem grow_grow (tokens' : List Token) (more' : List GraphNode) :
    (s.grow tokens more).grow tokens' more' = s.grow tokens' (more ++ more') := by
  have hnodes : s.nodes ++ more ++ more' = s.nodes ++ (more ++ more') := by
    apply Array.ext'
    rw [Array.toList_appendList, Array.toList_appendList, Array.toList_appendList,
      List.append_assoc]
  unfold grow
  dsimp only
  rw [hnodes]

/-- The first of the new nodes is filled. -/
theorem modify_grow (n : GraphNode) (f : GraphNode → GraphNode) :
    { s.grow tokens (n :: more) with
        nodes := (s.grow tokens (n :: more)).nodes.modify s.nodes.size f }
      = s.grow tokens (f n :: more) := by
  have hlist : ∀ l : List GraphNode, (l ++ n :: more).modify l.length f = l ++ f n :: more := by
    intro l
    induction l with
    | nil => rfl
    | cons a l ih =>
      rw [List.cons_append, List.length_cons, List.modify_succ_cons, ih]
      rfl
  have hnodes : (s.nodes ++ (n :: more)).modify s.nodes.size f = s.nodes ++ (f n :: more) := by
    apply Array.ext'
    rw [Array.toList_modify, Array.toList_appendList, Array.toList_appendList,
      ← Array.length_toList, hlist]
  unfold grow
  dsimp only
  rw [hnodes]

end GraphBuilder

namespace Build

/-! ## Single steps -/

variable {s s' : GraphBuilder} {t : Token} {rest : List Token}

theorem next_eq (h : s.tokens = t :: rest) : next s = .ok t s := by
  rw [next, bind_of_ok get_eq, h]
  rfl

theorem skip_eq (h : s.tokens = t :: rest) : skip s = .ok () (s.grow rest []) := by
  change EStateM.Result.ok () { s with tokens := s.tokens.drop 1 } = _
  rw [h]
  rfl

theorem expect_eq (h : s.tokens = t :: rest) : expect t s = .ok () (s.grow rest []) := by
  rw [expect, bind_of_ok (next_eq h), if_pos rfl, skip_eq h]

theorem addUnder_eq (tag : Tag) (content : Content) (s : GraphBuilder) :
    addUnder none tag content s = .ok s.nodes.size (s.grow s.tokens [⟨tag, content⟩]) := rfl

theorem fill_eq (number : Nat) (content : Content) (s : GraphBuilder) :
    fill number content s = .ok () { s with
      nodes := s.nodes.modify number fun n => { n with content := content } } := rfl

/-- A node that starts with its content has no properties. -/
theorem properties_eq (h : s.tokens = t :: rest) (hanchor : ∀ name, t ≠ .anchor name)
    (htag : ∀ name, t ≠ .tag name) : properties s = .ok (none, none) s := by
  have hnone : anchor? s = .ok none s := by
    rw [anchor?, bind_of_ok (next_eq h)]
    split
    · next name => exact absurd rfl (hanchor name)
    · rfl
  have hnone' : tagName? s = .ok none s := by
    rw [tagName?, bind_of_ok (next_eq h)]
    split
    · next name => exact absurd rfl (htag name)
    · rfl
  unfold properties
  rw [bind_of_ok hnone]
  dsimp only
  rw [bind_of_ok hnone']
  rfl

/-- What a place holds that the next token does not end. -/
theorem orAbsent_eq {ends : Token → Bool} {build : Build Nat} (h : s.tokens = t :: rest)
    (hends : ends t = false) : orAbsent ends build s = build s := by
  rw [orAbsent, bind_of_ok (next_eq h), hends, if_neg Bool.false_ne_true]

/-- The value behind its mark. -/
theorem valuePart_eq {ends : Token → Bool} {build : Build Nat}
    (h : s.tokens = .value :: t :: rest) (hends : ends t = false) :
    valuePart ends build s = build (s.grow (t :: rest) []) := by
  rw [valuePart, bind_of_ok (next_eq h), if_pos rfl, bind_of_ok (skip_eq h), orAbsent_eq rfl hends]

/-! ## Nodes -/

theorem node_scalar_eq {text : String} (h : s.tokens = .scalar text false :: rest)
    (block loose : Bool) (fuel : Nat) :
    node block loose (fuel + 1) s
      = .ok s.nodes.size (s.grow rest [⟨.text, .scalar text⟩]) := by
  unfold node
  rw [bind_of_ok (next_eq h)]
  dsimp only
  rw [bind_of_ok (properties_eq h (by simp) (by simp))]
  dsimp only
  rw [bind_of_ok (next_eq h)]
  dsimp only
  rw [bind_of_ok (skip_eq h)]
  rfl

/-- A mapping has its number before its entries have theirs, and is filled when they are known. -/
theorem node_mapping_eq {entries : List (Nat × Nat)} {more : List GraphNode} {rest' : List Token}
    (h : s.tokens = .flowMappingStart :: rest) (block loose : Bool) (fuel : Nat)
    (hentries : flowEntries true fuel (s.grow rest [⟨.mapping, .mapping []⟩])
      = .ok entries (s.grow rest' (⟨.mapping, .mapping []⟩ :: more))) :
    node block loose (fuel + 1) s
      = .ok s.nodes.size (s.grow rest' (⟨.mapping, .mapping entries⟩ :: more)) := by
  have hbody : (do skip; flowEntries true fuel : Build (List (Nat × Nat)))
      (s.grow s.tokens [⟨.mapping, .mapping []⟩])
      = .ok entries (s.grow rest' (⟨.mapping, .mapping []⟩ :: more)) := by
    rw [bind_of_ok (skip_eq ((GraphBuilder.tokens_grow ..).trans h)), GraphBuilder.grow_grow]
    exact hentries
  unfold node
  rw [bind_of_ok (next_eq h)]
  dsimp only
  rw [bind_of_ok (properties_eq h (by simp) (by simp))]
  dsimp only
  rw [bind_of_ok (next_eq h)]
  dsimp only
  rw [bind_of_ok (addUnder_eq _ _ _)]
  refine (bind_of_ok hbody).trans ?_
  rw [bind_of_ok (fill_eq _ _ _), GraphBuilder.modify_grow]
  rfl

/-! ## Entries -/

theorem flowEntries_end_eq (first : Bool) (h : s.tokens = .flowMappingEnd :: rest) (fuel : Nat) :
    flowEntries first (fuel + 1) s = .ok [] (s.grow rest []) := by
  unfold flowEntries
  dsimp only
  rw [bind_of_ok (next_eq h), if_pos rfl, bind_of_ok (skip_eq h)]
  rfl

/-- Behind its comma, an entry is built as the first one is. -/
theorem flowEntries_comma_eq (h : s.tokens = .flowEntry :: .key :: rest) (fuel : Nat) :
    flowEntries false (fuel + 1) s = flowEntries true (fuel + 1) (s.grow (.key :: rest) []) := by
  unfold flowEntries
  dsimp only
  rw [bind_of_ok (next_eq h), bind_of_ok (next_eq (GraphBuilder.tokens_grow ..))]
  exact bind_of_ok (expect_eq h)

theorem flowEntries_key_eq {key : String} {number : Nat} {entries : List (Nat × Nat)}
    {s₁ s₂ : GraphBuilder} (fuel : Nat)
    (h : s.tokens = .key :: .scalar key false :: .value :: t :: rest)
    (hends : endsFlowValue .flowMappingEnd t = false)
    (hvalue : node false false (fuel + 1) (s.grow (t :: rest) [⟨.text, .scalar key⟩])
      = .ok number s₁)
    (hentries : flowEntries false (fuel + 1) s₁ = .ok entries s₂) :
    flowEntries true (fuel + 2) s = .ok ((s.nodes.size, number) :: entries) s₂ := by
  have hkey : orAbsent (endsFlowKey .flowMappingEnd) (node false false (fuel + 1))
      (s.grow (.scalar key false :: .value :: t :: rest) [])
      = .ok s.nodes.size (s.grow (.value :: t :: rest) [⟨.text, .scalar key⟩]) :=
    (orAbsent_eq rfl rfl).trans (node_scalar_eq rfl false false fuel)
  unfold flowEntries
  dsimp only
  rw [bind_of_ok (next_eq h)]
  change (next >>= _) s = _
  rw [bind_of_ok (next_eq h)]
  dsimp only
  rw [bind_of_ok (skip_eq h), bind_of_ok hkey, bind_of_ok ((valuePart_eq rfl hends).trans ?_),
    bind_of_ok hentries]
  · rfl
  · rw [GraphBuilder.grow_grow]
    exact hvalue

/-- An entry behind its comma, if it has one. -/
theorem flowEntries_cons_eq (first : Bool) {key : String} {number : Nat}
    {entries : List (Nat × Nat)} {s₁ s₂ : GraphBuilder} (fuel : Nat)
    (h : s.tokens = separator first ++ (.key :: .scalar key false :: .value :: t :: rest))
    (hends : endsFlowValue .flowMappingEnd t = false)
    (hvalue : node false false (fuel + 1) (s.grow (t :: rest) [⟨.text, .scalar key⟩])
      = .ok number s₁)
    (hentries : flowEntries false (fuel + 1) s₁ = .ok entries s₂) :
    flowEntries first (fuel + 2) s = .ok ((s.nodes.size, number) :: entries) s₂ := by
  cases first with
  | true => exact flowEntries_key_eq fuel h hends hvalue hentries
  | false =>
    rw [flowEntries_comma_eq h]
    refine flowEntries_key_eq fuel rfl hends ?_ hentries
    rw [GraphBuilder.grow_grow]
    exact hvalue

/-! ## Whole nodes -/

/-- A node starts with a brace or is a text. -/
theorem exists_flowTokens (n : Node) : ∃ t rest, n.flowTokens = t :: rest ∧
    (t = .flowMappingStart ∨ ∃ text, t = .scalar text false) := by
  cases n with
  | leaf text => exact ⟨_, _, rfl, Or.inr ⟨text, rfl⟩⟩
  | branch children => exact ⟨_, _, rfl, Or.inl rfl⟩

/-- No node starts with what ends the place for a value. -/
theorem endsFlowValue_eq_false (h : t = .flowMappingStart ∨ ∃ text, t = .scalar text false) :
    endsFlowValue .flowMappingEnd t = false := by
  rcases h with rfl | ⟨text, rfl⟩
  · rfl
  · rfl

mutual

/-- **A node in flow style is built as its graph.** -/
theorem node_flowTokens : ∀ (n : Node) {s : GraphBuilder} {rest : List Token} (fuel : Nat)
    (block loose : Bool), n.flowTokens.length ≤ fuel → s.tokens = n.flowTokens ++ rest →
    node block loose fuel s = .ok s.nodes.size (s.grow rest (n.graph s.nodes.size))
  | .leaf text, s, rest, fuel, block, loose, hfuel, h => by
    obtain ⟨fuel, rfl⟩ := Nat.exists_eq_succ_of_ne_zero (Nat.ne_zero_of_lt hfuel)
    exact node_scalar_eq h block loose fuel
  | .branch children, s, rest, fuel, block, loose, hfuel, h => by
    obtain ⟨fuel, rfl⟩ := Nat.exists_eq_succ_of_ne_zero (Nat.ne_zero_of_lt hfuel)
    have hentries := flowEntries_childTokens children
      (s := s.grow (Node.childTokens true children ++ rest) [⟨.mapping, .mapping []⟩]) fuel true
      (Nat.le_of_succ_le_succ hfuel) rfl
    rw [GraphBuilder.grow_grow, GraphBuilder.size_nodes_grow] at hentries
    exact node_mapping_eq h block loose fuel hentries

/-- Children in flow style are built as the entries of their branch. -/
theorem flowEntries_childTokens : ∀ (children : List (String × Node)) {s : GraphBuilder}
    {rest : List Token} (fuel : Nat) (first : Bool),
    (Node.childTokens first children).length ≤ fuel →
    s.tokens = Node.childTokens first children ++ rest →
    flowEntries first fuel s = .ok (Node.entryNumbers s.nodes.size children)
      (s.grow rest (Node.childGraph s.nodes.size children))
  | [], s, rest, fuel, first, hfuel, h => by
    obtain ⟨fuel, rfl⟩ := Nat.exists_eq_succ_of_ne_zero (Nat.ne_zero_of_lt hfuel)
    exact flowEntries_end_eq first h fuel
  | (key, n) :: children, s, rest, fuel, first, hfuel, h => by
    obtain ⟨t, behind, hn, hstart⟩ := exists_flowTokens n
    simp only [Node.childTokens, List.length_append, List.length_cons] at hfuel
    simp only [Node.childTokens, List.append_assoc, List.cons_append] at h
    obtain ⟨fuel, rfl⟩ : ∃ k, fuel = k + 2 := ⟨fuel - 2, by omega⟩
    have hvalue := node_flowTokens n
      (s := s.grow (n.flowTokens ++ (Node.childTokens false children ++ rest))
        [⟨.text, .scalar key⟩]) (fuel + 1) false false (by omega) rfl
    rw [GraphBuilder.grow_grow, GraphBuilder.size_nodes_grow, List.length_singleton] at hvalue
    have hentries := flowEntries_childTokens children
      (s := s.grow (Node.childTokens false children ++ rest)
        (⟨.text, .scalar key⟩ :: n.graph (s.nodes.size + 1))) (fuel + 1) false (by omega) rfl
    rw [GraphBuilder.grow_grow, GraphBuilder.size_nodes_grow, List.length_cons, length_graph,
      Nat.add_comm n.graphSize 1, ← Nat.add_assoc] at hentries
    rw [hn, List.cons_append] at h hvalue
    exact flowEntries_cons_eq first fuel h (endsFlowValue_eq_false hstart) hvalue hentries

end

/-! ## Whole documents -/

theorem documentEnds_eq (h : s.tokens = t :: rest) (ht : t ≠ .documentEnd) (fuel : Nat) :
    documentEnds (fuel + 1) s = .ok () s := by
  rw [documentEnds, bind_of_ok (next_eq h), if_neg ht]
  rfl

/-- A document that is a single node in flow style. -/
theorem document_flowTokens (n : Node) {fuel : Nat} (hfuel : n.flowTokens.length ≤ fuel)
    (h : s.tokens = n.flowTokens ++ [.streamEnd]) :
    document fuel s = .ok (some s.nodes.size)
      ({ s with handles := defaultHandles }.grow [.streamEnd] (n.graph s.nodes.size)) := by
  have hnode :=
    node_flowTokens n (s := { s with handles := defaultHandles }) fuel true false hfuel h
  obtain ⟨t, behind, hn, hstart⟩ := exists_flowTokens n
  rw [hn] at h hfuel
  obtain ⟨fuel, rfl⟩ := Nat.exists_eq_succ_of_ne_zero (Nat.ne_zero_of_lt hfuel)
  unfold document
  rw [bind_of_ok (next_eq h)]
  rcases hstart with rfl | ⟨text, rfl⟩
  all_goals
    refine (bind_of_ok hnode).trans ?_
    refine (bind_of_ok (documentEnds_eq (GraphBuilder.tokens_grow ..) (by simp) fuel)).trans ?_
    exact (bind_of_ok (next_eq (GraphBuilder.tokens_grow ..))).trans rfl

end Build

/-- **The graph of a document in flow style is that of its node.** -/
theorem ofTokens_flowTokens (n : Node) :
    Graph.ofTokens ⟨n.flowTokens ++ [.streamEnd], none⟩ = .ok ⟨(n.graph 0).toArray, some 0⟩ := by
  have hfuel : n.flowTokens.length ≤ 3 * (n.flowTokens ++ [Token.streamEnd]).length + 10 := by
    rw [List.length_append]
    omega
  have hdocument := Build.document_flowTokens n hfuel
    (s := { tokens := n.flowTokens ++ [.streamEnd], problem? := none }) rfl
  have hnodes : (#[] : Array GraphNode) ++ n.graph 0 = (n.graph 0).toArray := by
    apply Array.ext'
    rw [Array.toList_appendList, List.nil_append]
  rw [Graph.ofTokens]
  dsimp only
  rw [hdocument, ← hnodes]
  rfl

end Yaml

end Phrasebook
