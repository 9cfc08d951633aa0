import Phrasebook.Proofs.OwnKeys
import Phrasebook.Proofs.StrictTrees

/-!
# Plain copies of trees

The plain copy of a tree is a mapping that holds its texts, with a mapping for every branch. The
copies of texts and trees are exactly the textual values: texts, and mappings from different texts
to textual values (`textual_iff`). All else that becomes a tree loses something on the way, be it
the type of a scalar, the kind of a container or an entry whose place another one takes.

So a copy may be given for a tree. Building undoes copying on trees, copying undoes building on
textual mappings, and what is built stays as it is from then on (`build_copies`).
-/

namespace Phrasebook

/-! ## Textual values -/

mutual

/-- Whether the value is made of texts and of mappings alone, and all keys are texts, too. -/
def Value.Textual : Value → Prop
  | .scalar (.text _) => True
  | .map entries => KeysDiffer entries ∧ Value.EntriesTextual entries
  | _ => False

/-- Whether all keys of entries are texts, and all values are made of texts and mappings. -/
def Value.EntriesTextual : List (Key × Value) → Prop
  | [] => True
  | (key, v) :: rest => (∃ name, key = .ofString name) ∧ v.Textual ∧ Value.EntriesTextual rest

end

theorem toEntries_eq_map (children : List (String × Node)) :
    Node.toEntries children = children.map fun c => (Key.ofString c.1, c.2.toValue) := by
  induction children with
  | nil => rfl
  | cons c rest ih => rw [Node.toEntries, ih, List.map_cons]

theorem same_ofString (a b : String) : Key.same (.ofString a) (.ofString b) = (a == b) := by
  rw [Key.ofString, Key.ofString, Key.same, Scalar.same_text]

theorem keysDiffer_toEntries_iff {children : List (String × Node)} :
    KeysDiffer (Node.toEntries children) ↔ (children.map Prod.fst).Nodup := by
  rw [KeysDiffer, toEntries_eq_map, List.pairwise_map, List.Nodup, List.pairwise_map]
  simp only [same_ofString, beq_eq_false_iff_ne]

mutual

theorem textual_toValue : ∀ {n : Node}, n.WellKeyed → n.toValue.Textual
  | .leaf _, _ => trivial
  | .branch _, h => ⟨keysDiffer_toEntries_iff.2 h.1, entriesTextual_toEntries h.2⟩

theorem entriesTextual_toEntries : ∀ {children : List (String × Node)},
    Node.AllWellKeyed children → Value.EntriesTextual (Node.toEntries children)
  | [], _ => trivial
  | (name, _) :: _, h => ⟨⟨name, rfl⟩, textual_toValue h.1, entriesTextual_toEntries h.2⟩

end

mutual

theorem exists_part_of_textual : ∀ {v : Value}, v.Textual → ∃ part : Part, part.node.toValue = v
  | .scalar s, h => by
    cases s with
    | text text => exact ⟨.text text, rfl⟩
    | _ => cases h
  | .map entries, h => by
    obtain ⟨parts, rfl⟩ := exists_parts_of_textual h.2
    have hkeys := keysDiffer_toEntries_iff.1 h.1
    exact ⟨.tree ⟨Part.nodes parts, hkeys, Part.allWellKeyed_nodes parts⟩, rfl⟩

theorem exists_parts_of_textual : ∀ {entries : List (Key × Value)},
    Value.EntriesTextual entries →
    ∃ parts : List (String × Part), Node.toEntries (Part.nodes parts) = entries
  | [], _ => ⟨[], rfl⟩
  | (_, v) :: rest, h => by
    obtain ⟨⟨name, rfl⟩, hv, hrest⟩ := h
    obtain ⟨part, rfl⟩ := exists_part_of_textual hv
    obtain ⟨parts, rfl⟩ := exists_parts_of_textual hrest
    exact ⟨(name, part) :: parts, rfl⟩

end

/-- **The textual values are the plain copies of texts and trees.** -/
theorem textual_iff {v : Value} : v.Textual ↔ ∃ part : Part, part.node.toValue = v := by
  constructor
  · exact exists_part_of_textual
  · rintro ⟨part, rfl⟩
    exact textual_toValue part.wellKeyed

/-! ## Building from copies -/

mutual

theorem normalize_toValue : ∀ (n : Node) (h : n.WellKeyed), n.toValue.normalize = .ok (n.part h)
  | .leaf text, _ => rfl
  | .branch children, h => by
    obtain ⟨parts, hparts, hnodes⟩ := exists_normalizeEntries_toEntries children h.2
    rw [Node.toValue, Value.normalize, hparts]
    show Except.ok (Part.tree (.ofParts parts)) = .ok (.tree ⟨children, h⟩)
    rw [ofParts_of_nodes (t := ⟨children, h⟩) hnodes]

theorem exists_normalizeEntries_toEntries : ∀ children : List (String × Node),
    Node.AllWellKeyed children →
    ∃ parts, Value.normalizeEntries (Node.toEntries children) = .ok parts ∧
      Part.nodes parts = children
  | [], _ => ⟨[], rfl, rfl⟩
  | (key, n) :: rest, h => by
    obtain ⟨parts, hparts, hnodes⟩ := exists_normalizeEntries_toEntries rest h.2
    refine ⟨(key, n.part h.1) :: parts, ?_, Part.nodes_cons_part hnodes key h.1⟩
    rw [Node.toEntries, Value.normalizeEntries, normalize_toValue n h.1, hparts]
    rfl

end

/-- Entries that normalize to the parts of a tree have this tree. -/
theorem build_of_normalizeEntries {t : Tree} {entries : List (Key × Value)}
    {parts : List (String × Part)} (h : Value.normalizeEntries entries = .ok parts)
    (hparts : Part.nodes parts = t.children) : Tree.build (.map entries) = .ok t := by
  rw [Tree.build, h]
  show Except.ok (Tree.ofParts parts) = _
  rw [ofParts_of_nodes hparts]

/-- **A tree is built from its own plain value.** -/
theorem build_toValue (t : Tree) : Tree.build t.toValue = .ok t := by
  obtain ⟨parts, hparts, hnodes⟩ := exists_normalizeEntries_toEntries t.children t.wellKeyed.2
  exact build_of_normalizeEntries hparts hnodes

/-- What lies in a tree normalizes to itself. -/
theorem normalizeEntries_asEntries (parts : List (String × Part)) :
    Value.normalizeEntries (asEntries parts) = .ok parts := by
  induction parts with
  | nil => rfl
  | cons c rest ih =>
    rw [asEntries, List.map_cons, Value.normalizeEntries, normalize_value]
    show (do
      let segment ← (Key.ofString c.1).segment
      return (segment, c.2) :: (← Value.normalizeEntries (asEntries rest))) = _
    rw [ih]
    rfl

/-- A textual mapping is the plain copy of its tree. -/
theorem exists_build_of_textual {entries : List (Key × Value)} (h : (Value.map entries).Textual) :
    ∃ t, Tree.build (.map entries) = .ok t ∧ t.toValue = .map entries := by
  obtain ⟨part, hcopy⟩ := textual_iff.1 h
  cases part with
  | text s => cases hcopy
  | tree t =>
    have hbuild := build_toValue t
    have hvalue : t.toValue = .map entries := hcopy
    rw [hvalue] at hbuild
    exact ⟨t, hbuild, hvalue⟩

/--
**Building and copying.** In all of this the order of the children counts, at every depth.

* A tree is built from itself, from its parts, and from its plain copy, which is textual; and to
  make all its branches anew makes no difference.
* A textual mapping has a tree and is the plain copy of it.
* Whatever has a tree, to build it again from the copy of that tree makes no difference.
-/
theorem build_copies :
    (∀ t : Tree,
      Tree.build (.tree t) = .ok t ∧ Tree.build (.map (asEntries t.parts)) = .ok t ∧
      Tree.buildStrictly (.tree t) = .ok t ∧ t.toValue.Textual ∧ Tree.build t.toValue = .ok t) ∧
    (∀ entries, (Value.map entries).Textual →
      ∃ t, Tree.build (.map entries) = .ok t ∧ t.toValue = .map entries) ∧
    ∀ v t, Tree.build v = .ok t → Tree.build t.toValue = .ok t := by
  refine ⟨fun t => ⟨rfl, ?_, ?_, textual_toValue t.wellKeyed, build_toValue t⟩,
    fun entries => exists_build_of_textual, fun v t _ => build_toValue t⟩
  · exact build_of_normalizeEntries (normalizeEntries_asEntries t.parts) t.nodes_parts
  · rw [buildStrictly_eq, Tree.build]

/-- What is left of clashing keys, and a mapping with texts that other scalars would have. -/
theorem build_copies_clashing :
    (∃ t, Tree.build clashing = .ok t ∧ Tree.build t.toValue = .ok t ∧ t.toValue.Textual ∧
      Tree.build (.map (asEntries t.parts)) = .ok t ∧ Tree.buildStrictly (.tree t) = .ok t) ∧
    ∃ t, Tree.build (.map [(.ofString "b", .map [(.ofString "1", .ofString "true")]),
        (.ofString "a", .ofString "")]) = .ok t ∧
      t.toValue = .map [(.ofString "b", .map [(.ofString "1", .ofString "true")]),
        (.ofString "a", .ofString "")] := by
  obtain ⟨htree, htextual, hagain⟩ := build_copies
  constructor
  · obtain ⟨t, ht⟩ : ∃ t, Tree.build clashing = .ok t := ⟨_, rfl⟩
    obtain ⟨-, hparts, hstrictly, hcopy, -⟩ := htree t
    exact ⟨t, ht, hagain clashing t ht, hcopy, hparts, hstrictly⟩
  · refine htextual _ ⟨?_, ?_⟩
    · unfold KeysDiffer
      decide
    · simp [Value.EntriesTextual, Value.Textual, KeysDiffer, Value.ofString]

end Phrasebook
