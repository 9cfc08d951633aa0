import Phrasebook.Proofs.StrictTrees

/-!
# The shape of a tree

What a mapping becomes has the texts of its keys in the order in which they come first, and under
each of them the node of the entry in which it comes last (`FirstPlaceLastValue`). What a row
becomes has the numbers of its places in order (`InPlaces`). This goes for every mapping and row of
a document, at every depth, since every node below a branch is again what a value became.

`tree_shape` puts this together with what holds of trees made in any way: they are well keyed, and
the complaints of the strict way are for that way alone.
-/

namespace Phrasebook

/-- Children that keep each text of the keys of a mapping in its first place, and have the node of
the last entry with that text. -/
structure FirstPlaceLastValue (entries : List (Key × Value))
    (children : List (String × Node)) : Prop where
  names : ∃ texts : List String, texts.map some = (entries.map fun e => e.1.text?) ∧
    children.map Prod.fst = texts.eraseDups
  nodes : ∀ c ∈ children, ∃ v, lastUnder? c.1 entries = some v ∧ Becomes v c.2

/-- Children that have the places of a row as names, in order, and the nodes of its items. -/
structure InPlaces (items : List Value) (children : List (String × Node)) : Prop where
  names : children.map Prod.fst = (List.range items.length).map Nat.repr
  nodes : List.Forall₂ Becomes items (children.map Prod.snd)

theorem firstPlaceLastValue {entries : List (Key × Value)} {es : List (String × Part)}
    (h : Value.normalizeEntries entries = .ok es) :
    FirstPlaceLastValue entries (Tree.ofParts es).children := by
  refine ⟨⟨es.map Prod.fst, names_normalizeEntries h, ?_⟩, fun c hc => ?_⟩
  · rw [← map_fst_nodes]
    exact map_fst_collectEntries (Part.nodes es)
  · have hrel := lastUnder?_becomes h c.1
    rw [valueUnder?_of_mem (Tree.ofParts es).wellKeyed.1 hc] at hrel
    rcases rel_cases hrel with ⟨-, hnone⟩ | ⟨v, n, hlast, hn, hbecomes⟩
    · cases hnone
    · cases hn
      exact ⟨v, hlast, hbecomes⟩

theorem nodes_normalizeItems {items : List Value} {place : Nat} {es : List (String × Part)}
    (h : Value.normalizeItems place items = .ok es) :
    List.Forall₂ Becomes items ((Part.nodes es).map Prod.snd) := by
  induction items generalizing place es with
  | nil =>
    cases h
    exact .nil
  | cons v rest ih =>
    obtain ⟨part, others, hpart, hothers, rfl⟩ := normalizeItems_cons_eq_ok h
    exact .cons (becomes_of_part hpart) (ih hothers)

theorem inPlaces {items : List Value} {es : List (String × Part)}
    (h : Value.normalizeItems 0 items = .ok es) : InPlaces items (Part.nodes es) where
  names := by rw [map_fst_nodes, names_normalizeItems h, List.range_eq_range']
  nodes := nodes_normalizeItems h

/--
**The shape of trees.**

* The tree of a value is what its root becomes, and well keyed.
* So is the tree of a document.
* A tree made of entries in the strict way is well keyed.
* A mapping becomes a branch with first places and last values, a row one with its places.
* The strict way takes a row of entries exactly if each fits, and else complains about the first one
  that does not.
* Normalization and building are the same if they make every branch in the strict way, and none of
  its complaints comes up in building a tree or reading a document.
-/
theorem tree_shape :
    (∀ v t, Tree.build v = .ok t → Becomes v.asRoot t.node ∧ t.node.WellKeyed) ∧
    (∀ (d : Document) t, d.tree = .ok t →
      (∃ v, d.value = .ok v ∧ Becomes v.asRoot t.node) ∧ t.node.WellKeyed) ∧
    (∀ entries t, Tree.ofEntries entries = .ok t → t.node.WellKeyed) ∧
    (∀ entries n, Becomes (.map entries) n →
      ∃ children, n = .branch children ∧ FirstPlaceLastValue entries children) ∧
    (∀ items n, Becomes (.list items) n ∨ Becomes (.tuple items) n →
      ∃ children, n = .branch children ∧ InPlaces items children) ∧
    (∀ entries, (∃ t, Tree.ofEntries entries = .ok t) ↔ ∀ e ∈ entries, Fits e) ∧
    (∀ entries f, Tree.ofEntries entries = .error f ↔ ComplainsFirst entries f) ∧
    (∀ v, Value.normalizeStrictly v = v.normalize ∧ Tree.buildStrictly v = Tree.build v) ∧
    (∀ v f e, Tree.build v = .error f → ¬Complains e f) ∧
    (∀ (d : Document) f e, d.tree = .error f → ¬Complains e f) := by
  refine ⟨fun v t h => ?_, fun d t h => ⟨?_, t.wellKeyed⟩, fun entries t _ => t.wellKeyed,
    fun entries n h => ?_, fun items n h => ?_, fun entries => exists_ofEntries_iff,
    fun entries f => ofEntries_eq_error_iff,
    fun v => ⟨normalizeStrictly_eq v, buildStrictly_eq v⟩,
    fun v f e h => not_complains_of_build h e, fun d f e h => not_complains_of_document h e⟩
  · exact ⟨asRoot_becomes (Document.isRoot_of_build h) h, t.wellKeyed⟩
  · unfold Document.tree at h
    split at h
    · next v hvalue => exact ⟨v, hvalue, asRoot_becomes (Document.isRoot_of_build h) h⟩
    · cases h
  · obtain ⟨es, hes, rfl⟩ := becomes_map h
    exact ⟨_, rfl, firstPlaceLastValue hes⟩
  · rcases h with h | h
    · obtain ⟨es, hes, rfl⟩ := becomes_list h
      exact ⟨_, rfl, inPlaces hes⟩
    · obtain ⟨es, hes, rfl⟩ := becomes_tuple h
      exact ⟨_, rfl, inPlaces hes⟩

/-- A mapping whose keys have one text twice, a tree in it, and a row with an entry that does not
fit. -/
theorem tree_shape_clashing :
    (∃ t, Tree.build clashing = .ok t ∧ t.node.WellKeyed) ∧
    (∃ t, Tree.ofEntries [(.ofString "a", .tree (.mk [("b", .leaf "x")]))] = .ok t ∧
      t.node.WellKeyed) ∧
    Tree.ofEntries [(.ofString "a", .ofString "x"), (.scalar (.int 1), .scalar .null)]
      = .error (keyFault (.scalar (.int 1))) := by
  obtain ⟨hbuild, -, hstrict, -, -, haccepts, hrejects, -⟩ := tree_shape
  refine ⟨?_, ?_, ?_⟩
  · obtain ⟨t, ht⟩ : ∃ t, Tree.build clashing = .ok t := ⟨_, rfl⟩
    exact ⟨t, ht, (hbuild _ t ht).2⟩
  · have hfits : ∀ e ∈ [(Key.ofString "a", Value.tree (.mk [("b", .leaf "x")]))], Fits e := by
      rintro e he
      rw [List.mem_singleton.1 he]
      exact ⟨⟨_, rfl⟩, Or.inr ⟨_, rfl⟩⟩
    obtain ⟨t, ht⟩ := (haccepts _).2 hfits
    exact ⟨t, ht, hstrict _ t ht⟩
  · refine (hrejects _ _).2 ⟨[(.ofString "a", .ofString "x")], _, [], rfl, fun d hd => ?_,
      .key _ fun name h => by cases h⟩
    rw [List.mem_singleton.1 hd]
    exact ⟨⟨_, rfl⟩, Or.inl ⟨_, rfl⟩⟩

end Phrasebook
