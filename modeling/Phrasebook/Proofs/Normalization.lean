import Mathlib.Data.List.Nodup
import Phrasebook.Proofs.Entries
import Phrasebook.Proofs.Texts
import Phrasebook.Proofs.Walk

/-!
# Normalization keeps every walk

A document and its tree are walked side by side. As long as the value on one side normalizes to
the node on the other (`Becomes`), both walks go on alike: `child?_becomes` is one step and
`at?_becomes` a whole path. Where they end, they end in the same way (`StopsAlike`).

Normalization itself fails only on a part without a text, as long as no part holds itself.
-/

namespace Phrasebook

/-- The value normalizes to the node. -/
def Becomes (v : Value) (n : Node) : Prop :=
  ∃ part, v.normalize = .ok part ∧ part.node = n

theorem becomes_of_part {v : Value} {part : Part} (h : v.normalize = .ok part) :
    Becomes v part.node :=
  ⟨part, h, rfl⟩

/-! ## Segments of keys -/

theorem segment_eq_ok_iff {k : Key} {s : String} : k.segment = .ok s ↔ k.text? = some s := by
  unfold Key.segment
  cases k.text? with
  | some t => simp
  | none => simp

theorem segment_settles (k : Key) : Settles k.text?.isSome k.segment := by
  unfold Key.segment
  cases k.text? with
  | some s => exact settles_ok s
  | none => exact settles_error

/-! ## Related options -/

theorem rel_or {α β : Type} {r : α → β → Prop} {a a' : Option α} {b b' : Option β}
    (h : Option.Rel r a b) (h' : Option.Rel r a' b') : Option.Rel r (a.or a') (b.or b') := by
  cases h with
  | some h => exact .some h
  | none => exact h'

theorem rel_bind {α β : Type} {r : α → β → Prop} {a : Option α} {b : Option β}
    {f : α → Option α} {g : β → Option β} (h : Option.Rel r a b)
    (hfg : ∀ x y, r x y → Option.Rel r (f x) (g y)) : Option.Rel r (a.bind f) (b.bind g) := by
  cases h with
  | some h => exact hfg _ _ h
  | none => exact .none

/-- Related values are both there or both not. -/
theorem rel_cases {α β : Type} {r : α → β → Prop} {a : Option α} {b : Option β}
    (h : Option.Rel r a b) :
    (a = none ∧ b = none) ∨ ∃ x y, a = some x ∧ b = some y ∧ r x y := by
  cases h with
  | some h => exact Or.inr ⟨_, _, rfl, rfl, h⟩
  | none => exact Or.inl ⟨rfl, rfl⟩

/-! ## Entries and items -/

theorem normalizeEntries_cons_eq_ok {key : Key} {v : Value} {rest : List (Key × Value)}
    {es : List (String × Part)} (h : Value.normalizeEntries ((key, v) :: rest) = .ok es) :
    ∃ segment part others, key.text? = some segment ∧ v.normalize = .ok part ∧
      Value.normalizeEntries rest = .ok others ∧ es = (segment, part) :: others := by
  obtain ⟨segment, hsegment, h⟩ := result_bind_eq_ok h
  obtain ⟨part, hpart, h⟩ := result_bind_eq_ok h
  obtain ⟨others, hothers, hes⟩ := result_map_eq_ok h
  exact ⟨segment, part, others, segment_eq_ok_iff.1 hsegment, hpart, hothers, hes⟩

theorem names_normalizeEntries {entries : List (Key × Value)} {es : List (String × Part)}
    (h : Value.normalizeEntries entries = .ok es) :
    (es.map Prod.fst).map some = entries.map fun e => e.1.text? := by
  induction entries generalizing es with
  | nil =>
    cases h
    rfl
  | cons e rest ih =>
    obtain ⟨key, v⟩ := e
    obtain ⟨name, part, others, hname, -, hothers, rfl⟩ := normalizeEntries_cons_eq_ok h
    rw [List.map_cons, List.map_cons, List.map_cons, ih hothers, hname]

theorem normalizeItems_cons_eq_ok {place : Nat} {v : Value} {rest : List Value}
    {es : List (String × Part)} (h : Value.normalizeItems place (v :: rest) = .ok es) :
    ∃ part others, v.normalize = .ok part ∧
      Value.normalizeItems (place + 1) rest = .ok others ∧
      es = (Nat.repr place, part) :: others := by
  obtain ⟨part, hpart, h⟩ := result_bind_eq_ok h
  obtain ⟨others, hothers, hes⟩ := result_map_eq_ok h
  exact ⟨part, others, hpart, hothers, hes⟩

theorem names_normalizeItems {items : List Value} {place : Nat} {es : List (String × Part)}
    (h : Value.normalizeItems place items = .ok es) :
    es.map Prod.fst = (List.range' place items.length).map Nat.repr := by
  induction items generalizing place es with
  | nil =>
    cases h
    rfl
  | cons v rest ih =>
    obtain ⟨part, others, -, hothers, rfl⟩ := normalizeItems_cons_eq_ok h
    rw [List.map_cons, ih hothers, List.length_cons, List.range'_succ, List.map_cons]

theorem repr_injective : Function.Injective Nat.repr := by
  intro m n h
  have hm : placeOf? (Nat.repr m) = some m := placeOf?_eq_some_iff.2 rfl
  rw [h, placeOf?_eq_some_iff.2 rfl] at hm
  exact (Option.some.inj hm).symm

/-- The places of a row are written differently. -/
theorem nodup_places (place n : Nat) : ((List.range' place n).map Nat.repr).Nodup := by
  rw [List.nodup_map_iff repr_injective]
  exact List.nodup_range'

/-- The children of a row are its parts, as none of them comes in place of another. -/
theorem children_of_items {items : List Value} {es : List (String × Part)}
    (h : Value.normalizeItems 0 items = .ok es) : (Tree.ofParts es).children = Part.nodes es := by
  refine children_ofParts ?_
  rw [names_normalizeItems h]
  exact nodup_places 0 items.length

/-! ## One step -/

/-- The last entry of a mapping under a segment becomes the node that the branch has there. -/
theorem lastUnder?_becomes {entries : List (Key × Value)} {es : List (String × Part)}
    (h : Value.normalizeEntries entries = .ok es) (segment : String) :
    Option.Rel Becomes (lastUnder? segment entries)
      (valueUnder? segment (Tree.ofParts es).children) := by
  show Option.Rel Becomes _ (valueUnder? segment (collectEntries (Part.nodes es)))
  rw [valueUnder?_collectEntries, lastUnder?]
  induction entries generalizing es with
  | nil =>
    cases h
    exact .none
  | cons e rest ih =>
    obtain ⟨key, v⟩ := e
    obtain ⟨name, part, others, hname, hpart, hothers, rfl⟩ := normalizeEntries_cons_eq_ok h
    -- seen from the end, the first entry of the mapping is asked last on both sides
    simp only [Part.nodes, List.map_cons, List.reverse_cons, List.find?_append, Option.map_or]
    refine rel_or (ih hothers) ?_
    by_cases hs : name = segment
    · simpa [hname, hs] using becomes_of_part hpart
    · simp [hname, hs]

/-- The items of a row become the nodes under their places. -/
theorem items_become {items : List Value} {place : Nat} {es : List (String × Part)}
    (h : Value.normalizeItems place items = .ok es) (segment : String) :
    Option.Rel Becomes
      ((placeOf? segment).bind fun i => if place ≤ i then items[i - place]? else none)
      (valueUnder? segment (Part.nodes es)) := by
  induction items generalizing place es with
  | nil =>
    cases h
    have hnone : ((placeOf? segment).bind fun i =>
        if place ≤ i then ([] : List Value)[i - place]? else none) = none := by
      cases placeOf? segment <;> simp
    rw [hnone]
    exact .none
  | cons v rest ih =>
    obtain ⟨part, others, hpart, hothers, rfl⟩ := normalizeItems_cons_eq_ok h
    rw [Part.nodes, List.map_cons, valueUnder?]
    -- either the segment writes this very place, or one further on, or none of the row
    by_cases hs : Nat.repr place = segment
    · rw [if_pos hs, placeOf?_eq_some_iff.2 hs.symm]
      simpa using becomes_of_part hpart
    · rw [if_neg hs]
      have hrest := ih hothers
      cases hplace : placeOf? segment with
      | none =>
        rw [hplace] at hrest
        exact hrest
      | some i =>
        rw [hplace] at hrest
        have hne : i ≠ place := by
          rintro rfl
          exact hs (placeOf?_eq_some_iff.1 hplace).symm
        simp only [Option.bind_some] at hrest ⊢
        by_cases hle : place + 1 ≤ i
        · have hi : i - place = i - (place + 1) + 1 := by omega
          rw [if_pos hle] at hrest
          rw [if_pos (by omega), hi, List.getElem?_cons_succ]
          exact hrest
        · rw [if_neg hle] at hrest
          rw [if_neg (by omega)]
          exact hrest

theorem becomes_list {items : List Value} {n : Node} (h : Becomes (.list items) n) :
    ∃ es, Value.normalizeItems 0 items = .ok es ∧ n = .branch (Part.nodes es) := by
  obtain ⟨part, hpart, rfl⟩ := h
  obtain ⟨es, hes, rfl⟩ := result_map_eq_ok hpart
  exact ⟨es, hes, congrArg Node.branch (children_of_items hes)⟩

theorem becomes_tuple {items : List Value} {n : Node} (h : Becomes (.tuple items) n) :
    ∃ es, Value.normalizeItems 0 items = .ok es ∧ n = .branch (Part.nodes es) :=
  becomes_list h

theorem becomes_map {entries : List (Key × Value)} {n : Node} (h : Becomes (.map entries) n) :
    ∃ es, Value.normalizeEntries entries = .ok es ∧ n = (Tree.ofParts es).node := by
  obtain ⟨part, hpart, rfl⟩ := h
  obtain ⟨es, hes, rfl⟩ := result_map_eq_ok hpart
  exact ⟨es, hes, rfl⟩

theorem becomes_scalar {s : Scalar} {n : Node} (h : Becomes (.scalar s) n) :
    ∃ text, (Value.scalar s).text? = some text ∧ n = .leaf text := by
  obtain ⟨part, hpart, rfl⟩ := h
  obtain ⟨text, htext, rfl⟩ := result_map_eq_ok hpart
  exact ⟨text, text_eq_ok_iff.1 htext, rfl⟩

theorem becomes_set {members : List Key} {n : Node} (h : Becomes (.set members) n) :
    ∃ text, (Value.set members).text? = some text ∧ n = .leaf text := by
  obtain ⟨part, hpart, rfl⟩ := h
  obtain ⟨text, htext, rfl⟩ := result_map_eq_ok hpart
  exact ⟨text, text_eq_ok_iff.1 htext, rfl⟩

theorem becomes_tree {t : Tree} {n : Node} (h : Becomes (.tree t) n) : n = t.node := by
  obtain ⟨part, hpart, rfl⟩ := h
  cases hpart
  rfl

theorem not_becomes_enclosing {shape : Shape} {k : Nat} {n : Node} :
    ¬Becomes (.enclosing shape k) n := by
  rintro ⟨part, hpart, -⟩
  cases hpart

/-- The parts of a tree become themselves. -/
theorem normalize_value (part : Part) : part.value.normalize = .ok part := by
  cases part with
  | text s => rfl
  | tree t => rfl

/-- **One step.** From a value and from its node, a segment leads to a value and its node, or
nowhere on both sides. -/
theorem child?_becomes {v : Value} {n : Node} (h : Becomes v n) (segment : String) :
    Option.Rel Becomes (v.child? segment) (n.child? segment) := by
  cases v with
  | scalar s =>
    obtain ⟨text, -, rfl⟩ := becomes_scalar h
    exact .none
  | list items =>
    obtain ⟨es, hes, rfl⟩ := becomes_list h
    show Option.Rel Becomes ((placeOf? segment).bind fun i => items[i]?)
      (valueUnder? segment (Part.nodes es))
    simpa using items_become hes segment
  | tuple items =>
    obtain ⟨es, hes, rfl⟩ := becomes_tuple h
    show Option.Rel Becomes ((placeOf? segment).bind fun i => items[i]?)
      (valueUnder? segment (Part.nodes es))
    simpa using items_become hes segment
  | map entries =>
    obtain ⟨es, hes, rfl⟩ := becomes_map h
    exact lastUnder?_becomes hes segment
  | set members =>
    obtain ⟨text, -, rfl⟩ := becomes_set h
    exact .none
  | tree t =>
    rw [becomes_tree h]
    show Option.Rel Becomes ((valueUnder? segment t.parts).map Part.value)
      (valueUnder? segment t.children)
    rw [← t.nodes_parts, Part.valueUnder?_nodes]
    cases valueUnder? segment t.parts with
    | none => exact .none
    | some part => exact .some (becomes_of_part (normalize_value part))
  | enclosing shape k => exact absurd h not_becomes_enclosing

/-- **Whole paths.** A value and its node stay together along every path. -/
theorem at?_becomes {v : Value} {n : Node} (h : Becomes v n) (path : List String) :
    Option.Rel Becomes (v.at? path) (n.at? path) := by
  induction path generalizing v n with
  | nil => exact .some h
  | cons segment rest ih => exact rel_bind (child?_becomes h segment) fun _ _ hu => ih hu

/-! ## Where walks stop -/

/-- A walk of values and a walk of nodes stop in the same way: both are missing, or both end at a
branch, or both end at a leaf, and then the node has the text of the value. -/
inductive StopsAlike : Option Value → Option Node → Prop
  | missing : StopsAlike none none
  | branch {v : Value} (children : List (String × Node)) (h : v.isBranch = true) :
    StopsAlike (some v) (some (.branch children))
  | leaf {v : Value} {text : String} (h : v.isBranch = false) (ht : v.text? = some text) :
    StopsAlike (some v) (some (.leaf text))

/-- A value and its node are both a branch, or both a leaf with the same text. -/
theorem stopsAlike_of_becomes {v : Value} {n : Node} (h : Becomes v n) :
    StopsAlike (some v) (some n) := by
  cases v with
  | scalar s =>
    obtain ⟨text, ht, rfl⟩ := becomes_scalar h
    exact .leaf rfl ht
  | list items =>
    obtain ⟨es, -, rfl⟩ := becomes_list h
    exact .branch _ rfl
  | tuple items =>
    obtain ⟨es, -, rfl⟩ := becomes_tuple h
    exact .branch _ rfl
  | map entries =>
    obtain ⟨es, -, rfl⟩ := becomes_map h
    exact .branch _ rfl
  | set members =>
    obtain ⟨text, ht, rfl⟩ := becomes_set h
    exact .leaf rfl ht
  | tree t =>
    rw [becomes_tree h]
    exact .branch _ rfl
  | enclosing shape k => exact absurd h not_becomes_enclosing

theorem stopsAlike_of_rel {v : Option Value} {n : Option Node} (h : Option.Rel Becomes v n) :
    StopsAlike v n := by
  cases h with
  | some h => exact stopsAlike_of_becomes h
  | none => exact .missing

/-! ## Where normalization fails -/

mutual

/-- Without self-reference, a value normalizes exactly if all its parts have texts. -/
theorem normalize_settles : ∀ v : Value, v.selfFree = true → Settles v.hasTexts v.normalize
  | .scalar s, _ => settles_map (text_settles (.scalar s))
  | .list items, h => settles_map (normalizeItems_settles 0 items h)
  | .tuple items, h => settles_map (normalizeItems_settles 0 items h)
  | .map entries, h => settles_map (normalizeEntries_settles entries h)
  | .set members, _ => settles_map (text_settles (.set members))
  | .tree t, _ => settles_ok (Part.tree t)
  | .enclosing _ _, h => nomatch h

theorem normalizeItems_settles : ∀ (place : Nat) (items : List Value),
    Value.selfFreeAll items = true →
    Settles (Value.haveTexts items) (Value.normalizeItems place items)
  | _, [], _ => settles_ok []
  | place, v :: rest, h => by
    obtain ⟨hv, hrest⟩ := Bool.and_eq_true_iff.1 h
    exact settles_bind (normalize_settles v hv) fun _ =>
      settles_map (normalizeItems_settles (place + 1) rest hrest)

theorem normalizeEntries_settles : ∀ entries : List (Key × Value),
    Value.selfFreeEntries entries = true →
    Settles (Value.entriesHaveTexts entries) (Value.normalizeEntries entries)
  | [], _ => settles_ok []
  | (key, v) :: rest, h => by
    obtain ⟨hv, hrest⟩ := Bool.and_eq_true_iff.1 h
    exact settles_bind (segment_settles key) fun _ => settles_bind (normalize_settles v hv) fun _ =>
      settles_map (normalizeEntries_settles rest hrest)

end

/-! ## Trees and documents -/

/-- Whether a value can be the root of a document. -/
def Value.isRoot : Value → Bool
  | .scalar .null => true
  | .map _ => true
  | .tree _ => true
  | _ => false

/-- A root with nothing in it counts as an empty mapping. -/
def Value.asRoot : Value → Value
  | .scalar .null => .map []
  | v => v

/-- The tree of a root is what the root becomes. -/
theorem asRoot_becomes : ∀ {v : Value} {t : Tree}, v.isRoot = true → Tree.build v = .ok t →
    Becomes v.asRoot t.node
  | .scalar .null, t, _, h => by
    cases h
    exact ⟨.tree .empty, rfl, rfl⟩
  | .map entries, t, _, h => by
    obtain ⟨es, hes, rfl⟩ := result_map_eq_ok h
    refine ⟨.tree (.ofParts es), ?_, rfl⟩
    show (do return Part.tree (.ofParts (← Value.normalizeEntries entries))) = _
    rw [hes]
    rfl
  | .tree u, t, _, h => by
    cases h
    exact ⟨.tree u, rfl, rfl⟩

/-- Without self-reference, a root has a tree exactly if all its parts have texts. -/
theorem build_settles : ∀ {v : Value}, v.selfFree = true → v.isRoot = true →
    Settles v.hasTexts (Tree.build v)
  | .scalar .null, _, _ => settles_ok Tree.empty
  | .map entries, h, _ => settles_map (normalizeEntries_settles entries h)
  | .tree t, _, _ => settles_ok t

/--
**The tree of a document is walked like the document.** A document that does not hold itself has a
tree if all its keys and single values have texts, and along every path the walk of the tree stops
as the walk of the document does. If one of them has no text, that is the failure.
-/
theorem build_walks {v : Value} (hfree : v.selfFree = true) (hroot : v.isRoot = true) :
    (v.hasTexts = true → ∃ t, Tree.build v = .ok t ∧
      ∀ path, StopsAlike (v.asRoot.at? path) (t.at? path)) ∧
    (v.hasTexts = false → Tree.build v = .error (.mishap .noSuchValue)) := by
  have hsettles := build_settles hfree hroot
  refine ⟨fun htexts => ?_, hsettles.error⟩
  obtain ⟨t, ht⟩ := hsettles.ok htexts
  refine ⟨t, ht, fun path => ?_⟩
  rw [Tree.at?_eq]
  exact stopsAlike_of_rel (at?_becomes (asRoot_becomes hroot ht) path)

/-- A document whose keys clash, with rows, empty containers and a null in it. -/
def clashing : Value :=
  .map [(.scalar (.int 1), .ofString "lost"), (.scalar (.bool true), .list []),
    (.ofString "1", .list [.scalar .null, .tuple [.scalar (.bool false), .map []]]),
    (.ofString "true", .scalar (.int (-7)))]

/-- A document with a number that has no text, behind a text that is in order. -/
def halfTextless : Value :=
  .map [(.ofString "a", .ofString "x"), (.ofString "b", oversized)]

theorem hasTexts_halfTextless : halfTextless.hasTexts = false := by
  have h : oversized.hasTexts = false := by
    rw [oversized, Value.hasTexts, Option.isSome_eq_false_iff, Option.isNone_iff_eq_none]
    exact text?_oversized
  rw [halfTextless, Value.hasTexts, Value.entriesHaveTexts, Value.entriesHaveTexts, h]
  rfl

theorem build_walks_clashing :
    (∃ t, Tree.build clashing = .ok t ∧
      ∀ path, StopsAlike (clashing.at? path) (t.at? path)) ∧
    Tree.build halfTextless = .error (.mishap .noSuchValue) :=
  ⟨(build_walks (by decide) (by decide)).1 (by decide),
    (build_walks (v := halfTextless) rfl rfl).2 hasTexts_halfTextless⟩

/-- The two ways in which a tree is not walked like its document: nothing as a root becomes a
branch, and one part without a text leaves no tree to walk. -/
theorem build_not_walks :
    (Tree.build (.scalar .null) = .ok .empty ∧
      ¬StopsAlike ((Value.scalar .null).at? []) (Tree.empty.at? [])) ∧
    (halfTextless.at? ["a"] = some (.ofString "x") ∧
      ∀ t, Tree.build halfTextless ≠ .ok t) := by
  refine ⟨⟨rfl, fun h => nomatch h⟩, rfl, fun t ht => ?_⟩
  have hsettles : Settles halfTextless.hasTexts (Tree.build halfTextless) :=
    build_settles rfl rfl
  rw [hsettles.error hasTexts_halfTextless] at ht
  cases ht

end Phrasebook
