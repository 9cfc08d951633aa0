import Phrasebook.Proofs.SelfReference

/-!
# Recursion that does not end

Normalization does not look for references. It goes down, part by part, and comes to no end where a
reference leads back; what ends it is the limit on the number of calls that are open at a time
(`Site.normalize`). In the values of this library references are marked, so there is no need to wait
for the limit, and that makes no difference (`buildWithin_eq`): where no walk comes back, a limit
that is not below the depth of the value is as good as none, and where one does, every limit is
reached.

So there are three ways in which building a tree ends, and `build_outcomes` says which value takes
which.
-/

namespace Phrasebook

/-! ## Normalization with a limit -/

/-- The children that named values become, each made by `make` out of its number and its value. -/
def childrenBy (make : Nat → Value → Except Fault Part) (number : Nat) :
    List (Except Fault String × Value) → Except Fault (List (String × Part))
  | [] => .ok []
  | (name, v) :: rest => do
    let segment ← name
    let part ← make number v
    return (segment, part) :: (← childrenBy make (number + 1) rest)

/-- The items of a row under the numbers of their places. -/
def numbered (place : Nat) : List Value → List (Except Fault String × Value)
  | [] => []
  | v :: rest => (.ok (Nat.repr place), v) :: numbered (place + 1) rest

/-- The values of a mapping under the segments of their keys. -/
def underSegments (entries : List (Key × Value)) : List (Except Fault String × Value) :=
  entries.map fun e => (e.1.segment, e.2)

/-- What a list, tuple or mapping holds, with the names of its children. -/
def Value.named? : Value → Option (List (Except Fault String × Value))
  | .list items => some (numbered 0 items)
  | .tuple items => some (numbered 0 items)
  | .map entries => some (underSegments entries)
  | _ => none

/-- What the value at a site becomes, when no more than `limit` calls may be open at a time.
References are followed. -/
def Site.normalize : Nat → Site → Except Fault Part
  | 0, _ => .error recursionFault
  | limit + 1, p =>
    match p.value.named? with
    | some named => do
      return .tree (.ofParts (← childrenBy (fun i u => (p.part i u).normalize limit) 0 named))
    | none => p.value.normalize

/-- The tree of a value, when no more than `limit` calls may be open at a time below its root. -/
def Tree.buildWithin (limit : Nat) (v : Value) : Except Fault Tree :=
  match v with
  | .map entries => do
    return .ofParts
      (← childrenBy (fun i u => (v.site.part i u).normalize limit) 0 (underSegments entries))
  | v => Tree.build v

section Children

variable {make : Nat → Value → Except Fault Part} {number : Nat}
  {named : List (Except Fault String × Value)}

theorem map_snd_numbered (place : Nat) (items : List Value) :
    (numbered place items).map Prod.snd = items := by
  induction items generalizing place with
  | nil => rfl
  | cons v rest ih => rw [numbered, List.map_cons, ih]

theorem map_snd_underSegments (entries : List (Key × Value)) :
    (underSegments entries).map Prod.snd = entries.map Prod.snd := by
  rw [underSegments, List.map_map]
  rfl

theorem exists_name_numbered (place : Nat) (items : List Value) :
    ∀ e ∈ numbered place items, ∃ segment, e.1 = .ok segment := by
  induction items generalizing place with
  | nil => exact fun e he => nomatch he
  | cons v rest ih =>
    intro e he
    rcases List.mem_cons.1 he with rfl | he
    · exact ⟨_, rfl⟩
    · exact ih (place + 1) e he

/-- Made by normalization, the children are those of normalization. -/
theorem childrenBy_numbered {items : List Value} {place : Nat}
    (h : ∀ i, ∀ v ∈ items, make i v = v.normalize) :
    childrenBy make number (numbered place items) = Value.normalizeItems place items := by
  induction items generalizing number place with
  | nil => rfl
  | cons v rest ih =>
    rw [numbered, childrenBy, Value.normalizeItems, h number v List.mem_cons_self,
      ih fun i u hu => h i u (List.mem_cons_of_mem v hu)]
    rfl

theorem childrenBy_underSegments {entries : List (Key × Value)}
    (h : ∀ i, ∀ e ∈ entries, make i e.2 = e.2.normalize) :
    childrenBy make number (underSegments entries) = Value.normalizeEntries entries := by
  induction entries generalizing number with
  | nil => rfl
  | cons e rest ih =>
    rw [underSegments, List.map_cons, childrenBy, Value.normalizeEntries,
      h number e List.mem_cons_self]
    show (do
      let segment ← e.1.segment
      let part ← e.2.normalize
      return (segment, part) :: (← childrenBy make (number + 1) (underSegments rest))) = _
    rw [ih fun i d hd => h i d (List.mem_cons_of_mem e hd)]

/-- Children are there only if each of them is. -/
theorem exists_of_childrenBy_eq_ok {es : List (String × Part)}
    (h : childrenBy make number named = .ok es) {i : Nat} {u : Value}
    (hu : (named.map Prod.snd)[i]? = some u) : ∃ part, make (number + i) u = .ok part := by
  induction named generalizing number i es with
  | nil => simp at hu
  | cons e rest ih =>
    obtain ⟨segment, -, h⟩ := result_bind_eq_ok h
    obtain ⟨part, hpart, h⟩ := result_bind_eq_ok h
    obtain ⟨others, hothers, -⟩ := result_map_eq_ok h
    cases i with
    | zero =>
      rw [List.map_cons, List.getElem?_cons_zero] at hu
      cases hu
      exact ⟨part, hpart⟩
    | succ i =>
      rw [List.map_cons, List.getElem?_cons_succ] at hu
      obtain ⟨part, hpart⟩ := ih hothers hu
      exact ⟨part, by rw [← hpart]; congr 1; omega⟩

/-- Where all names are there, it is a child that fails. -/
theorem exists_of_childrenBy_eq_error {f : Fault}
    (hnames : ∀ e ∈ named, ∃ segment, e.1 = .ok segment)
    (h : childrenBy make number named = .error f) :
    ∃ (i : Nat) (u : Value), (named.map Prod.snd)[i]? = some u ∧
      make (number + i) u = .error f := by
  induction named generalizing number with
  | nil => cases h
  | cons e rest ih =>
    obtain ⟨name, v⟩ := e
    obtain ⟨segment, hsegment⟩ := hnames _ List.mem_cons_self
    cases hsegment
    cases hmade : make number v with
    | error g =>
      rw [childrenBy, hmade] at h
      cases h
      exact ⟨0, v, rfl, hmade⟩
    | ok part =>
      cases hothers : childrenBy make (number + 1) rest with
      | ok others =>
        rw [childrenBy, hmade, hothers] at h
        cases h
      | error g =>
        rw [childrenBy, hmade, hothers] at h
        cases h
        obtain ⟨i, u, hu, hmake⟩ := ih (fun e he => hnames e (List.mem_cons_of_mem _ he)) hothers
        exact ⟨i + 1, u, hu, by rw [← hmake]; congr 1; omega⟩

end Children

section Named

variable {v : Value} {named : List (Except Fault String × Value)}

theorem map_snd_named (h : v.named? = some named) : named.map Prod.snd = v.parts := by
  cases v with
  | list items | tuple items =>
    cases h
    exact map_snd_numbered 0 items
  | map entries =>
    cases h
    exact map_snd_underSegments entries
  | scalar | set | tree | enclosing => cases h

theorem ne_tree_of_named (h : v.named? = some named) (t : Tree) : v ≠ .tree t := by
  rintro rfl
  cases h

/-- With children made by normalization, a container becomes what it normalizes to. -/
theorem ofParts_childrenBy (h : v.named? = some named) {make : Nat → Value → Except Fault Part}
    (hmake : ∀ i, ∀ u ∈ v.parts, make i u = u.normalize) :
    (do return Part.tree (.ofParts (← childrenBy make 0 named))) = v.normalize := by
  cases v with
  | list items | tuple items =>
    cases h
    have hchildren : childrenBy make 0 (numbered 0 items) = Value.normalizeItems 0 items :=
      childrenBy_numbered hmake
    rw [Value.normalize, ← hchildren]
  | map entries =>
    cases h
    have hchildren : childrenBy make 0 (underSegments entries) = Value.normalizeEntries entries :=
      childrenBy_underSegments fun i e he => hmake i e.2 (List.mem_map_of_mem he)
    rw [Value.normalize, ← hchildren]
  | scalar | set | tree | enclosing => cases h

theorem exists_name_of_hasTexts (h : v.named? = some named) (htexts : v.hasTexts = true) :
    ∀ e ∈ named, ∃ segment, e.1 = .ok segment := by
  cases v with
  | list items | tuple items =>
    cases h
    exact exists_name_numbered 0 items
  | map entries =>
    cases h
    intro e he
    obtain ⟨d, hd, rfl⟩ := List.mem_map.1 he
    exact (segment_settles d.1).ok (hasTexts_of_mem_entries htexts hd).1
  | scalar | set | tree | enclosing => cases h

/-- What has no children and is no reference has no reference in it. -/
theorem selfFree_of_named (h : v.named? = none) (hground : v.isReference = false) :
    v.selfFree = true := by
  cases v with
  | list | tuple | map => cases h
  | enclosing => cases hground
  | scalar | set | tree => rfl

end Named

namespace Site

/-- Without references, a limit not below the depth is as good as none. -/
theorem normalize_of_selfFree {p : Site} {limit : Nat} (hfree : p.value.selfFree = true)
    (hdepth : p.value.depth ≤ limit) : p.normalize limit = p.value.normalize := by
  induction limit generalizing p with
  | zero =>
    exfalso
    revert hdepth
    cases p.value <;> simp [Value.depth]
  | succ limit ih =>
    rw [normalize]
    cases hn : p.value.named? with
    | none => rfl
    | some named =>
      refine ofParts_childrenBy hn fun i u hu => ?_
      have hufree := selfFree_of_mem_parts hfree hu
      have hlt := depth_lt_of_mem_parts hu (ne_tree_of_named hn)
      rw [part_eq_child (isReference_of_selfFree hufree)]
      exact ih hufree (show u.depth ≤ limit by omega)

/-- With a reference in it, a site becomes nothing, whatever the limit is. -/
theorem Sound.normalize_ne_ok {p : Site} (h : p.Sound) (hfree : p.value.selfFree = false)
    (limit : Nat) (part : Part) : p.normalize limit ≠ .ok part := by
  induction limit generalizing p part with
  | zero => exact fun hok => nomatch hok
  | succ limit ih =>
    intro hok
    rw [normalize] at hok
    cases hn : p.value.named? with
    | none =>
      rw [selfFree_of_named hn h.ground] at hfree
      cases hfree
    | some named =>
      rw [hn] at hok
      obtain ⟨es, hes, -⟩ := result_map_eq_ok hok
      obtain ⟨i, u, hu, hufree⟩ := h.exists_marked hfree
      obtain ⟨child, hchild⟩ := exists_of_childrenBy_eq_ok hes ((map_snd_named hn).symm ▸ hu)
      rw [Nat.zero_add] at hchild
      exact ih (h.part hu) (h.part_marked i (List.mem_of_getElem? hu) hufree) child hchild

/-- Where nothing wants a text, only the recursion fails. -/
theorem Sound.normalize_eq_error {p : Site} (h : p.Sound) {limit : Nat} {f : Fault}
    (hf : p.normalize limit = .error f) : f = recursionFault := by
  induction limit generalizing p f with
  | zero =>
    cases hf
    rfl
  | succ limit ih =>
    rw [normalize] at hf
    cases hn : p.value.named? with
    | none =>
      obtain ⟨part, hpart⟩ := (normalize_settles p.value (selfFree_of_named hn h.ground)).ok h.texts
      rw [hn] at hf
      simp only [hpart] at hf
      cases hf
    | some named =>
      rw [hn] at hf
      cases hes : childrenBy (fun i u => (p.part i u).normalize limit) 0 named with
      | ok es =>
        simp only [hes] at hf
        cases hf
      | error g =>
        simp only [hes] at hf
        cases hf
        obtain ⟨i, u, hu, hmake⟩ :=
          exists_of_childrenBy_eq_error (exists_name_of_hasTexts hn h.texts) hes
        rw [map_snd_named hn] at hu
        exact ih (h.part hu) (by simpa using hmake)

end Site

/-! ## Building -/

mutual

/-- Only what has no reference in it can be normalized. -/
theorem selfFree_of_normalize : ∀ {v : Value} {part : Part}, v.normalize = .ok part →
    v.selfFree = true
  | .scalar _, _, _ => rfl
  | .list items, _, h => by
    obtain ⟨es, hes, -⟩ := result_map_eq_ok h
    exact selfFreeAll_of_items hes
  | .tuple items, _, h => by
    obtain ⟨es, hes, -⟩ := result_map_eq_ok h
    exact selfFreeAll_of_items hes
  | .map entries, _, h => by
    obtain ⟨es, hes, -⟩ := result_map_eq_ok h
    exact selfFreeEntries_of_entries hes
  | .set _, _, _ => rfl
  | .tree _, _, _ => rfl
  | .enclosing _ _, _, h => nomatch h

theorem selfFreeAll_of_items : ∀ {items : List Value} {place : Nat} {es : List (String × Part)},
    Value.normalizeItems place items = .ok es → Value.selfFreeAll items = true
  | [], _, _, _ => rfl
  | v :: rest, _, _, h => by
    obtain ⟨part, others, hpart, hothers, -⟩ := normalizeItems_cons_eq_ok h
    rw [Value.selfFreeAll, selfFree_of_normalize hpart, selfFreeAll_of_items hothers]
    rfl

theorem selfFreeEntries_of_entries : ∀ {entries : List (Key × Value)} {es : List (String × Part)},
    Value.normalizeEntries entries = .ok es → Value.selfFreeEntries entries = true
  | [], _, _ => rfl
  | (_, v) :: rest, _, h => by
    obtain ⟨name, part, others, -, hpart, hothers, -⟩ := normalizeEntries_cons_eq_ok h
    rw [Value.selfFreeEntries, selfFree_of_normalize hpart, selfFreeEntries_of_entries hothers]
    rfl

end

/-- A mapping with a reference in it has no tree, for that reason if there are all texts. -/
theorem build_of_marked {entries : List (Key × Value)}
    (hfree : (Value.map entries).selfFree = false) (htexts : (Value.map entries).hasTexts = true) :
    Tree.build (.map entries) = .error recursionFault := by
  cases hbuild : Tree.build (.map entries) with
  | ok t =>
    obtain ⟨es, hes, -⟩ := result_map_eq_ok hbuild
    rw [Value.selfFree, selfFreeEntries_of_entries hes] at hfree
    cases hfree
  | error f =>
    rcases build_fails hbuild with ⟨-, hroot⟩ | ⟨rfl, -⟩ | ⟨-, hnone⟩
    · cases hroot
    · rfl
    · rw [htexts] at hnone
      cases hnone

/-- **A limit makes no difference** to a closed value with texts, unless the value is deeper. -/
theorem buildWithin_eq {v : Value} (hclosed : v.closedIn [] = true) (htexts : v.hasTexts = true)
    {limit : Nat} (hdepth : v.depth ≤ limit + 1) : Tree.buildWithin limit v = Tree.build v := by
  cases v with
  | map entries =>
    have hsound := sound_site hclosed htexts
    cases hfree : (Value.map entries).selfFree with
    | true =>
      have hchildren : childrenBy (fun i u => ((Value.map entries).site.part i u).normalize limit)
          0 (underSegments entries) = Value.normalizeEntries entries := by
        refine childrenBy_underSegments fun i e he => ?_
        have hmem : e.2 ∈ (Value.map entries).parts := List.mem_map_of_mem he
        have hefree := selfFree_of_mem_parts hfree hmem
        have hlt := depth_lt_of_mem_parts hmem fun t ht => nomatch ht
        rw [Site.part_eq_child (isReference_of_selfFree hefree)]
        exact Site.normalize_of_selfFree hefree (show e.2.depth ≤ limit by omega)
      rw [Tree.buildWithin, hchildren, Tree.build]
    | false =>
      rw [build_of_marked hfree htexts, Tree.buildWithin]
      -- the root as a part would become one if its children did, and fails as they do
      have hroot : (Value.map entries).site.normalize (limit + 1) = do
          return Part.tree (.ofParts (← childrenBy (fun i u =>
            ((Value.map entries).site.part i u).normalize limit) 0 (underSegments entries))) := rfl
      cases hes : childrenBy (fun i u => ((Value.map entries).site.part i u).normalize limit)
          0 (underSegments entries) with
      | ok es =>
        rw [hes] at hroot
        exact absurd hroot (hsound.normalize_ne_ok hfree _ _)
      | error f =>
        rw [hes] at hroot
        rw [hsound.normalize_eq_error hroot]
        rfl
  | scalar | list | tuple | set | tree | enclosing => rfl

/-! ## Which values have a tree -/

/-- A root is nothing or a mapping. -/
theorem isRoot_eq_false_iff {v : Value} :
    v.isRoot = false ↔ v ≠ .scalar .null ∧ v.isMapping = false := by
  cases v with
  | scalar s => cases s <;> simp [Value.isRoot, Value.isMapping]
  | _ => simp [Value.isRoot, Value.isMapping]

theorem build_of_not_root {v : Value} (hclosed : v.closedIn [] = true) (h : v.isRoot = false) :
    Tree.build v = .error (rootFault v) := by
  cases v with
  | scalar s => cases s <;> first | rfl | cases h
  | map | tree => cases h
  | enclosing shape n => simp [Value.closedIn] at hclosed
  | list | tuple | set => rfl

/-- The faults of building are two: the one tells what it expected, the other does not. -/
theorem rootFault_ne_recursionFault (v : Value) : rootFault v ≠ recursionFault := by
  intro h
  have htext : ("expected a mapping at document root, got " ++ v.typeName).toList.head?
      = "document is recursive or nested too deeply".toList.head? := by
    rw [Fault.document.inj h]
  simp [String.toList_append] at htext

/-- A mapping with texts has a tree, or fails for recursion, and that if it holds itself. -/
theorem build_of_isMapping {v : Value} (hclosed : v.closedIn [] = true) (htexts : v.hasTexts = true)
    (h : v.isMapping = true) :
    (v.HoldsItself ∧ Tree.build v = .error recursionFault) ∨
      (¬v.HoldsItself ∧ ∃ t, Tree.build v = .ok t) := by
  rw [holdsItself_iff hclosed htexts]
  cases v with
  | map entries =>
    cases hfree : (Value.map entries).selfFree with
    | true =>
      obtain ⟨t, ht⟩ := (build_settles hfree rfl).ok htexts
      exact Or.inr ⟨by simp, t, ht⟩
    | false => exact Or.inl ⟨rfl, build_of_marked hfree htexts⟩
  | tree t => exact Or.inr ⟨by simp [Value.selfFree], t, rfl⟩
  | scalar | list | tuple | set | enclosing => cases h

/--
**Which values have a tree.** The values of documents are closed, and for a closed value with texts:

* nothing becomes the empty tree
* what is neither nothing nor a mapping is a fault by its type, whether it holds itself or not
* a mapping that holds itself, in whatever part of it, is a fault of recursion
* any other mapping has a tree
* all this is what recursion with a limit comes to, if the value is not deeper than the limit
-/
theorem build_outcomes :
    (∀ (d : Document) v, d.value = .ok v → v.closedIn [] = true) ∧
    ∀ v : Value, v.closedIn [] = true → v.hasTexts = true →
      (v = .scalar .null → Tree.build v = .ok .empty) ∧
      (Tree.build v
          = .error (.document ("expected a mapping at document root, got " ++ v.typeName)) ↔
        v ≠ .scalar .null ∧ v.isMapping = false) ∧
      (Tree.build v = .error (.document "document is recursive or nested too deeply") ↔
        v.isMapping = true ∧ v.HoldsItself) ∧
      (v.isMapping = true → ¬v.HoldsItself → ∃ t, Tree.build v = .ok t) ∧
      ∀ limit, v.depth ≤ limit + 1 → Tree.buildWithin limit v = Tree.build v := by
  refine ⟨fun d v => closedIn_value, fun v hclosed htexts => ⟨?_, ?_, ?_, ?_, ?_⟩⟩
  · rintro rfl
    rfl
  · rw [← isRoot_eq_false_iff]
    constructor
    · intro h
      rcases build_fails h with ⟨-, hroot⟩ | ⟨hfault, -⟩ | ⟨hfault, -⟩
      · exact hroot
      · exact absurd hfault (rootFault_ne_recursionFault v)
      · cases hfault
    · exact build_of_not_root hclosed
  · constructor
    · intro h
      cases hmapping : v.isMapping with
      | true =>
        rcases build_of_isMapping hclosed htexts hmapping with ⟨hholds, -⟩ | ⟨-, t, ht⟩
        · exact ⟨rfl, hholds⟩
        · rw [ht] at h
          cases h
      | false =>
        by_cases hnull : v = .scalar .null
        · rw [hnull] at h
          cases h
        · rw [build_of_not_root hclosed (isRoot_eq_false_iff.2 ⟨hnull, hmapping⟩)] at h
          exact absurd (Except.error.inj h) (rootFault_ne_recursionFault v)
    · rintro ⟨hmapping, hholds⟩
      rcases build_of_isMapping hclosed htexts hmapping with ⟨-, hbuild⟩ | ⟨hnot, -⟩
      · exact hbuild
      · exact absurd hholds hnot
  · intro hmapping hnot
    rcases build_of_isMapping hclosed htexts hmapping with ⟨hholds, -⟩ | ⟨-, hbuild⟩
    · exact absurd hholds hnot
    · exact hbuild
  · exact fun limit => buildWithin_eq hclosed htexts

/-- A mapping with a list that holds itself, by way of a tuple, in an entry that is overwritten. -/
def overwritten : Value :=
  .map [(.scalar (.int 1), .list [.tuple [.enclosing .list 0]]), (.ofString "1", .ofString "x")]

/-- A list that holds itself, inside a list that does not. -/
def endless : Value :=
  .list [.list [.enclosing .list 0]]

/-- What holds itself is a fault of recursion under the root, even where a later entry stands in its
place, and a fault by its type at the root; a document without is neither. -/
theorem build_outcomes_overwritten :
    (overwritten.HoldsItself ∧ Tree.build overwritten
      = .error (.document "document is recursive or nested too deeply") ∧
      Tree.buildWithin 3 overwritten = Tree.build overwritten) ∧
    (endless.HoldsItself ∧
      Tree.build endless = .error (.document "expected a mapping at document root, got list")) ∧
    ∃ t, Tree.build clashing = .ok t := by
  obtain ⟨-, hbuild⟩ := build_outcomes
  obtain ⟨-, -, hrecursive, -, hlimit⟩ := hbuild overwritten (by decide) (by decide)
  obtain ⟨-, hroot, -⟩ := hbuild endless (by decide) (by decide)
  obtain ⟨-, -, -, htree, -⟩ := hbuild clashing (by decide) (by decide)
  have hholds : overwritten.HoldsItself := (holdsItself_iff rfl (by decide)).2 rfl
  refine ⟨⟨hholds, hrecursive.2 ⟨rfl, hholds⟩, hlimit 3 (by decide)⟩, ⟨?_, ?_⟩, ?_⟩
  · exact (holdsItself_iff rfl rfl).2 rfl
  · refine hroot.2 ⟨?_, rfl⟩
    intro h
    cases h
  · exact htree rfl (not_holdsItself_of_selfFree (by decide))

end Phrasebook
