import Mathlib.Data.List.Nodup
import Mathlib.Data.List.Perm.Subperm
import Phrasebook.Effect
import Phrasebook.Proofs.Entries
import Phrasebook.Yaml.NodeValue

/-!
# Graphs of texts

In a graph of texts every node is a text or a mapping from texts (`OfTexts`). There is nothing to
merge in it and no text to interpret, so what every node becomes and what every collection holds can
be read off the graph (`itemAt`, `heldAt`, `keptAt`).

Turning it into values is a walk with a queue. `Progress` is what holds all the while: whatever is
known of a node is right, the collections met so far are those of the queue, each once, and those
before the present place are filled. Filling one moves the place on (`fillFrom_progress`); there are
no more collections than nodes, so the walk ends with all of them filled.
-/

namespace Phrasebook.Yaml

/-! ## Graphs of texts -/

/-- What a node becomes. -/
def itemAt (nodes : Array GraphNode) (number : Nat) : Item :=
  match nodes[number]? with
  | some ⟨_, .scalar text⟩ => .scalar (.text text) (.node number)
  | _ => .collection number

/-- The text of a node, empty if it is none. -/
def textAt (nodes : Array GraphNode) (number : Nat) : String :=
  match nodes[number]? with
  | some ⟨_, .scalar text⟩ => text
  | _ => ""

/-- The key that a node becomes. -/
def ownKeyAt (nodes : Array GraphNode) (number : Nat) : OwnKey :=
  ⟨.text (textAt nodes number), .node number⟩

/-- What the entries of a mapping become. -/
def heldAt (nodes : Array GraphNode) (entries : List (Nat × Nat)) : List (OwnKey × Item) :=
  entries.map fun e => (ownKeyAt nodes e.1, itemAt nodes e.2)

/-- The entries that are left of a mapping: of those with the same text for a key the last counts,
in the place of the first. -/
def keptAt (nodes : Array GraphNode) (entries : List (Nat × Nat)) : List (Nat × Nat) :=
  collectBy (fun a b => textAt nodes a == textAt nodes b) entries

/-- The node is a text. -/
def IsLeaf (nodes : Array GraphNode) (number : Nat) : Prop :=
  ∃ text, nodes[number]? = some ⟨.text, .scalar text⟩

/-- The node is a mapping from texts to nodes of the graph. -/
structure IsBranch (nodes : Array GraphNode) (number : Nat) (entries : List (Nat × Nat)) :
    Prop where
  node_eq : nodes[number]? = some ⟨.mapping, .mapping entries⟩
  keys : ∀ e ∈ entries, IsLeaf nodes e.1
  values : ∀ e ∈ entries, e.2 < nodes.size

/-- Every node is a text or a mapping from texts. -/
def OfTexts (nodes : Array GraphNode) : Prop :=
  ∀ number < nodes.size, IsLeaf nodes number ∨ ∃ entries, IsBranch nodes number entries

section

variable {nodes : Array GraphNode} {number : Nat} {entries : List (Nat × Nat)} {text : String}

theorem itemAt_leaf (h : nodes[number]? = some ⟨.text, .scalar text⟩) :
    itemAt nodes number = .scalar (.text text) (.node number) := by
  rw [itemAt, h]

theorem ownKeyAt_leaf (h : nodes[number]? = some ⟨.text, .scalar text⟩) :
    ownKeyAt nodes number = ⟨.text text, .node number⟩ := by
  rw [ownKeyAt, textAt, h]

theorem itemAt_branch (h : IsBranch nodes number entries) :
    itemAt nodes number = .collection number := by
  rw [itemAt, h.node_eq]

/-- Keys are one key if they have one text, wherever they come from. -/
theorem same_ownKeyAt (a b : Nat) :
    OwnKey.same (ownKeyAt nodes a) (ownKeyAt nodes b) = (textAt nodes a == textAt nodes b) := by
  rw [OwnKey.same, ownKeyAt, ownKeyAt, Scalar.same_text]
  by_cases hab : a = b
  · subst hab
    rw [beq_self_eq_true, Bool.or_true]
  · have hnodes : Provenance.node a ≠ .node b := fun heq => hab (Provenance.node.inj heq)
    rw [decide_eq_false hnodes, Bool.false_or]

theorem collectBy_heldAt (entries : List (Nat × Nat)) :
    collectBy OwnKey.same (heldAt nodes entries) = heldAt nodes (keptAt nodes entries) :=
  collectBy_map same_ownKeyAt (itemAt nodes) entries

end

namespace Evaluate

/-! ## Steps that change nothing -/

section

variable {s : Valuation} {number : Nat} {n : GraphNode} {entries : List (Nat × Nat)}

theorem nodeAt_eq (h : s.nodes[number]? = some n) : nodeAt number s = .ok n s := by
  rw [nodeAt, bind_of_ok get_eq, h]
  rfl

theorem hasTag_eq (tag : Tag) (h : s.nodes[number]? = some n) :
    hasTag tag number s = .ok (decide (n.tag = tag)) s := by
  rw [hasTag, bind_of_ok (nodeAt_eq h)]
  rfl

theorem entriesOf_eq (h : IsBranch s.nodes number entries) :
    entriesOf number s = .ok entries s := by
  rw [entriesOf, bind_of_ok (nodeAt_eq h.node_eq)]
  rfl

theorem change_eq {f : GraphNode → GraphNode} (h : s.nodes[number]? = some n) (hf : f n = n) :
    change number f s = .ok () s := by
  have hnodes : s.nodes.modify number f = s.nodes := by
    refine Array.ext_getElem? fun i => ?_
    rw [Array.getElem?_modify]
    split
    · next heq => rw [← heq, h, Option.map_some, hf]
    · rfl
  change EStateM.Result.ok () { s with nodes := s.nodes.modify number f } = _
  rw [hnodes]

/-! ### Nothing to merge -/

theorem takeTagged?_eq {tag : Tag} (htag : tag ≠ .text) (h : ∀ e ∈ entries, IsLeaf s.nodes e.1) :
    takeTagged? tag entries s = .ok none s := by
  induction entries with
  | nil => rfl
  | cons e rest ih =>
    obtain ⟨key, value⟩ := e
    rw [List.forall_mem_cons] at h
    obtain ⟨text, hkey⟩ := h.1
    rw [takeTagged?, bind_of_ok (hasTag_eq tag hkey), decide_eq_false (Ne.symm htag),
      if_neg Bool.false_ne_true, bind_of_ok (ih h.2)]
    rfl

theorem renameKeys_eq (h : ∀ e ∈ entries, IsLeaf s.nodes e.1) :
    renameKeys entries s = .ok () s := by
  induction entries with
  | nil => rfl
  | cons e rest ih =>
    obtain ⟨key, value⟩ := e
    rw [List.forall_mem_cons] at h
    obtain ⟨text, hkey⟩ := h.1
    have hfirst : (do
        if ← hasTag .value key then change key fun n => { n with tag := .text } : Evaluate Unit) s
        = .ok () s := by
      rw [bind_of_ok (hasTag_eq .value hkey)]
      rfl
    exact (bind_of_ok hfirst).trans (ih h.2)

theorem takeMerged_eq (h : IsBranch s.nodes number entries) (fuel : Nat) :
    takeMerged number (fuel + 1) s = .ok [] s := by
  rw [takeMerged, bind_of_ok (entriesOf_eq h), bind_of_ok (takeTagged?_eq (by decide) h.keys)]
  rfl

/-- A mapping from texts stays as it is. -/
theorem flatten_eq (h : IsBranch s.nodes number entries) (fuel : Nat) :
    flatten number (fuel + 2) s = .ok () s := by
  rw [flatten, bind_of_ok (takeMerged_eq h fuel), bind_of_ok (entriesOf_eq h),
    bind_of_ok (renameKeys_eq h.keys)]
  exact change_eq h.node_eq rfl

/-! ### Nothing to interpret -/

theorem scalarText_eq {text : String} (h : s.nodes[number]? = some ⟨.text, .scalar text⟩)
    (fuel : Nat) : scalarText number (fuel + 1) s = .ok text s := by
  rw [scalarText, bind_of_ok (nodeAt_eq h)]
  rfl

theorem scalar_eq {text : String} (h : s.nodes[number]? = some ⟨.text, .scalar text⟩) :
    scalar number ⟨.text, .scalar text⟩ s = .ok (.scalar (.text text) (.node number)) s := by
  have htext : (do scalarText number ((← get).nodes.size + 1) : Evaluate String) s = .ok text s :=
    scalarText_eq h _
  unfold scalar
  exact (bind_of_ok htext).trans rfl

theorem item_of_known {it : Item} (h : s.items[number]? = some (some it)) :
    item number s = .ok it s := by
  unfold item
  rw [bind_of_ok get_eq, h]
  rfl

/-- A text that is not known yet. -/
theorem item_of_leaf {text : String} (hunknown : s.items[number]? = some none)
    (h : s.nodes[number]? = some ⟨.text, .scalar text⟩) :
    item number s = .ok (itemAt s.nodes number) { s with
      items := s.items.setIfInBounds number (some (itemAt s.nodes number)) } := by
  unfold item
  rw [bind_of_ok get_eq, hunknown, itemAt_leaf h]
  dsimp only
  rw [bind_of_ok (nodeAt_eq h)]
  dsimp only
  rw [bind_of_ok (scalar_eq h)]
  rfl

/-- A mapping that is not known yet. -/
theorem item_of_branch (hunknown : s.items[number]? = some none)
    (h : IsBranch s.nodes number entries) :
    item number s = .ok (itemAt s.nodes number) { s with
      queue := s.queue.push number
      items := s.items.setIfInBounds number (some (itemAt s.nodes number)) } := by
  unfold item
  rw [bind_of_ok get_eq, hunknown, itemAt_branch h]
  dsimp only
  rw [bind_of_ok (nodeAt_eq h.node_eq)]
  rfl

end

/-! ## The walk -/

/--
How far the walk has come in a graph of texts.

* `known`: what a node has become is right
* `queued`, `nodup`: the queue holds the collections that are known, each once
* `filled`: those before the place are filled, and what they hold has been met
-/
structure Progress (nodes : Array GraphNode) (place : Nat) (s : Valuation) : Prop where
  nodes_eq : s.nodes = nodes
  size_items : s.items.size = nodes.size
  size_holdings : s.holdings.size = nodes.size
  known : ∀ number it, s.items[number]? = some (some it) → it = itemAt nodes number
  queued : ∀ number, number ∈ s.queue ↔ s.items[number]? = some (some (.collection number))
  nodup : s.queue.toList.Nodup
  place_le : place ≤ s.queue.size
  filled : ∀ p < place, ∀ number entries, s.queue[p]? = some number →
    IsBranch nodes number entries →
    s.holdings[number]? = some (some (.map (heldAt nodes (keptAt nodes entries)))) ∧
      ∀ e ∈ entries, itemAt nodes e.2 = .collection e.2 → e.2 ∈ s.queue

/-- The queue of a later state starts as it did. -/
def Later (s s' : Valuation) : Prop :=
  ∀ p number : Nat, s.queue[p]? = some number → s'.queue[p]? = some number

theorem Later.refl (s : Valuation) : Later s s := fun _ _ h => h

theorem Later.trans {s₁ s₂ s₃ : Valuation} (h : Later s₁ s₂) (h' : Later s₂ s₃) : Later s₁ s₃ :=
  fun p number hp => h' p number (h p number hp)

theorem Later.mem {s s' : Valuation} (h : Later s s') {number : Nat} (hmem : number ∈ s.queue) :
    number ∈ s'.queue := by
  obtain ⟨p, hp⟩ := Array.mem_iff_getElem?.1 hmem
  exact Array.mem_iff_getElem?.2 ⟨p, h p number hp⟩

theorem later_push (s : Valuation) (number : Nat) (items : Array (Option Item)) :
    Later s { s with queue := s.queue.push number, items } := by
  intro p m hp
  have hlt : p < s.queue.size := (Array.getElem?_eq_some_iff.1 hp).1
  change (s.queue.push number)[p]? = some m
  rw [Array.getElem?_push, if_neg (Nat.ne_of_lt hlt), hp]

section

variable {nodes : Array GraphNode} {place number : Nat} {s : Valuation}
  {entries : List (Nat × Nat)}

/-- The items when a node has become known. -/
theorem getElem?_learned (hs : Progress nodes place s) (hnumber : number < nodes.size) (it : Item)
    (m : Nat) : (s.items.setIfInBounds number (some it))[m]?
      = if number = m then some (some it) else s.items[m]? := by
  rw [← hs.size_items] at hnumber
  rw [Array.getElem?_setIfInBounds, if_pos hnumber]

theorem Progress.known_learned (hs : Progress nodes place s) (hnumber : number < nodes.size)
    (m : Nat) (it : Item) (h : (s.items.setIfInBounds number (some (itemAt nodes number)))[m]?
      = some (some it)) : it = itemAt nodes m := by
  rw [getElem?_learned hs hnumber] at h
  split at h
  · next heq =>
    subst heq
    cases h
    rfl
  · exact hs.known m it h

/-- A text becomes known. -/
theorem Progress.text {text : String} (hs : Progress nodes place s)
    (hfresh : number ∉ s.queue) (hnumber : number < nodes.size)
    (h : nodes[number]? = some ⟨.text, .scalar text⟩) :
    Progress nodes place { s with
      items := s.items.setIfInBounds number (some (itemAt nodes number)) } := by
  refine { hs with size_items := ?_, known := hs.known_learned hnumber, queued := fun m => ?_ }
  · rw [Array.size_setIfInBounds, hs.size_items]
  · rw [getElem?_learned hs hnumber, itemAt_leaf h]
    split
    · next heq =>
      subst heq
      exact ⟨fun hm => absurd hm hfresh, fun hm => (nomatch hm)⟩
    · exact hs.queued m

/-- A collection becomes known and joins the queue. -/
theorem Progress.collection (hs : Progress nodes place s) (hfresh : number ∉ s.queue)
    (hnumber : number < nodes.size) (h : IsBranch nodes number entries) :
    Progress nodes place { s with
      queue := s.queue.push number
      items := s.items.setIfInBounds number (some (itemAt nodes number)) } := by
  refine { hs with
    size_items := ?_, known := hs.known_learned hnumber, queued := fun m => ?_, nodup := ?_
    place_le := ?_, filled := fun p hp m es hm hes => ?_ }
  · rw [Array.size_setIfInBounds, hs.size_items]
  · rw [getElem?_learned hs hnumber, itemAt_branch h, Array.mem_push]
    split
    · next heq =>
      subst heq
      exact ⟨fun _ => rfl, fun _ => Or.inr rfl⟩
    · next hne =>
      rw [or_iff_left (Ne.symm hne)]
      exact hs.queued m
  · rw [Array.toList_push, List.nodup_append]
    refine ⟨hs.nodup, List.nodup_singleton _, fun a ha b hb => ?_⟩
    rw [List.mem_singleton.1 hb]
    rintro rfl
    exact hfresh (Array.mem_def.2 ha)
  · rw [Array.size_push]
    exact Nat.le_succ_of_le hs.place_le
  · have hold : s.queue[p]? = some m := by
      have hlt : p < s.queue.size := Nat.lt_of_lt_of_le hp hs.place_le
      rw [Array.getElem?_push, if_neg (Nat.ne_of_lt hlt)] at hm
      exact hm
    obtain ⟨hheld, hmet⟩ := hs.filled p hp m es hold hes
    exact ⟨hheld, fun e he hcollection => Array.mem_push.2 (Or.inl (hmet e he hcollection))⟩

/-- What a node becomes is read off the graph, and a collection is met. -/
theorem item_eq (hnodes : OfTexts nodes) (hs : Progress nodes place s)
    (hnumber : number < nodes.size) :
    ∃ s', item number s = .ok (itemAt nodes number) s' ∧ Progress nodes place s' ∧ Later s s' ∧
      (itemAt nodes number = .collection number → number ∈ s'.queue) := by
  obtain rfl := hs.nodes_eq
  have hsome : ∃ it?, s.items[number]? = some it? := by
    rw [← hs.size_items] at hnumber
    exact ⟨_, Array.getElem?_eq_getElem hnumber⟩
  obtain ⟨_ | it, hitem⟩ := hsome
  · have hfresh : number ∉ s.queue := fun hmem => by
      rw [hs.queued, hitem] at hmem
      cases hmem
    rcases hnodes number hnumber with ⟨text, hleaf⟩ | ⟨entries, hbranch⟩
    · refine ⟨_, item_of_leaf hitem hleaf, hs.text hfresh hnumber hleaf, fun _ _ h => h,
        fun hcollection => ?_⟩
      rw [itemAt_leaf hleaf] at hcollection
      cases hcollection
    · exact ⟨_, item_of_branch hitem hbranch, hs.collection hfresh hnumber hbranch,
        later_push s number _, fun _ => Array.mem_push.2 (Or.inr rfl)⟩
  · obtain rfl := hs.known number it hitem
    refine ⟨s, item_of_known hitem, hs, Later.refl s, fun hcollection => ?_⟩
    rw [hs.queued, hitem, hcollection]

/-- What a mapping holds is read off the graph, and the collections in it are met. -/
theorem mapM_entries_eq (hnodes : OfTexts nodes) (hs : Progress nodes place s)
    (hkeys : ∀ e ∈ entries, IsLeaf nodes e.1) (hvalues : ∀ e ∈ entries, e.2 < nodes.size) :
    ∃ s', (entries.mapM fun (k, v) => (return (← key k, ← item v) : Evaluate (OwnKey × Item))) s
        = .ok (heldAt nodes entries) s' ∧ Progress nodes place s' ∧ Later s s' ∧
      ∀ e ∈ entries, itemAt nodes e.2 = .collection e.2 → e.2 ∈ s'.queue := by
  induction entries generalizing s with
  | nil => exact ⟨s, rfl, hs, Later.refl s, fun e he => (nomatch he)⟩
  | cons e rest ih =>
    obtain ⟨k, v⟩ := e
    rw [List.forall_mem_cons] at hkeys hvalues
    obtain ⟨text, hleaf⟩ := hkeys.1
    have hk : k < nodes.size := (Array.getElem?_eq_some_iff.1 hleaf).1
    obtain ⟨s₁, hkey, hs₁, hlater₁, -⟩ := item_eq hnodes hs hk
    obtain ⟨s₂, hvalue, hs₂, hlater₂, hmet⟩ := item_eq hnodes hs₁ hvalues.1
    obtain ⟨s₃, hrest, hs₃, hlater₃, hmetRest⟩ := ih hs₂ hkeys.2 hvalues.2
    have hownKey : key k s = .ok (ownKeyAt nodes k) s₁ := by
      rw [key, bind_of_ok hkey, itemAt_leaf hleaf, ownKeyAt_leaf hleaf]
      rfl
    refine ⟨s₃, ?_, hs₃, hlater₁.trans (hlater₂.trans hlater₃), ?_⟩
    · rw [List.mapM_cons]
      have hfirst : (do return (← key k, ← item v) : Evaluate (OwnKey × Item)) s
          = .ok (ownKeyAt nodes k, itemAt nodes v) s₂ := by
        rw [bind_of_ok hownKey, bind_of_ok hvalue]
        rfl
      exact (bind_of_ok hfirst).trans ((bind_of_ok hrest).trans rfl)
    · rw [List.forall_mem_cons]
      exact ⟨fun hcollection => hlater₃.mem (hmet hcollection), hmetRest⟩

/-- A mapping of the graph is filled with what is read off the graph. -/
theorem holding_eq (hnodes : OfTexts nodes) (hs : Progress nodes place s)
    (h : IsBranch nodes number entries) :
    ∃ s', holding number s = .ok (.map (heldAt nodes (keptAt nodes entries))) s' ∧
      Progress nodes place s' ∧ Later s s' ∧
      ∀ e ∈ entries, itemAt nodes e.2 = .collection e.2 → e.2 ∈ s'.queue := by
  obtain rfl := hs.nodes_eq
  obtain ⟨s', hentries, hs', hlater, hmet⟩ := mapM_entries_eq hnodes hs h.keys h.values
  refine ⟨s', ?_, hs', hlater, hmet⟩
  have hcount : ∃ n, entryCount s = .ok n s := ⟨_, rfl⟩
  obtain ⟨n, hn⟩ := hcount
  have hread : Evaluate.entries number s = .ok (heldAt s.nodes entries) s' := by
    rw [Evaluate.entries, bind_of_ok hn, bind_of_ok (flatten_eq h _), bind_of_ok (entriesOf_eq h)]
    exact hentries
  rw [holding, bind_of_ok (nodeAt_eq h.node_eq)]
  dsimp only
  rw [bind_of_ok hread, collectBy_heldAt]
  rfl

/-- The collection at the place is filled. -/
theorem Progress.fill (hs : Progress nodes place s) (hplace : s.queue[place]? = some number)
    (h : IsBranch nodes number entries)
    (hmet : ∀ e ∈ entries, itemAt nodes e.2 = .collection e.2 → e.2 ∈ s.queue) :
    Progress nodes (place + 1) { s with
      holdings := s.holdings.setIfInBounds number
        (some (.map (heldAt nodes (keptAt nodes entries)))) } := by
  have hnumber : number < s.holdings.size := by
    rw [hs.size_holdings]
    exact (Array.getElem?_eq_some_iff.1 h.node_eq).1
  refine { hs with
    size_holdings := ?_, place_le := (Array.getElem?_eq_some_iff.1 hplace).1
    filled := fun p hp m es hm hes => ?_ }
  · rw [Array.size_setIfInBounds, hs.size_holdings]
  · change (s.holdings.setIfInBounds number _)[m]? = _ ∧ _
    rw [Array.getElem?_setIfInBounds, if_pos hnumber]
    by_cases heq : number = m
    · subst heq
      have hentries : es = entries := by
        have hnode := hes.node_eq
        rw [h.node_eq] at hnode
        cases hnode
        rfl
      subst hentries
      exact ⟨if_pos rfl, hmet⟩
    · have hlt : p < place := by
        refine Nat.lt_of_le_of_ne (Nat.le_of_lt_succ hp) ?_
        rintro rfl
        rw [hplace] at hm
        exact heq (Option.some.inj hm)
      rw [if_neg heq]
      exact hs.filled p hlt m es hm hes

/-- There are no more collections than nodes. -/
theorem Progress.size_queue_le (hs : Progress nodes place s) : s.queue.size ≤ nodes.size := by
  have hsubset : s.queue.toList ⊆ List.range nodes.size := by
    intro number hmem
    have hitem := (hs.queued number).1 (Array.mem_def.2 hmem)
    rw [List.mem_range, ← hs.size_items]
    exact (Array.getElem?_eq_some_iff.1 hitem).1
  have hle := (List.subperm_of_subset hs.nodup hsubset).length_le
  rwa [Array.length_toList, List.length_range] at hle

/-- A collection that is known is a mapping. -/
theorem Progress.exists_isBranch (hnodes : OfTexts nodes) (hs : Progress nodes place s)
    (hmem : number ∈ s.queue) : ∃ entries, IsBranch nodes number entries := by
  have hitem := (hs.queued number).1 hmem
  have hnumber := (Array.getElem?_eq_some_iff.1 hitem).1
  rw [hs.size_items] at hnumber
  rcases hnodes number hnumber with ⟨text, hleaf⟩ | hbranch
  · have hknown := hs.known number _ hitem
    rw [itemAt_leaf hleaf] at hknown
    cases hknown
  · exact hbranch

/-- **The walk ends with all collections filled.** -/
theorem fillFrom_progress (hnodes : OfTexts nodes) (fuel : Nat) (hs : Progress nodes place s)
    (hfuel : nodes.size < place + fuel) :
    ∃ s', fillFrom place fuel s = .ok () s' ∧ Progress nodes s'.queue.size s' ∧ Later s s' := by
  induction fuel generalizing place s with
  | zero => exact absurd (Nat.le_trans hs.place_le hs.size_queue_le) (Nat.not_le_of_lt hfuel)
  | succ fuel ih =>
    rw [fillFrom, bind_of_ok get_eq]
    cases hplace : s.queue[place]? with
    | none =>
      have hsize : s.queue.size = place :=
        Nat.le_antisymm (Array.getElem?_eq_none_iff.1 hplace) hs.place_le
      exact ⟨s, rfl, hsize ▸ hs, Later.refl s⟩
    | some number =>
      obtain ⟨entries, hbranch⟩ :=
        hs.exists_isBranch hnodes (Array.mem_iff_getElem?.2 ⟨place, hplace⟩)
      obtain ⟨s₁, hholding, hs₁, hlater₁, hmet⟩ := holding_eq hnodes hs hbranch
      obtain ⟨s₂, hrest, hs₂, hlater₂⟩ :=
        ih (hs₁.fill (hlater₁ place number hplace) hbranch hmet) (by omega)
      dsimp only
      rw [bind_of_ok hholding]
      exact ⟨s₂, hrest, hs₂, hlater₁.trans hlater₂⟩

/-- The state before the walk. -/
theorem progress_start (nodes : Array GraphNode) :
    Progress nodes 0 { nodes, items := Array.replicate nodes.size none
                       holdings := Array.replicate nodes.size none } where
  nodes_eq := rfl
  size_items := Array.size_replicate
  size_holdings := Array.size_replicate
  known number it h := by
    rw [Array.getElem?_replicate] at h
    split at h <;> cases h
  queued number := by
    rw [Array.getElem?_replicate]
    refine ⟨fun h => absurd h (Array.not_mem_empty _), fun h => ?_⟩
    split at h <;> cases h
  nodup := List.nodup_nil
  place_le := Nat.zero_le _
  filled p hp := absurd hp (Nat.not_lt_zero p)

/-- What the outermost node becomes, and where the walk from it ends. -/
theorem outermost_eq (hnodes : OfTexts nodes) (hnumber : number < nodes.size) :
    ∃ s', outermost number { nodes, items := Array.replicate nodes.size none
                             holdings := Array.replicate nodes.size none }
        = .ok (itemAt nodes number) s' ∧ Progress nodes s'.queue.size s' ∧
      (itemAt nodes number = .collection number → number ∈ s'.queue) := by
  obtain ⟨s₁, hitem, hs₁, -, hmet⟩ := item_eq hnodes (progress_start nodes) hnumber
  obtain ⟨s₂, hfill, hs₂, hlater⟩ := fillFrom_progress hnodes (nodes.size + 1) hs₁ (by omega)
  refine ⟨s₂, ?_, hs₂, fun hcollection => hlater.mem (hmet hcollection)⟩
  rw [outermost, bind_of_ok hitem, bind_of_ok get_eq, hs₁.nodes_eq, bind_of_ok hfill]
  rfl

end

end Evaluate

end Phrasebook.Yaml
