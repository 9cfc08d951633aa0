import Phrasebook.Proofs.Escapes

/-!
# The strict way to make trees

The strict way takes texts and trees under texts. It takes a row of entries exactly if it takes each
of them, and else it complains about the first one that does not fit, looking at the key before the
child (`ofEntries_eq_error_iff`).

Normalization makes its branches without looking. `Value.normalizeStrictly` is normalization that
makes every branch in the strict way instead, and the two are one function
(`normalizeStrictly_eq`): whatever normalization puts into a branch fits.
-/

namespace Phrasebook

/-! ## What fits -/

/-- Whether a key is a text, and the child under it a text or a tree. -/
def Fits (e : Key × Value) : Prop :=
  (∃ name, e.1 = Key.ofString name) ∧
    ((∃ text, e.2 = Value.ofString text) ∨ ∃ t, e.2 = Value.tree t)

/--
The complaint about an entry that does not fit.

* `key`: its key is no text, whatever its child is
* `child`: its key is a text, and its child is neither a text nor a tree
-/
inductive Complains : Key × Value → Fault → Prop
  | key {k : Key} (v : Value) (h : ∀ name, k ≠ Key.ofString name) : Complains (k, v) (keyFault k)
  | child (name : String) {v : Value} (htext : ∀ text, v ≠ Value.ofString text)
    (htree : ∀ t, v ≠ Value.tree t) : Complains (Key.ofString name, v) (childFault name v)

theorem Complains.not_fits {e : Key × Value} {f : Fault} (h : Complains e f) : ¬Fits e := by
  rintro ⟨⟨name, hname⟩, hchild⟩
  cases h with
  | key v hkey => exact hkey name hname
  | child _ htext htree =>
    rcases hchild with ⟨text, heq⟩ | ⟨t, heq⟩
    · exact htext text heq
    · exact htree t heq

/-- An entry is taken, or there is a complaint about it. -/
theorem strictEntry_cases (e : Key × Value) :
    (Fits e ∧ ∃ c, strictEntry e = .ok c) ∨ ∃ f, Complains e f ∧ strictEntry e = .error f := by
  unfold strictEntry
  split
  · next name text => exact Or.inl ⟨⟨⟨name, rfl⟩, Or.inl ⟨text, rfl⟩⟩, _, rfl⟩
  · next name t => exact Or.inl ⟨⟨⟨name, rfl⟩, Or.inr ⟨t, rfl⟩⟩, _, rfl⟩
  · next name v htext htree => exact Or.inr ⟨_, .child name htext htree, rfl⟩
  · next k v _ _ hkey => exact Or.inr ⟨_, .key v hkey, rfl⟩

theorem strictEntry_eq_error_iff {e : Key × Value} {f : Fault} :
    strictEntry e = .error f ↔ Complains e f := by
  rcases strictEntry_cases e with ⟨hfits, c, hc⟩ | ⟨g, hg, herror⟩
  · rw [hc]
    constructor
    · intro h
      cases h
    · intro h
      exact absurd hfits h.not_fits
  · rw [herror, Except.error.injEq]
    constructor
    · rintro rfl
      exact hg
    · intro h
      -- the entry itself settles which of its two complaints there is
      cases hg with
      | key v hkey =>
        cases h with
        | key => rfl
        | child name => exact absurd rfl (hkey name)
      | child name =>
        cases h with
        | key _ hkey => exact absurd rfl (hkey name)
        | child => rfl

theorem strictEntry_of_fits {e : Key × Value} (h : Fits e) : ∃ c, strictEntry e = .ok c := by
  rcases strictEntry_cases e with ⟨-, hc⟩ | ⟨f, hf, -⟩
  · exact hc
  · exact absurd h hf.not_fits

/-! ## Rows of entries -/

/-- A complaint about the first entry of a row that does not fit. -/
def ComplainsFirst (entries : List (Key × Value)) (f : Fault) : Prop :=
  ∃ before e after, entries = before ++ e :: after ∧ (∀ d ∈ before, Fits d) ∧ Complains e f

theorem strictEntries_of_fits {entries : List (Key × Value)} (h : ∀ e ∈ entries, Fits e) :
    ∃ es, strictEntries entries = .ok es := by
  induction entries with
  | nil => exact ⟨[], rfl⟩
  | cons e rest ih =>
    obtain ⟨c, hc⟩ := strictEntry_of_fits (h e List.mem_cons_self)
    obtain ⟨es, hes⟩ := ih fun d hd => h d (List.mem_cons_of_mem e hd)
    refine ⟨c :: es, ?_⟩
    rw [strictEntries, hc, hes]
    rfl

/-- A row is taken up to the first entry that does not fit. -/
theorem strictEntries_of_complains {before after : List (Key × Value)} {e : Key × Value}
    {f : Fault} (hbefore : ∀ d ∈ before, Fits d) (he : Complains e f) :
    strictEntries (before ++ e :: after) = .error f := by
  induction before with
  | nil =>
    rw [List.nil_append, strictEntries, strictEntry_eq_error_iff.2 he]
    rfl
  | cons d rest ih =>
    obtain ⟨c, hc⟩ := strictEntry_of_fits (hbefore d List.mem_cons_self)
    rw [List.cons_append, strictEntries, hc,
      ih fun x hx => hbefore x (List.mem_cons_of_mem d hx)]
    rfl

/-- All entries of a row fit, or there is a first one that does not. -/
theorem fits_or_complainsFirst (entries : List (Key × Value)) :
    (∀ e ∈ entries, Fits e) ∨ ∃ f, ComplainsFirst entries f := by
  induction entries with
  | nil => exact Or.inl (List.forall_mem_nil _)
  | cons e rest ih =>
    rcases strictEntry_cases e with ⟨hfits, -⟩ | ⟨f, hf, -⟩
    · rcases ih with hrest | ⟨f, before, d, after, rfl, hbefore, hd⟩
      · exact Or.inl (List.forall_mem_cons.2 ⟨hfits, hrest⟩)
      · exact Or.inr ⟨f, e :: before, d, after, rfl,
          List.forall_mem_cons.2 ⟨hfits, hbefore⟩, hd⟩
    · exact Or.inr ⟨f, [], e, rest, rfl, List.forall_mem_nil _, hf⟩

theorem ofEntries_of_complainsFirst {entries : List (Key × Value)} {f : Fault}
    (h : ComplainsFirst entries f) : Tree.ofEntries entries = .error f := by
  obtain ⟨before, e, after, rfl, hbefore, he⟩ := h
  rw [Tree.ofEntries, strictEntries_of_complains hbefore he]
  rfl

theorem ofEntries_of_fits {entries : List (Key × Value)} (h : ∀ e ∈ entries, Fits e) :
    ∃ t, Tree.ofEntries entries = .ok t := by
  obtain ⟨es, hes⟩ := strictEntries_of_fits h
  refine ⟨.ofParts es, ?_⟩
  rw [Tree.ofEntries, hes]
  rfl

/-- **A row of entries makes a tree exactly if each of them fits.** -/
theorem exists_ofEntries_iff {entries : List (Key × Value)} :
    (∃ t, Tree.ofEntries entries = .ok t) ↔ ∀ e ∈ entries, Fits e := by
  refine ⟨?_, ofEntries_of_fits⟩
  rintro ⟨t, ht⟩
  rcases fits_or_complainsFirst entries with hfits | ⟨f, hf⟩
  · exact hfits
  · rw [ofEntries_of_complainsFirst hf] at ht
    cases ht

/-- **Else the complaint is about the first one that does not.** -/
theorem ofEntries_eq_error_iff {entries : List (Key × Value)} {f : Fault} :
    Tree.ofEntries entries = .error f ↔ ComplainsFirst entries f := by
  refine ⟨fun herror => ?_, ofEntries_of_complainsFirst⟩
  rcases fits_or_complainsFirst entries with hfits | ⟨g, hg⟩
  · obtain ⟨t, ht⟩ := ofEntries_of_fits hfits
    rw [ht] at herror
    cases herror
  · rw [ofEntries_of_complainsFirst hg, Except.error.injEq] at herror
    rwa [← herror]

/-! ## Normalizing strictly -/

/-- The entries that parts under names are: texts and trees under texts. -/
def asEntries (parts : List (String × Part)) : List (Key × Value) :=
  parts.map fun c => (Key.ofString c.1, c.2.value)

/-- The tree that the strict way makes of parts. -/
def strictBranch (parts : List (String × Part)) : Except Fault Part := do
  return .tree (← Tree.ofEntries (asEntries (collectEntries parts)))

theorem strictEntry_value (name : String) (part : Part) :
    strictEntry (Key.ofString name, part.value) = .ok (name, part) := by
  cases part with
  | text s => rfl
  | tree t => rfl

/-- The strict way takes whatever parts lie under texts. -/
theorem strictEntries_asEntries (parts : List (String × Part)) :
    strictEntries (asEntries parts) = .ok parts := by
  induction parts with
  | nil => rfl
  | cons c rest ih =>
    rw [asEntries, List.map_cons, strictEntries, strictEntry_value]
    show (do return (c.1, c.2) :: (← strictEntries (asEntries rest))) = _
    rw [ih]
    rfl

theorem ofEntries_asEntries (parts : List (String × Part)) :
    Tree.ofEntries (asEntries (collectEntries parts)) = .ok (.ofParts parts) := by
  rw [Tree.ofEntries, strictEntries_asEntries]
  show Except.ok (Tree.ofParts (collectEntries parts)) = _
  rw [ofParts_collectEntries]

@[simp]
theorem strictBranch_eq (parts : List (String × Part)) :
    strictBranch parts = .ok (.tree (.ofParts parts)) := by
  rw [strictBranch, ofEntries_asEntries]
  rfl

mutual

/-- A node made anew, its branches in the strict way. -/
def Node.rebuildStrictly : Node → Except Fault Part
  | .leaf text => .ok (.text text)
  | .branch children => do strictBranch (← Node.rebuildAllStrictly children)

/-- Children made anew. -/
def Node.rebuildAllStrictly : List (String × Node) → Except Fault (List (String × Part))
  | [] => .ok []
  | (name, n) :: rest => do
    let part ← n.rebuildStrictly
    return (name, part) :: (← Node.rebuildAllStrictly rest)

end

mutual

/-- What a value becomes, its branches made in the strict way. -/
def Value.normalizeStrictly : Value → Except Fault Part
  | .scalar s => do return .text (← (Value.scalar s).text)
  | .list items => do strictBranch (← Value.normalizeItemsStrictly 0 items)
  | .tuple items => do strictBranch (← Value.normalizeItemsStrictly 0 items)
  | .map entries => do strictBranch (← Value.normalizeEntriesStrictly entries)
  | .set members => do return .text (← (Value.set members).text)
  | .tree t => t.node.rebuildStrictly
  | .enclosing _ _ => .error recursionFault

/-- What the items of a row become, under the numbers of their places. -/
def Value.normalizeItemsStrictly (place : Nat) :
    List Value → Except Fault (List (String × Part))
  | [] => .ok []
  | v :: rest => do
    let part ← v.normalizeStrictly
    return (Nat.repr place, part) :: (← Value.normalizeItemsStrictly (place + 1) rest)

/-- What the values of a mapping become, under the segments of its keys. -/
def Value.normalizeEntriesStrictly :
    List (Key × Value) → Except Fault (List (String × Part))
  | [] => .ok []
  | (key, v) :: rest => do
    let segment ← key.segment
    let part ← v.normalizeStrictly
    return (segment, part) :: (← Value.normalizeEntriesStrictly rest)

end

/-- The tree of a value, its root and all branches below made in the strict way. -/
def Tree.buildStrictly : Value → Except Fault Tree
  | .scalar .null => Tree.ofEntries []
  | .map entries => do
    Tree.ofEntries (asEntries (collectEntries (← Value.normalizeEntriesStrictly entries)))
  | .tree t => do
    Tree.ofEntries (asEntries (collectEntries (← Node.rebuildAllStrictly t.children)))
  | .enclosing _ _ => .error recursionFault
  | v => .error (rootFault v)

mutual

theorem rebuildStrictly_eq : ∀ {n : Node} (h : n.WellKeyed), n.rebuildStrictly = .ok (n.part h)
  | .leaf _, _ => rfl
  | .branch children, h => by
    obtain ⟨parts, hparts, hnodes⟩ := exists_rebuildAllStrictly h.2
    rw [Node.rebuildStrictly, hparts]
    show strictBranch parts = .ok (.tree ⟨children, h⟩)
    rw [strictBranch_eq, ofParts_of_nodes (t := ⟨children, h⟩) hnodes]

theorem exists_rebuildAllStrictly : ∀ {children : List (String × Node)},
    Node.AllWellKeyed children →
    ∃ parts, Node.rebuildAllStrictly children = .ok parts ∧ Part.nodes parts = children
  | [], _ => ⟨[], rfl, rfl⟩
  | (name, n) :: rest, h => by
    obtain ⟨parts, hparts, hnodes⟩ := exists_rebuildAllStrictly h.2
    refine ⟨(name, n.part h.1) :: parts, ?_, Part.nodes_cons_part hnodes name h.1⟩
    rw [Node.rebuildAllStrictly, rebuildStrictly_eq h.1, hparts]
    rfl

end

mutual

/-- **Whatever normalization puts into a branch, the strict way takes.** -/
theorem normalizeStrictly_eq : ∀ v : Value, v.normalizeStrictly = v.normalize
  | .scalar _ => rfl
  | .list items => by
    rw [Value.normalizeStrictly, Value.normalize, normalizeItemsStrictly_eq items 0]
    cases Value.normalizeItems 0 items with
    | error f => rfl
    | ok es => exact strictBranch_eq es
  | .tuple items => by
    rw [Value.normalizeStrictly, Value.normalize, normalizeItemsStrictly_eq items 0]
    cases Value.normalizeItems 0 items with
    | error f => rfl
    | ok es => exact strictBranch_eq es
  | .map entries => by
    rw [Value.normalizeStrictly, Value.normalize, normalizeEntriesStrictly_eq entries]
    cases Value.normalizeEntries entries with
    | error f => rfl
    | ok es => exact strictBranch_eq es
  | .set _ => rfl
  | .tree t => rebuildStrictly_eq t.wellKeyed
  | .enclosing _ _ => rfl

theorem normalizeItemsStrictly_eq : ∀ (items : List Value) (place : Nat),
    Value.normalizeItemsStrictly place items = Value.normalizeItems place items
  | [], _ => rfl
  | v :: rest, place => by
    rw [Value.normalizeItemsStrictly, Value.normalizeItems, normalizeStrictly_eq v,
      normalizeItemsStrictly_eq rest (place + 1)]

theorem normalizeEntriesStrictly_eq : ∀ entries : List (Key × Value),
    Value.normalizeEntriesStrictly entries = Value.normalizeEntries entries
  | [] => rfl
  | (key, v) :: rest => by
    rw [Value.normalizeEntriesStrictly, Value.normalizeEntries, normalizeStrictly_eq v,
      normalizeEntriesStrictly_eq rest]

end

theorem buildStrictly_eq (v : Value) : Tree.buildStrictly v = Tree.build v := by
  unfold Tree.buildStrictly
  split
  · rfl
  · next entries =>
    rw [normalizeEntriesStrictly_eq entries, Tree.build]
    cases Value.normalizeEntries entries with
    | error f => rfl
    | ok es => exact ofEntries_asEntries es
  · next t =>
    obtain ⟨parts, hparts, hnodes⟩ := exists_rebuildAllStrictly t.wellKeyed.2
    rw [hparts]
    show Tree.ofEntries (asEntries (collectEntries parts)) = .ok t
    rw [ofEntries_asEntries, ofParts_of_nodes hnodes]
  · rfl
  · next hnull hmap htree henclosing =>
    unfold Tree.build
    split
    · exact absurd rfl hnull
    · next entries => exact absurd rfl (hmap entries)
    · next t => exact absurd rfl (htree t)
    · next shape n => exact absurd rfl (henclosing shape n)
    · rfl

/-! ## Where the complaints do not come up -/

/-- A complaint of the strict way is a value of the wrong type, and starts with a capital. -/
theorem Complains.message {e : Key × Value} {f : Fault} (h : Complains e f) :
    ∃ message, f = .mishap (.wrongType message) ∧
      (message.toList.head? = some 'T' ∨ message.toList.head? = some 'U') := by
  cases h with
  | key => exact ⟨_, rfl, Or.inl (by simp [String.toList_append])⟩
  | child => exact ⟨_, rfl, Or.inr (by simp [String.toList_append])⟩

/-- A value without a tree has none for another reason. -/
theorem not_complains_of_build {v : Value} {f : Fault} (h : Tree.build v = .error f)
    (e : Key × Value) : ¬Complains e f := by
  intro hcomplains
  obtain ⟨message, rfl, -⟩ := hcomplains.message
  rcases build_fails h with ⟨hf, -⟩ | ⟨hf, -⟩ | ⟨hf, -⟩
  · cases hf
  · cases hf
  · cases hf

/-- A document without a tree has none for another reason. -/
theorem not_complains_of_document {d : Document} {f : Fault} (h : d.tree = .error f)
    (e : Key × Value) : ¬Complains e f := by
  intro hcomplains
  obtain ⟨message, rfl, hhead⟩ := hcomplains.message
  have houtcome := d.outcome_tree
  rw [h] at houtcome
  cases houtcome with
  | offence _ hcomplaint =>
    cases hcomplaint with
    | timestamp => exact absurd hhead (by decide)

end Phrasebook
