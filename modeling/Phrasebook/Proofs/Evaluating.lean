import Phrasebook.Proofs.Building
import Phrasebook.Yaml.NodeValue

/-!
# Mishaps of values

Where a graph becomes a value, something other than a mistake can go wrong in three ways: the text
of a scalar stands for nothing under its tag, a mapping is said to be a timestamp, or the text of a
mapping is looked for under its value key without end (`Misfit`).

Nodes change on the way, but not much: value keys become texts, and mappings get other entries
(`Renamed`). So each misfit is one of the document as it is written.
-/

namespace Phrasebook.Yaml

/-! ## Scalars that stand for nothing -/

/-- A sequence has a mishap in its first part or after it. -/
theorem bind_eq_mishap {α β : Type} {x : Except Problem α} {f : α → Except Problem β}
    {m : Mishap} (h : (x >>= f) = .error (.mishap m)) :
    x = .error (.mishap m) ∨ ∃ a, x = .ok a ∧ f a = .error (.mishap m) := by
  cases x with
  | error p =>
    cases h
    exact Or.inl rfl
  | ok a => exact Or.inr ⟨a, rfl, h⟩

namespace Typed

/-- A mishap that a text may bring about under a tag. -/
inductive Complaint : Tag → Mishap → Prop where
  | noTruthWord (word : String) : Complaint .bool (.noEntry (Text.quote word))
  | noInt : Complaint .int .noSuchValue
  | noIntDigits : Complaint .int .noCharacter
  | noFloat : Complaint .float .noSuchValue
  | noFloatDigits : Complaint .float .noCharacter
  | tooManySixtieths : Complaint .float .outOfRange
  | noDay : Complaint .timestamp .noSuchValue
  | noTimestampForm : Complaint .timestamp .noForm

variable {text : String} {m : Mishap}

theorem map_eq_mishap {α β : Type} {x : Except Problem α} {f : α → β}
    (h : f <$> x = .error (.mishap m)) : x = .error (.mishap m) := by
  cases x with
  | error p =>
    cases h
    rfl
  | ok a => cases h

theorem orNoValue_mishap {α : Type} {x : Option α} (h : orNoValue x = .error (.mishap m)) :
    m = .noSuchValue := by
  cases x with
  | none =>
    cases h
    rfl
  | some a => cases h

theorem truth_mishap (h : truth text = .error (.mishap m)) : Complaint .bool m := by
  unfold truth at h
  dsimp only at h
  split at h
  · cases h
  · cases h
    exact .noTruthWord _

theorem unsignedInt_mishap {s : List Char} (h : unsignedInt s = .error (.mishap m)) :
    Complaint .int m := by
  have hnoValue : ∀ {x : Option Int}, orNoValue x = .error (.mishap m) → Complaint .int m := by
    intro x hx
    rw [orNoValue_mishap hx]
    exact .noInt
  unfold unsignedInt at h
  split at h
  · cases h
    exact .noIntDigits
  · exact hnoValue h
  · exact hnoValue h
  · exact hnoValue h
  · split at h
    · rcases bind_eq_mishap h with hparts | ⟨parts, -, hreturn⟩
      · rw [orNoValue_mishap hparts]
        exact .noInt
      · cases hreturn
    · exact hnoValue h

theorem int_mishap (h : int text = .error (.mishap m)) : Complaint .int m := by
  unfold int at h
  split at h
  · cases h
    exact .noIntDigits
  · rcases bind_eq_mishap h with hint | ⟨n, -, hreturn⟩
    · exact unsignedInt_mishap hint
    · cases hreturn

theorem sumSixtieths_mishap {power : Nat} {total : Float} {parts : List Float}
    (h : sumSixtieths power total parts = .error (.mishap m)) : Complaint .float m := by
  induction parts generalizing power total with
  | nil => cases h
  | cons part more ih =>
    rw [sumSixtieths] at h
    split at h
    · exact ih h
    · cases h
      exact .tooManySixtieths

theorem unsignedFloat_mishap {s : List Char} (h : unsignedFloat s = .error (.mishap m)) :
    Complaint .float m := by
  unfold unsignedFloat at h
  split at h
  · cases h
  · split at h
    · cases h
    · split at h
      · rcases bind_eq_mishap h with hparts | ⟨parts, -, hsum⟩
        · rw [orNoValue_mishap hparts]
          exact .noFloat
        · exact sumSixtieths_mishap hsum
      · rw [orNoValue_mishap h]
        exact .noFloat

theorem float_mishap (h : float text = .error (.mishap m)) : Complaint .float m := by
  unfold float at h
  split at h
  · cases h
    exact .noFloatDigits
  · rcases bind_eq_mishap h with hfloat | ⟨x, -, hreturn⟩
    · exact unsignedFloat_mishap hfloat
    · cases hreturn

theorem timestamp_mishap (h : timestamp text = .error (.mishap m)) : Complaint .timestamp m := by
  unfold timestamp at h
  split at h
  · rw [orNoValue_mishap h]
    exact .noDay
  · cases h
    exact .noTimestampForm

theorem bytes_ne_mishap : bytes text ≠ .error (.mishap m) := by
  intro h
  unfold bytes at h
  split at h
  · split at h <;> cases h
  · cases h

/-- **Numbers, truth values and timestamps may stand for nothing; texts, bytes and nothing itself
may not.** -/
theorem scalar_mishap {tag : Tag} (h : scalar tag text = .error (.mishap m)) :
    Complaint tag m := by
  cases tag with
  | bool => exact truth_mishap (map_eq_mishap h)
  | int => exact int_mishap (map_eq_mishap h)
  | float => exact float_mishap (map_eq_mishap h)
  | binary => exact absurd (map_eq_mishap h) bytes_ne_mishap
  | timestamp => exact timestamp_mishap h
  | null | text | sequence | mapping | set | orderedMap | pairs | merge | value | other => cases h

end Typed

/-! ## Misfits -/

/-- Whether a node consists of entries. -/
def Content.isMapping : Content → Bool
  | .mapping _ => true
  | _ => false

/-- Whether a node with this tag is made a scalar. A value key becomes a text when its mapping is
filled. -/
def Tag.takesText : Tag → Bool
  | .null | .bool | .int | .float | .binary | .timestamp | .text | .value => true
  | _ => false

/-- A text that a node may be asked for: its own, or as a mapping that of another node. -/
def HasText (nodes : Array GraphNode) (n : GraphNode) (text : String) : Prop :=
  n.content = .scalar text ∨
    n.content.isMapping = true ∧ ∃ other ∈ nodes, other.content = .scalar text

/--
What is wrong with the nodes of a document.

* `scalar`: the text of a node stands for nothing under its tag
* `timestamp`: a mapping has the tag of timestamps
* `endless`: a mapping has the tag of a scalar, whose text is then looked for under value keys
-/
inductive Misfit (nodes : Array GraphNode) : Mishap → Prop where
  | scalar {n : GraphNode} {text : String} {m : Mishap} (hn : n ∈ nodes)
      (htext : HasText nodes n text)
      (h : Typed.scalar n.tag text = .error (.mishap m)) : Misfit nodes m
  | timestamp {n : GraphNode} (hn : n ∈ nodes) (htag : n.tag = .timestamp)
      (hmapping : n.content.isMapping = true) : Misfit nodes Evaluate.timestampMishap
  | endless {n : GraphNode} (hn : n ∈ nodes) (htag : n.tag.takesText = true)
      (hmapping : n.content.isMapping = true) : Misfit nodes .endless

/-! ## Nodes that change -/

/-- What may have become of a node: a value key is a text, and a mapping has other entries. -/
structure Renamed (before now : GraphNode) : Prop where
  tag : now.tag = before.tag ∨ before.tag = .value ∧ now.tag = .text
  content : now.content = before.content ∨
    before.content.isMapping = true ∧ now.content.isMapping = true

theorem Renamed.refl (n : GraphNode) : Renamed n n := ⟨Or.inl rfl, Or.inl rfl⟩

section Renamed

variable {before now : GraphNode}

theorem Renamed.isMapping_eq (h : Renamed before now) :
    now.content.isMapping = before.content.isMapping := by
  rcases h.content with heq | ⟨hbefore, hnow⟩
  · rw [heq]
  · rw [hbefore, hnow]

theorem Renamed.content_eq_scalar (h : Renamed before now) {text : String}
    (htext : now.content = .scalar text) : before.content = .scalar text := by
  rcases h.content with heq | ⟨-, hnow⟩
  · rw [← heq, htext]
  · rw [htext] at hnow
    cases hnow

theorem Renamed.tag_eq_value (h : Renamed before now) (hnow : now.tag = .value) :
    before.tag = .value := by
  rcases h.tag with heq | ⟨hbefore, -⟩
  · rw [← heq, hnow]
  · exact hbefore

/-- A value key becomes a text. -/
theorem Renamed.toText (h : Renamed before now) (htag : before.tag = .value) :
    Renamed before { now with tag := .text } :=
  ⟨Or.inr ⟨htag, rfl⟩, h.content⟩

/-- A mapping gets other entries. -/
theorem Renamed.withEntries (h : Renamed before now) (hmapping : before.content.isMapping = true)
    (entries : List (Nat × Nat)) : Renamed before { now with content := .mapping entries } :=
  ⟨h.tag, Or.inr ⟨hmapping, rfl⟩⟩

/-- A text that stands for nothing under the tag of a node now did so before. -/
theorem Renamed.scalar_mishap (h : Renamed before now) {text : String} {m : Mishap}
    (hm : Typed.scalar now.tag text = .error (.mishap m)) :
    Typed.scalar before.tag text = .error (.mishap m) := by
  rcases h.tag with heq | ⟨-, hnow⟩
  · rwa [← heq]
  · rw [hnow] at hm
    cases hm

end Renamed

namespace Evaluate

/-- The nodes of a state have come from those of a document. -/
def Stems (nodes : Array GraphNode) (s : Valuation) : Prop :=
  ∀ (i : Nat) (now : GraphNode), s.nodes[i]? = some now →
    ∃ before, nodes[i]? = some before ∧ Renamed before now

/-- From the nodes of a document a step fails with a mistake or with a misfit of these. -/
def Faithful {α : Type} (nodes : Array GraphNode) (good : α → Prop) (x : Evaluate α) : Prop :=
  Keeps (Stems nodes) (fun p => p = .malformed ∨ ∃ m, p = .mishap m ∧ Misfit nodes m) good x

/-- The node with a number is a mapping in the document. -/
def IsMapping (nodes : Array GraphNode) (number : Nat) : Prop :=
  ∃ n, nodes[number]? = some n ∧ n.content.isMapping = true

section Faithful

variable {α : Type} {nodes : Array GraphNode} {good : α → Prop}

theorem faithful_malformed : Faithful nodes good (throw .malformed : Evaluate α) :=
  keeps_throw (Or.inl rfl)

theorem faithful_misfit {m : Mishap} (h : Misfit nodes m) :
    Faithful nodes good (throw (.mishap m) : Evaluate α) :=
  keeps_throw (Or.inr ⟨m, rfl, h⟩)

/-- A step that leaves the nodes alone. -/
theorem faithful_modify {f : Valuation → Valuation} (h : ∀ s, (f s).nodes = s.nodes) :
    Faithful nodes (fun _ => True) (modify f) :=
  keeps_modify fun s hs => by rwa [Stems, h]

/-! ### Nodes -/

theorem faithful_nodeAt (number : Nat) : Faithful nodes
    (fun n => ∃ before, nodes[number]? = some before ∧ Renamed before n) (nodeAt number) := by
  refine keeps_bind keeps_get fun s hs => ?_
  split
  · next n hn => exact keeps_pure (hs number n hn)
  · exact faithful_malformed

theorem faithful_entriesOf (number : Nat) :
    Faithful nodes (fun _ => IsMapping nodes number) (entriesOf number) := by
  refine keeps_bind (faithful_nodeAt number) fun n hn => ?_
  obtain ⟨before, hbefore, hrenamed⟩ := hn
  split
  · next hcontent =>
    refine keeps_pure ⟨before, hbefore, ?_⟩
    rw [← hrenamed.isMapping_eq, hcontent]
    rfl
  · exact faithful_malformed

/-- Nodes may change in the ways in which they may have changed. -/
theorem faithful_change {number : Nat} {f : GraphNode → GraphNode}
    (h : ∀ before now, nodes[number]? = some before → Renamed before now →
      Renamed before (f now)) : Faithful nodes (fun _ => True) (change number f) := by
  refine keeps_modify fun s hs i now hnow => ?_
  rw [Array.getElem?_modify] at hnow
  split at hnow
  · next heq =>
    subst heq
    obtain ⟨n, hn, rfl⟩ := Option.map_eq_some_iff.1 hnow
    obtain ⟨before, hbefore, hrenamed⟩ := hs number n hn
    exact ⟨before, hbefore, h before n hbefore hrenamed⟩
  · exact hs i now hnow

theorem faithful_setEntries {number : Nat} (h : IsMapping nodes number)
    (entries : List (Nat × Nat)) : Faithful nodes (fun _ => True)
      (change number fun n => { n with content := .mapping entries }) := by
  obtain ⟨n, hn, hmapping⟩ := h
  refine faithful_change fun before now hbefore hrenamed => ?_
  rw [hbefore, Option.some.injEq] at hn
  exact hrenamed.withEntries (by rwa [hn]) entries

theorem faithful_hasTag (tag : Tag) (number : Nat) : Faithful nodes
    (fun b => b = true → ∃ before now, nodes[number]? = some before ∧ Renamed before now ∧
      now.tag = tag) (hasTag tag number) := by
  refine keeps_bind (faithful_nodeAt number) fun n hn => ?_
  obtain ⟨before, hbefore, hrenamed⟩ := hn
  exact keeps_pure fun htag => ⟨before, n, hbefore, hrenamed, of_decide_eq_true htag⟩

/-! ### Merging -/

theorem faithful_takeTagged? (tag : Tag) (entries : List (Nat × Nat)) :
    Faithful nodes (fun _ => True) (takeTagged? tag entries) := by
  induction entries with
  | nil => exact keeps_pure trivial
  | cons e rest ih =>
    refine keeps_bind (faithful_hasTag tag e.1) fun b _ => ?_
    exact keeps_ite (fun _ => keeps_pure trivial) fun _ =>
      keeps_bind ih fun _ _ => keeps_pure trivial

theorem faithful_renameKeys (entries : List (Nat × Nat)) :
    Faithful nodes (fun _ => True) (renameKeys entries) := by
  refine keeps_forM fun e _ => ?_
  refine keeps_bind (faithful_hasTag .value e.1) fun b hb => ?_
  refine keeps_ite (fun htrue => ?_) fun _ => keeps_pure trivial
  obtain ⟨before, now, hbefore, hrenamed, htag⟩ := hb htrue
  refine faithful_change fun before' now' hbefore' hrenamed' => ?_
  rw [hbefore, Option.some.injEq] at hbefore'
  exact hrenamed'.toText (hbefore' ▸ hrenamed.tag_eq_value htag)

/-- Merging changes nothing but entries and value keys. -/
theorem faithful_flatten_takeMerged (fuel : Nat) :
    (∀ number, Faithful nodes (fun _ => True) (flatten number fuel)) ∧
    ∀ number, Faithful nodes (fun _ => True) (takeMerged number fuel) := by
  -- the two call each other, each with less fuel
  induction fuel with
  | zero => exact ⟨fun _ => faithful_malformed, fun _ => faithful_malformed⟩
  | succ fuel ih =>
    obtain ⟨hflatten, htake⟩ := ih
    constructor
    · intro number
      unfold flatten
      refine keeps_bind (htake number) fun merged _ => ?_
      refine keeps_bind (faithful_entriesOf number) fun own hown => ?_
      exact keeps_bind (faithful_renameKeys own) fun _ _ => faithful_setEntries hown _
    · intro number
      have hflattened : ∀ part, Faithful nodes (fun _ => True) (do
          flatten part fuel
          entriesOf part) := fun part =>
        keeps_bind (hflatten part) fun _ _ =>
          keeps_imp (faithful_entriesOf part) (fun _ hp => hp) fun _ _ => trivial
      have hend : ∀ found, Faithful nodes (fun _ => True) (do
          return found ++ (← takeMerged number fuel)) := fun found =>
        keeps_bind (htake number) fun _ _ => keeps_pure trivial
      unfold takeMerged
      refine keeps_bind (faithful_entriesOf number) fun entries hentries => ?_
      refine keeps_bind (faithful_takeTagged? .merge entries) fun found _ => ?_
      split
      · exact keeps_pure trivial
      · refine keeps_bind (faithful_setEntries hentries _) fun _ _ => ?_
        dsimp only
        refine keeps_bind (faithful_nodeAt _) fun n _ => ?_
        split
        · exact keeps_bind (keeps_mapM fun part _ => hflattened part) fun _ _ => hend _
        · exact keeps_bind (hflattened _) fun _ _ => hend _

/-! ### Scalars -/

theorem faithful_scalarText_of_endless (hendless : Misfit nodes .endless) (number fuel : Nat) :
    Faithful nodes (fun text => ∃ n ∈ nodes, n.content = .scalar text)
      (scalarText number fuel) := by
  induction fuel generalizing number with
  | zero => exact faithful_misfit hendless
  | succ fuel ih =>
    unfold scalarText
    refine keeps_bind (faithful_nodeAt number) fun n hn => ?_
    obtain ⟨before, hbefore, hrenamed⟩ := hn
    split
    · next htext =>
      exact keeps_pure ⟨before, Array.mem_of_getElem? hbefore, hrenamed.content_eq_scalar htext⟩
    · exact faithful_malformed
    · refine keeps_bind (faithful_takeTagged? .value _) fun found _ => ?_
      split
      · exact ih _
      · exact faithful_malformed

/-- Only a mapping can be without end. -/
theorem faithful_scalarText {number : Nat} {before : GraphNode}
    (hbefore : nodes[number]? = some before)
    (hendless : before.content.isMapping = true → Misfit nodes .endless) (fuel : Nat) :
    Faithful nodes (HasText nodes before) (scalarText number (fuel + 1)) := by
  unfold scalarText
  refine keeps_bind (faithful_nodeAt number) fun n hn => ?_
  obtain ⟨before', hbefore', hrenamed⟩ := hn
  rw [hbefore, Option.some.injEq] at hbefore'
  subst hbefore'
  -- the first step is taken by hand: only after it can the search be without end
  split
  · next htext => exact keeps_pure (Or.inl (hrenamed.content_eq_scalar htext))
  · exact faithful_malformed
  · next hcontent =>
    have hmapping : before.content.isMapping = true := by
      rw [← hrenamed.isMapping_eq, hcontent]
      rfl
    refine keeps_bind (faithful_takeTagged? .value _) fun found _ => ?_
    split
    · exact keeps_imp (faithful_scalarText_of_endless (hendless hmapping) _ _) (fun _ hp => hp)
        fun _ htext => Or.inr ⟨hmapping, htext⟩
    · exact faithful_malformed

/-- What becomes of a node that is made a scalar. -/
theorem faithful_scalar {number : Nat} {before n : GraphNode}
    (hbefore : nodes[number]? = some before) (hrenamed : Renamed before n)
    (htag : n.tag.takesText = true) : Faithful nodes (fun _ => True) (scalar number n) := by
  have hmem := Array.mem_of_getElem? hbefore
  have hendless : before.content.isMapping = true → Misfit nodes .endless := by
    refine .endless hmem ?_
    rcases hrenamed.tag with heq | ⟨hvalue, -⟩
    · rwa [← heq]
    · rw [hvalue]
      rfl
  refine keeps_bind keeps_get fun s _ => ?_
  refine keeps_bind (faithful_scalarText hbefore hendless _) fun text htext => ?_
  refine keeps_ite (fun htimestamp => ?_) fun _ => ?_
  · rw [Bool.and_eq_true, decide_eq_true_iff] at htimestamp
    have hmapping : before.content.isMapping = true :=
      hrenamed.isMapping_eq.symm.trans htimestamp.2
    -- a tag that has changed is that of texts
    have htag' : before.tag = .timestamp := by
      rcases hrenamed.tag with heq | ⟨-, htext⟩
      · rw [← heq, htimestamp.1]
      · rw [htimestamp.1] at htext
        cases htext
    exact keeps_bind (faithful_misfit (.timestamp hmem htag' hmapping)) fun _ hfalse =>
      False.elim hfalse
  · split
    · exact keeps_pure trivial
    · next p hp =>
      cases p with
      | malformed => exact faithful_malformed
      | mishap m => exact faithful_misfit (.scalar hmem htext (hrenamed.scalar_mishap hp))

/-- What a node becomes. -/
theorem faithful_item (number : Nat) : Faithful nodes (fun _ => True) (item number) := by
  have hend : ∀ made : Item, Faithful nodes (fun _ => True) (do
      modify fun s => { s with items := s.items.setIfInBounds number (some made) }
      return made : Evaluate Item) := fun made =>
    keeps_bind (faithful_modify fun _ => rfl) fun _ _ => keeps_pure trivial
  have henqueue : Faithful nodes (fun _ => True) (enqueue number) :=
    keeps_bind (faithful_modify fun _ => rfl) fun _ _ => keeps_pure trivial
  unfold item
  refine keeps_bind keeps_get fun s _ => ?_
  split
  · exact keeps_pure trivial
  · refine keeps_bind (faithful_nodeAt number) fun n hn => ?_
    obtain ⟨before, hbefore, hrenamed⟩ := hn
    dsimp only
    cases htag : n.tag with
    | sequence | mapping | set | orderedMap | pairs =>
      exact keeps_bind henqueue fun made _ => hend made
    | merge | value | other =>
      exact keeps_bind faithful_malformed fun made (_ : True) => hend made
    | null | bool | int | float | binary | timestamp | text =>
      have htext : n.tag.takesText = true := by rw [htag]; rfl
      exact keeps_bind (faithful_scalar hbefore hrenamed htext) fun made _ => hend made

/-! ### Collections -/

theorem faithful_key (number : Nat) : Faithful nodes (fun _ => True) (key number) := by
  refine keeps_bind (faithful_item number) fun made _ => ?_
  split
  · exact keeps_pure trivial
  · exact faithful_malformed

theorem faithful_entries (number : Nat) : Faithful nodes (fun _ => True) (entries number) := by
  have hcount : Faithful nodes (fun _ => True) entryCount :=
    keeps_bind keeps_get fun _ _ => keeps_pure trivial
  refine keeps_bind hcount fun count _ => ?_
  refine keeps_bind ((faithful_flatten_takeMerged _).1 number) fun _ _ => ?_
  refine keeps_bind (faithful_entriesOf number) fun found _ => ?_
  exact keeps_mapM fun e _ => keeps_bind (faithful_key e.1) fun _ _ =>
    keeps_bind (faithful_item e.2) fun _ _ => keeps_pure trivial

theorem faithful_sequenceOf (number : Nat) :
    Faithful nodes (fun _ => True) (sequenceOf number) := by
  refine keeps_bind (faithful_nodeAt number) fun n _ => ?_
  split
  · exact keeps_pure trivial
  · exact faithful_malformed

theorem faithful_pair (number : Nat) : Faithful nodes (fun _ => True) (pair number) := by
  refine keeps_bind (faithful_entriesOf number) fun found _ => ?_
  split
  · exact keeps_bind (faithful_item _) fun _ _ =>
      keeps_bind (faithful_item _) fun _ _ => keeps_pure trivial
  · exact faithful_malformed

theorem faithful_holding (number : Nat) : Faithful nodes (fun _ => True) (holding number) := by
  refine keeps_bind (faithful_nodeAt number) fun n _ => ?_
  split
  · refine keeps_bind (faithful_sequenceOf number) fun parts _ => ?_
    exact keeps_bind (keeps_mapM fun part _ => faithful_item part) fun _ _ => keeps_pure trivial
  · refine keeps_bind (faithful_sequenceOf number) fun parts _ => ?_
    exact keeps_bind (keeps_mapM fun part _ => faithful_pair part) fun _ _ => keeps_pure trivial
  · refine keeps_bind (faithful_sequenceOf number) fun parts _ => ?_
    exact keeps_bind (keeps_mapM fun part _ => faithful_pair part) fun _ _ => keeps_pure trivial
  · exact keeps_bind (faithful_entries number) fun _ _ => keeps_pure trivial
  · exact keeps_bind (faithful_entries number) fun _ _ => keeps_pure trivial

theorem faithful_fillFrom (place fuel : Nat) :
    Faithful nodes (fun _ => True) (fillFrom place fuel) := by
  induction fuel generalizing place with
  | zero => exact keeps_pure trivial
  | succ fuel ih =>
    unfold fillFrom
    refine keeps_bind keeps_get fun s _ => ?_
    split
    · exact keeps_pure trivial
    · refine keeps_bind (faithful_holding _) fun found _ => ?_
      exact keeps_bind (faithful_modify fun _ => rfl) fun _ _ => ih _

theorem faithful_outermost (number : Nat) :
    Faithful nodes (fun _ => True) (outermost number) := by
  refine keeps_bind (faithful_item number) fun made _ => ?_
  refine keeps_bind keeps_get fun s _ => ?_
  exact keeps_bind (faithful_fillFrom _ _) fun _ _ => keeps_pure trivial

end Faithful

end Evaluate

/-- **A graph becomes a value without a mishap unless one of its nodes is a misfit.** -/
theorem toValue_mishap {g : Graph} {m : Mishap} (h : g.toValue = .error (.mishap m)) :
    Misfit g.nodes m := by
  unfold Graph.toValue at h
  split at h
  · cases h
  · next root _ =>
    dsimp only at h
    split at h
    · cases h
    · next herror =>
      cases h
      have hfaithful := @Evaluate.faithful_outermost g.nodes root
        { nodes := g.nodes, items := Array.replicate g.nodes.size none
          holdings := Array.replicate g.nodes.size none }
        fun i now hnow => ⟨now, hnow, Renamed.refl now⟩
      rw [herror] at hfaithful
      rcases hfaithful with hmalformed | ⟨m', hm, hmisfit⟩
      · cases hmalformed
      · cases hm
        exact hmisfit

end Phrasebook.Yaml
