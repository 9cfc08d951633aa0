import Phrasebook.Proofs.Pipelines
import Phrasebook.Proofs.Walk

/-!
# How keys resolve

A tree translates a key by walking the path that the key writes. The walk goes on as long as there
are segments, and only then it is looked at what lies there: a text is the translation, a branch is
an incomplete path, and where the walk got stuck on the way the key is not found.
`Phrases.Resolved` is the table of these three ends.

Nothing lies behind a text, and whatever has something behind it is a branch (`at?_append`). So of
two keys, one of which goes on where the other one stops, at most one has a translation, and this
one tells how the other fails.
-/

namespace Phrasebook

variable {σ : Type}

/-! ## Paths that go on -/

namespace Node

variable {n m : Node} {path more : List String} {text : String}

/-- A path that goes on is walked from where it stood. -/
theorem at?_append (n : Node) (path more : List String) :
    n.at? (path ++ more) = (n.at? path).bind fun m => m.at? more := by
  induction path generalizing n with
  | nil => rfl
  | cons segment rest ih =>
    rw [List.cons_append, Node.at?, Node.at?]
    cases n.child? segment with
    | none => rfl
    | some child => exact ih child

/-- Nothing lies behind a text. -/
theorem at?_of_leaf (h : n.at? path = some (.leaf text)) (hmore : more ≠ []) :
    n.at? (path ++ more) = none := by
  rw [at?_append, h]
  cases more with
  | nil => exact absurd rfl hmore
  | cons segment rest => rfl

/-- What something lies behind is a branch. -/
theorem exists_branch_of_at? (h : n.at? (path ++ more) = some m) (hmore : more ≠ []) :
    ∃ children, n.at? path = some (.branch children) := by
  cases hpath : n.at? path with
  | none =>
    rw [at?_append, hpath] at h
    cases h
  | some k =>
    cases k with
    | leaf text =>
      rw [at?_of_leaf hpath hmore] at h
      cases h
    | branch children => exact ⟨children, rfl⟩

end Node

/-! ## The three ends -/

namespace Phrases

/-- What lies at the end of the path of a key. -/
def at? (p : Phrases) (key : String) : Option Node :=
  p.tree.node.at? (p.splitKey key)

/--
The three ends of translating a key.

* `text`: the path ends on a text, which is returned, and nothing is put on record
* `incomplete`: it ends on a branch
* `notFound`: it does not end anywhere

Both failures name the whole key and put one record of the lowest level in the log.
-/
inductive Resolved (p : Phrases) (key : String) (w : World σ) :
    EStateM.Result Failure (World σ) String → Prop
  | text {text : String} (h : p.at? key = some (.leaf text)) : Resolved p key w (.ok text w)
  | incomplete {children : List (String × Node)} (message : String)
    (h : p.at? key = some (.branch children)) :
    Resolved p key w (.error ⟨.keyNotFound key "incomplete path", []⟩ (w.noting .lookup message))
  | notFound (message : String) (h : p.at? key = none) :
    Resolved p key w (.error ⟨.keyNotFound key "not found", []⟩ (w.noting .lookup message))

variable {p : Phrases} {key key' text : String} {w : World σ}

theorem node?_follow (p : Phrases) (key : String) : (p.follow key).node? = p.at? key :=
  node?_followFrom 0 p.tree.node (p.splitKey key)

/-- **A key comes to one of the three ends.** -/
theorem resolved_translate (p : Phrases) (key : String) (w : World σ) :
    p.Resolved key w (p.translate key w) := by
  have hnode := p.node?_follow key
  unfold translate
  cases hfollow : p.follow key with
  | node n =>
    rw [hfollow] at hnode
    cases n with
    | leaf text => exact .text hnode.symm
    | branch children => exact .incomplete _ hnode.symm
  | missing segment =>
    rw [hfollow] at hnode
    exact .notFound _ hnode.symm
  | pastLeaf depth =>
    rw [hfollow] at hnode
    exact .notFound _ hnode.symm

namespace Resolved

variable {r : EStateM.Result Failure (World σ) String}

/-- There is a text exactly if the path ends on it. -/
theorem eq_ok_iff (h : p.Resolved key w r) :
    (∃ w', r = .ok text w') ↔ p.at? key = some (.leaf text) := by
  cases h with
  | text hleaf => simp [hleaf]
  | incomplete message hbranch => simp [hbranch]
  | notFound message hnone => simp [hnone]

/-- The path is incomplete exactly if it ends on a branch. -/
theorem eq_incomplete_iff (h : p.Resolved key w r) :
    (∃ w', r = .error ⟨.keyNotFound key "incomplete path", []⟩ w') ↔
      ∃ children, p.at? key = some (.branch children) := by
  cases h with
  | text hleaf => simp [hleaf]
  | incomplete message hbranch => simp [hbranch]
  | notFound message hnone => simp [hnone]

/-- The key is not found exactly if the path ends nowhere. -/
theorem eq_notFound_iff (h : p.Resolved key w r) :
    (∃ w', r = .error ⟨.keyNotFound key "not found", []⟩ w') ↔ p.at? key = none := by
  cases h with
  | text hleaf => simp [hleaf]
  | incomplete message hbranch => simp [hbranch]
  | notFound message hnone => simp [hnone]

end Resolved

/-! ## Keys that go on -/

/-- The path of one key goes on where that of the other one stops. -/
def GoesOn (p : Phrases) (key key' : String) : Prop :=
  p.splitKey key <+: p.splitKey key' ∧ p.splitKey key ≠ p.splitKey key'

theorem GoesOn.exists_append (h : p.GoesOn key key') :
    ∃ more, more ≠ [] ∧ p.splitKey key' = p.splitKey key ++ more := by
  obtain ⟨⟨more, hmore⟩, hne⟩ := h
  refine ⟨more, ?_, hmore.symm⟩
  rintro rfl
  rw [List.append_nil] at hmore
  exact hne hmore

/-- Where a key has a text, a key that goes on is not found. -/
theorem GoesOn.at?_eq_none (h : p.GoesOn key key') (hkey : p.at? key = some (.leaf text)) :
    p.at? key' = none := by
  obtain ⟨more, hmore, hpath⟩ := h.exists_append
  unfold at? at hkey ⊢
  rw [hpath]
  exact Node.at?_of_leaf hkey hmore

/-- Where a key that goes on has a text, the key is an incomplete path. -/
theorem GoesOn.exists_branch (h : p.GoesOn key key') (hkey : p.at? key' = some (.leaf text)) :
    ∃ children, p.at? key = some (.branch children) := by
  obtain ⟨more, hmore, hpath⟩ := h.exists_append
  unfold at? at hkey ⊢
  rw [hpath] at hkey
  exact Node.exists_branch_of_at? hkey hmore

end Phrases

namespace Translator

/-- A key has a translation. -/
def Finds (t : Translator σ) (source : Source σ) (w : World σ) (key text : String) : Prop :=
  ∃ w', t.translate key source w = .ok text w'

/-- A key leads to no translation, for a reason. -/
def Lacks (t : Translator σ) (source : Source σ) (w : World σ) (key reason : String) : Prop :=
  ∃ w', t.translate key source w = .error ⟨.keyNotFound key reason, []⟩ w'

/--
**How keys resolve.** Whatever the tree, the separator and the source are, a key comes to one of
three ends, and the source is not asked. The key has a text exactly if its path ends on that text,
it is an incomplete path exactly if its path ends on a branch, and it is not found exactly if its
path ends nowhere. Of two keys, the second of which goes on where the first one stops, at most one
has a text: if the first one has, the second one is not found, and if the second one has, the first
one is an incomplete path.
-/
theorem phrases_resolves (p : Phrases) (source : Source σ) (w : World σ) :
    (∀ key, p.Resolved key w ((phrases p).translate key source w)) ∧
    (∀ key text, (phrases p).Finds source w key text ↔ p.at? key = some (.leaf text)) ∧
    (∀ key, (phrases p).Lacks source w key "incomplete path" ↔
      ∃ children, p.at? key = some (.branch children)) ∧
    (∀ key, (phrases p).Lacks source w key "not found" ↔ p.at? key = none) ∧
    ∀ key key', p.GoesOn key key' →
      (∀ text, (phrases p).Finds source w key text →
        (phrases p).Lacks source w key' "not found") ∧
      (∀ text, (phrases p).Finds source w key' text →
        (phrases p).Lacks source w key "incomplete path") ∧
      ∀ text text',
        ¬((phrases p).Finds source w key text ∧ (phrases p).Finds source w key' text') := by
  have hends : ∀ key, p.Resolved key w ((phrases p).translate key source w) :=
    fun key => p.resolved_translate key w
  have hfinds : ∀ key text, (phrases p).Finds source w key text ↔
      p.at? key = some (.leaf text) := fun key _ => (hends key).eq_ok_iff
  refine ⟨hends, hfinds, fun key => (hends key).eq_incomplete_iff,
    fun key => (hends key).eq_notFound_iff, ?_⟩
  intro key key' hon
  refine ⟨?_, ?_, ?_⟩
  · intro text h
    exact (hends key').eq_notFound_iff.2 (hon.at?_eq_none ((hfinds key text).1 h))
  · intro text h
    exact (hends key).eq_incomplete_iff.2 (hon.exists_branch ((hfinds key' text).1 h))
  · rintro text text' ⟨h, h'⟩
    have hnone := hon.at?_eq_none ((hfinds key text).1 h)
    rw [(hfinds key' text').1 h'] at hnone
    cases hnone

/-- A tree in which the empty segment leads to a branch, and again the empty segment to a text. -/
def nameless : Phrases :=
  ⟨.mk [("", .branch [("", .leaf "x")])], "."⟩

/-- A separator alone is the longer path of two, both of empty segments, and has the text. -/
theorem phrases_resolves_nameless :
    nameless.GoesOn "" "." ∧
    (phrases nameless).Finds (PropertyMap.mk []).source (⟨(), []⟩ : World Unit) "." "x" ∧
    (phrases nameless).Lacks (PropertyMap.mk []).source (⟨(), []⟩ : World Unit) ""
      "incomplete path" := by
  obtain ⟨-, hfinds, -, -, hon⟩ :=
    phrases_resolves nameless (PropertyMap.mk []).source (⟨(), []⟩ : World Unit)
  have hgoes : nameless.GoesOn "" "." := by
    constructor
    · exact ⟨[""], rfl⟩
    · decide
  have hfound := (hfinds "." "x").2 rfl
  exact ⟨hgoes, hfound, (hon "" "." hgoes).2.1 "x" hfound⟩

end Translator

end Phrasebook
