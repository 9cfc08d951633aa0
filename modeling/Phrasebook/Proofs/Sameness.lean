import Mathlib.Data.List.Perm.Subperm
import Mathlib.Logic.Relation
import Phrasebook.Proofs.PlainCopies
import Phrasebook.Translator

/-!
# Trees that are the same

Two trees are the same exactly if no walk tells them apart (`same_iff_forall_seenAt`), and exactly
if moving children about, at whatever depth, leads from the one to the other (`same_iff_moved`). So
being the same is an equivalence, and trees that are the same translate every key alike.

All of this is for well keyed trees, and rests on `same_branch_iff`: branches with distinct segments
are the same exactly if the same lies under every segment.
-/

namespace Phrasebook

open Relation

/-! ## Well keyed branches -/

/-- What holds of leaves, and of branches if it holds of their children, holds of every node. -/
theorem Node.byChildren {motive : Node → Prop} (leaf : ∀ text, motive (.leaf text))
    (branch : ∀ children, (∀ c ∈ children, motive c.2) → motive (.branch children)) (n : Node) :
    motive n := by
  induction hsize : sizeOf n using Nat.strongRecOn generalizing n with
  | ind size ih =>
    cases n with
    | leaf text => exact leaf text
    | branch children =>
      refine branch children fun c hc => ih (sizeOf c.2) ?_ c.2 rfl
      have hlt := List.sizeOf_lt_of_mem hc
      obtain ⟨name, n⟩ := c
      simp only [Node.branch.sizeOf_spec, Prod.mk.sizeOf_spec] at hlt hsize ⊢
      omega

section Children

variable {xs ys : List (String × Node)} {name : String} {n : Node}

theorem wellKeyed_of_mem (h : (Node.branch xs).WellKeyed) {c : String × Node} (hc : c ∈ xs) :
    c.2.WellKeyed :=
  allWellKeyed_iff.1 h.2 c hc

theorem wellKeyed_of_valueUnder? (h : (Node.branch xs).WellKeyed)
    (hn : valueUnder? name xs = some n) : n.WellKeyed :=
  wellKeyed_of_mem h (mem_of_valueUnder? hn)

/-- Only leaves with one text and branches are the same. -/
theorem same_cases {a b : Node} (h : a.same b = true) :
    (∃ text, a = .leaf text ∧ b = .leaf text) ∨ ∃ xs ys, a = .branch xs ∧ b = .branch ys := by
  cases a with
  | leaf s =>
    cases b with
    | leaf t =>
      rw [beq_iff_eq.1 h]
      exact Or.inl ⟨t, rfl, rfl⟩
    | branch ys => cases h
  | branch xs =>
    cases b with
    | leaf t => cases h
    | branch ys => exact Or.inr ⟨xs, ys, rfl, rfl⟩

theorem sameEntries_iff : Node.sameEntries xs ys = true ↔
    ∀ c ∈ xs, ∃ m, valueUnder? c.1 ys = some m ∧ c.2.same m = true := by
  induction xs with
  | nil => simp [Node.sameEntries]
  | cons c rest ih =>
    obtain ⟨name, n⟩ := c
    rw [Node.sameEntries, Bool.and_eq_true, ih, List.forall_mem_cons]
    refine and_congr_left fun _ => ?_
    cases valueUnder? name ys with
    | none => simp
    | some m => simp

/-- Distinct names that are all among others, no more of them, are these. -/
theorem perm_names_of_subset (hx : (xs.map Prod.fst).Nodup) (hlength : xs.length = ys.length)
    (hsub : ∀ c ∈ xs, c.1 ∈ ys.map Prod.fst) : (xs.map Prod.fst).Perm (ys.map Prod.fst) := by
  have hsubset : xs.map Prod.fst ⊆ ys.map Prod.fst := by
    intro s hs
    obtain ⟨c, hc, rfl⟩ := List.mem_map.1 hs
    exact hsub c hc
  exact (hx.subperm hsubset).perm_of_length_le (by simp [hlength])

/-- **Branches are the same exactly if the same lies under every segment.** -/
theorem same_branch_iff (hx : (xs.map Prod.fst).Nodup) (hy : (ys.map Prod.fst).Nodup) :
    (Node.branch xs).same (.branch ys) = true ↔ ∀ name,
      Option.Rel (fun m n => m.same n = true) (valueUnder? name xs) (valueUnder? name ys) := by
  rw [Node.same, Bool.and_eq_true, beq_iff_eq, sameEntries_iff]
  constructor
  · rintro ⟨hlength, hsame⟩ name
    cases hm : valueUnder? name xs with
    | some m =>
      obtain ⟨n, hn, hmn⟩ := hsame _ (mem_of_valueUnder? hm)
      rw [hn]
      exact .some hmn
    | none =>
      have hperm := perm_names_of_subset hx hlength fun c hc => by
        obtain ⟨n, hn, -⟩ := hsame c hc
        exact isSome_valueUnder?_iff.1 (by rw [hn, Option.isSome_some])
      have hnone : valueUnder? name ys = none := by
        rw [valueUnder?_eq_none_iff] at hm ⊢
        exact mt hperm.mem_iff.2 hm
      rw [hnone]
      exact .none
  · intro hrel
    constructor
    · have hperm : (xs.map Prod.fst).Perm (ys.map Prod.fst) := by
        rw [List.perm_ext_iff_of_nodup hx hy]
        intro name
        rw [← isSome_valueUnder?_iff, ← isSome_valueUnder?_iff]
        rcases rel_cases (hrel name) with ⟨hm, hn⟩ | ⟨m, n, hm, hn, -⟩
        · rw [hm, hn]
        · rw [hm, hn]
          rfl
      simpa using hperm.length_eq
    · intro c hc
      rcases rel_cases (hrel c.1) with ⟨hm, -⟩ | ⟨m, n, hm, hn, hmn⟩
      · rw [valueUnder?_of_mem hx hc] at hm
        cases hm
      · rw [valueUnder?_of_mem hx hc] at hm
        cases hm
        exact ⟨n, hn, hmn⟩

end Children

/-! ## Walks -/

/-- What a walk shows at its end. -/
inductive Seen where
  /-- there is nothing under the path -/
  | missing
  /-- there is a branch -/
  | branch
  /-- there is a leaf with this text -/
  | leaf (text : String)
deriving Repr, DecidableEq, Inhabited

/-- What is seen of a node where there may be one. -/
def Seen.of : Option Node → Seen
  | none => .missing
  | some (.branch _) => .branch
  | some (.leaf text) => .leaf text

/-- What a walk from a node shows. -/
def Node.seenAt (n : Node) (path : List String) : Seen := .of (n.at? path)

/-- What a walk through a tree shows. -/
def Tree.seenAt (t : Tree) (path : List String) : Seen := .of (t.at? path)

/-- Two walks came to the same, apart from what branches at their ends hold. -/
inductive Reached.Alike : Reached → Reached → Prop
  | refl (r : Reached) : Alike r r
  | branches (xs ys : List (String × Node)) : Alike (.node (.branch xs)) (.node (.branch ys))

theorem Tree.seenAt_eq (t : Tree) (path : List String) : t.seenAt path = t.node.seenAt path := by
  rw [Tree.seenAt, Node.seenAt, Tree.at?_eq]

theorem seenAt_cons (children : List (String × Node)) (segment : String) (rest : List String) :
    (Node.branch children).seenAt (segment :: rest)
      = (valueUnder? segment children).elim .missing fun n => n.seenAt rest := by
  rw [Node.seenAt, Node.at?, Node.child?]
  cases valueUnder? segment children with
  | none => rfl
  | some n => rfl

theorem Reached.Alike.seen {r r' : Reached} (h : r.Alike r') :
    Seen.of r.node? = Seen.of r'.node? := by
  cases h with
  | refl => rfl
  | branches xs ys => rfl

/-- Walks through nodes that are the same come to the same. -/
theorem alike_followFrom {a b : Node} (ha : a.WellKeyed) (hb : b.WellKeyed) (h : a.same b = true)
    (depth : Nat) (path : List String) :
    (a.followFrom depth path).Alike (b.followFrom depth path) := by
  induction path generalizing a b depth with
  | nil =>
    rcases same_cases h with ⟨text, rfl, rfl⟩ | ⟨xs, ys, rfl, rfl⟩
    · exact .refl _
    · exact .branches xs ys
  | cons segment rest ih =>
    rcases same_cases h with ⟨text, rfl, rfl⟩ | ⟨xs, ys, rfl, rfl⟩
    · exact .refl _
    · rw [Node.followFrom, Node.followFrom]
      rcases rel_cases ((same_branch_iff ha.1 hb.1).1 h segment) with
        ⟨hm, hn⟩ | ⟨m, n, hm, hn, hmn⟩
      · rw [hm, hn]
        exact .refl _
      · rw [hm, hn]
        exact ih (wellKeyed_of_valueUnder? ha hm) (wellKeyed_of_valueUnder? hb hn) hmn _

/-- Where no walk tells branches apart, none tells apart what lies under a segment. -/
theorem rel_seenAt {xs ys : List (String × Node)}
    (h : ∀ path, (Node.branch xs).seenAt path = (Node.branch ys).seenAt path) (name : String) :
    Option.Rel (fun m n => ∀ path, m.seenAt path = n.seenAt path) (valueUnder? name xs)
      (valueUnder? name ys) := by
  have hrest : ∀ rest, (valueUnder? name xs).elim Seen.missing (fun n => n.seenAt rest)
      = (valueUnder? name ys).elim Seen.missing fun n => n.seenAt rest := by
    intro rest
    rw [← seenAt_cons, ← seenAt_cons, h]
  have hpresent : ∀ n : Node, n.seenAt [] ≠ .missing := by
    intro n hn
    cases n with
    | leaf text => cases hn
    | branch children => cases hn
  cases hm : valueUnder? name xs with
  | none =>
    cases hn : valueUnder? name ys with
    | none => exact .none
    | some n =>
      rw [hm, hn] at hrest
      exact absurd (hrest []).symm (hpresent n)
  | some m =>
    cases hn : valueUnder? name ys with
    | none =>
      rw [hm, hn] at hrest
      exact absurd (hrest []) (hpresent m)
    | some n =>
      rw [hm, hn] at hrest
      exact .some hrest

/-- **Nodes are the same exactly if no walk tells them apart.** -/
theorem same_iff_forall_seenAt {a b : Node} (ha : a.WellKeyed) (hb : b.WellKeyed) :
    a.same b = true ↔ ∀ path, a.seenAt path = b.seenAt path := by
  constructor
  · intro h path
    rw [Node.seenAt, Node.seenAt, ← node?_followFrom 0, ← node?_followFrom 0]
    exact (alike_followFrom ha hb h 0 path).seen
  · intro h
    induction a using Node.byChildren generalizing b with
    | leaf s =>
      have hroot := h []
      cases b with
      | leaf t =>
        rw [Seen.leaf.inj hroot]
        exact beq_self_eq_true t
      | branch ys => cases hroot
    | branch xs ih =>
      have hroot := h []
      cases b with
      | leaf t => cases hroot
      | branch ys =>
        rw [same_branch_iff ha.1 hb.1]
        intro name
        rcases rel_cases (rel_seenAt h name) with ⟨hm, hn⟩ | ⟨m, n, hm, hn, hmn⟩
        · rw [hm, hn]
          exact .none
        · rw [hm, hn]
          exact .some (ih _ (mem_of_valueUnder? hm) (wellKeyed_of_valueUnder? ha hm)
            (wellKeyed_of_valueUnder? hb hn) hmn)

section Equivalence

variable {a b c : Node}

theorem same_refl (ha : a.WellKeyed) : a.same a = true :=
  (same_iff_forall_seenAt ha ha).2 fun _ => rfl

theorem same_symm (ha : a.WellKeyed) (hb : b.WellKeyed) (h : a.same b = true) : b.same a = true :=
  (same_iff_forall_seenAt hb ha).2 fun path => ((same_iff_forall_seenAt ha hb).1 h path).symm

theorem same_trans (ha : a.WellKeyed) (hb : b.WellKeyed) (hc : c.WellKeyed) (h : a.same b = true)
    (h' : b.same c = true) : a.same c = true := by
  rw [same_iff_forall_seenAt ha hc]
  intro path
  rw [(same_iff_forall_seenAt ha hb).1 h path, (same_iff_forall_seenAt hb hc).1 h' path]

end Equivalence

/-! ## Order -/

/-- One node becomes another when the children of a branch in it are brought into another order. -/
inductive Node.Moved : Node → Node → Prop
  | order {xs ys : List (String × Node)} (h : xs.Perm ys) : Moved (.branch xs) (.branch ys)
  | inside {name : String} {m n : Node} (before after : List (String × Node)) (h : Moved m n) :
    Moved (.branch (before ++ (name, m) :: after)) (.branch (before ++ (name, n) :: after))

/-- Under distinct names, it makes no difference in which order they come. -/
theorem valueUnder?_of_perm {α : Type} {l l' : List (String × α)} (hl : (l.map Prod.fst).Nodup)
    (h : l.Perm l') (name : String) : valueUnder? name l = valueUnder? name l' := by
  have hl' : (l'.map Prod.fst).Nodup := (h.map Prod.fst).nodup_iff.1 hl
  cases hv : valueUnder? name l with
  | some v => rw [valueUnder?_of_mem hl' (h.mem_iff.1 (mem_of_valueUnder? hv))]
  | none =>
    symm
    rw [valueUnder?_eq_none_iff] at hv ⊢
    exact mt (h.map Prod.fst).mem_iff.2 hv

theorem rel_same_refl {l : List (String × Node)} (h : ∀ c ∈ l, c.2.WellKeyed) (name : String) :
    Option.Rel (fun m n => m.same n = true) (valueUnder? name l) (valueUnder? name l) := by
  cases hn : valueUnder? name l with
  | none => exact .none
  | some n => exact .some (same_refl (h _ (mem_of_valueUnder? hn)))

/-- **One move.** It keeps a node well keyed and makes no difference to it. -/
theorem Node.Moved.keeps {a b : Node} (h : a.Moved b) (ha : a.WellKeyed) :
    b.WellKeyed ∧ a.same b = true := by
  induction h with
  | @order xs ys h =>
    have hys : (ys.map Prod.fst).Nodup := (h.map Prod.fst).nodup_iff.1 ha.1
    refine ⟨⟨hys, allWellKeyed_iff.2 fun c hc => wellKeyed_of_mem ha (h.mem_iff.2 hc)⟩, ?_⟩
    rw [same_branch_iff ha.1 hys]
    intro name
    rw [← valueUnder?_of_perm ha.1 h]
    exact rel_same_refl (fun c => wellKeyed_of_mem ha) name
  | @inside name m n before after h ih =>
    have hbefore : ∀ c ∈ before, c.2.WellKeyed :=
      fun c hc => wellKeyed_of_mem ha (List.mem_append_left _ hc)
    have hafter : ∀ c ∈ after, c.2.WellKeyed :=
      fun c hc => wellKeyed_of_mem ha (List.mem_append_right _ (List.mem_cons_of_mem _ hc))
    obtain ⟨hn, hmn⟩ := ih (wellKeyed_of_mem ha (List.mem_append_right _ List.mem_cons_self))
    have hnodup : ((before ++ (name, n) :: after).map Prod.fst).Nodup := by
      simpa using ha.1
    have hall : Node.AllWellKeyed (before ++ (name, n) :: after) := by
      rw [allWellKeyed_iff, List.forall_mem_append, List.forall_mem_cons]
      exact ⟨hbefore, hn, hafter⟩
    refine ⟨⟨hnodup, hall⟩, ?_⟩
    rw [same_branch_iff ha.1 hnodup]
    intro s
    rw [valueUnder?_append, valueUnder?_append]
    refine rel_or (rel_same_refl hbefore s) ?_
    rw [valueUnder?, valueUnder?]
    by_cases hname : name = s
    · rw [if_pos hname, if_pos hname]
      exact .some hmn
    · rw [if_neg hname, if_neg hname]
      exact rel_same_refl hafter s

/-- **Any number of moves.** -/
theorem keeps_of_moved {a b : Node} (h : ReflTransGen Node.Moved a b) (ha : a.WellKeyed) :
    b.WellKeyed ∧ a.same b = true := by
  induction h with
  | refl => exact ⟨ha, same_refl ha⟩
  | tail _ hmoved ih =>
    obtain ⟨hm, ham⟩ := ih
    obtain ⟨hn, hmn⟩ := hmoved.keeps hm
    exact ⟨hn, same_trans ha hm hn ham hmn⟩

/-- Moves below a row of children can be made one after the other. -/
theorem exists_moved_children {xs ys : List (String × Node)}
    (h : ∀ c ∈ xs, ∃ n, (c.1, n) ∈ ys ∧ ReflTransGen Node.Moved c.2 n) :
    ∃ zs : List (String × Node), zs.map Prod.fst = xs.map Prod.fst ∧ zs ⊆ ys ∧
      ∀ before, ReflTransGen Node.Moved (.branch (before ++ xs)) (.branch (before ++ zs)) := by
  induction xs with
  | nil => exact ⟨[], rfl, List.nil_subset ys, fun _ => .refl⟩
  | cons c rest ih =>
    obtain ⟨name, m⟩ := c
    obtain ⟨n, hmem, hmoved⟩ := h _ List.mem_cons_self
    obtain ⟨zs, hnames, hsub, hrest⟩ := ih fun d hd => h d (List.mem_cons_of_mem _ hd)
    refine ⟨(name, n) :: zs, ?_, List.cons_subset.2 ⟨hmem, hsub⟩, fun before => ?_⟩
    · rw [List.map_cons, List.map_cons, hnames]
    · have hhead : ReflTransGen Node.Moved (.branch (before ++ (name, m) :: rest))
          (.branch (before ++ (name, n) :: rest)) :=
        ReflTransGen.lift (fun k => Node.branch (before ++ (name, k) :: rest))
          (fun _ _ => Node.Moved.inside before rest) _ _ hmoved
      have htail := hrest (before ++ [(name, n)])
      rw [List.append_assoc, List.append_assoc] at htail
      exact hhead.trans htail

/-- **Nodes are the same exactly if moving children about leads from the one to the other.** -/
theorem same_iff_moved {a b : Node} (ha : a.WellKeyed) (hb : b.WellKeyed) :
    a.same b = true ↔ ReflTransGen Node.Moved a b := by
  constructor
  · intro h
    induction a using Node.byChildren generalizing b with
    | leaf s =>
      cases b with
      | leaf t =>
        rw [beq_iff_eq.1 h]
      | branch ys => cases h
    | branch xs ih =>
      cases b with
      | leaf t => cases h
      | branch ys =>
        rw [Node.same, Bool.and_eq_true, beq_iff_eq, sameEntries_iff] at h
        obtain ⟨hlength, hsame⟩ := h
        -- every child is made its counterpart where it stands, and then they are put in order
        have hreached : ∀ c ∈ xs, ∃ n, (c.1, n) ∈ ys ∧ ReflTransGen Node.Moved c.2 n := by
          intro c hc
          obtain ⟨n, hn, hcn⟩ := hsame c hc
          exact ⟨n, mem_of_valueUnder? hn,
            ih c hc (wellKeyed_of_mem ha hc) (wellKeyed_of_valueUnder? hb hn) hcn⟩
        obtain ⟨zs, hnames, hsub, hmoved⟩ := exists_moved_children hreached
        have hzs : zs.Nodup := List.Nodup.of_map Prod.fst (by rw [hnames]; exact ha.1)
        have hle : ys.length ≤ zs.length := by
          have hlengths := congrArg List.length hnames
          simp only [List.length_map] at hlengths
          omega
        have hperm : zs.Perm ys := (hzs.subperm hsub).perm_of_length_le hle
        exact (hmoved []).tail (.order hperm)
  · intro h
    exact (keeps_of_moved h ha).2

/-! ## Plain copies -/

theorem valueUnderKey?_toEntries (name : String) (children : List (String × Node)) :
    valueUnderKey? (Key.ofString name) (Node.toEntries children)
      = (valueUnder? name children).map Node.toValue := by
  induction children with
  | nil => rfl
  | cons c rest ih =>
    obtain ⟨key, n⟩ := c
    rw [Node.toEntries, valueUnderKey?, valueUnder?, same_ofString, ih]
    by_cases hkey : key = name
    · simp [hkey]
    · simp [hkey]

mutual

/-- **A node equals the plain copy of another one exactly if the two are the same.** -/
theorem sameValue_toValue : ∀ a b : Node, a.sameValue b.toValue = a.same b
  | .leaf s, b => by
    cases b with
    | leaf t => rfl
    | branch ys => rfl
  | .branch xs, b => by
    cases b with
    | leaf t => rfl
    | branch ys =>
      rw [Node.toValue, Node.sameValue, Node.same, sameValueEntries_toEntries xs ys,
        toEntries_eq_map, List.length_map]

theorem sameValueEntries_toEntries : ∀ xs ys : List (String × Node),
    Node.sameValueEntries xs (Node.toEntries ys) = Node.sameEntries xs ys
  | [], _ => rfl
  | (name, m) :: rest, ys => by
    rw [Node.sameValueEntries, Node.sameEntries, sameValueEntries_toEntries rest ys,
      valueUnderKey?_toEntries]
    cases valueUnder? name ys with
    | none => rfl
    | some n =>
      rw [Option.map_some]
      dsimp only
      rw [sameValue_toValue m n]

end

/-! ## Translations -/

/-- Keys that lead to the same have the same translation, or fail alike. -/
theorem translate_of_alike {σ : Type} {p q : Phrases} {key : String}
    (h : (p.follow key).Alike (q.follow key)) :
    (p.translate key : Action σ String) = q.translate key := by
  unfold Phrases.translate
  generalize p.follow key = r at h
  generalize q.follow key = r' at h
  cases h with
  | refl => rfl
  | branches xs ys => rfl

/--
**Trees that are the same.**

* Two trees are the same exactly if every walk shows the same in both: nothing, a branch, or a leaf
  with one text.
* They are the same exactly if moving children about, at whatever depth, leads from the one to the
  other.
* Being the same is reflexive, symmetric and transitive.
* A tree equals the plain copy of another one exactly if the two are the same.
* With trees that are the same, every key is translated alike: to the same text or with the same
  failure, and with the same log, whatever the separator is.
-/
theorem same_iff_seenAt {σ : Type} (a b : Tree) :
    (a.same b = true ↔ ∀ path, a.seenAt path = b.seenAt path) ∧
    (a.same b = true ↔ ReflTransGen Node.Moved a.node b.node) ∧
    a.same a = true ∧
    (a.same b = true → b.same a = true) ∧
    (∀ c : Tree, a.same b = true → b.same c = true → a.same c = true) ∧
    a.sameValue b.toValue = a.same b ∧
    (a.same b = true → ∀ separator key,
      ((Phrases.mk a separator).translate key : Action σ String)
        = (Phrases.mk b separator).translate key) := by
  have ha := a.wellKeyed
  have hb := b.wellKeyed
  refine ⟨?_, same_iff_moved ha hb, same_refl ha, same_symm ha hb,
    fun c => same_trans ha hb c.wellKeyed, sameValue_toValue a.node b.node, ?_⟩
  · simp only [Tree.seenAt_eq]
    exact same_iff_forall_seenAt ha hb
  · intro h separator key
    exact translate_of_alike (alike_followFrom ha hb h 0 _)

/-- A tree with an empty branch and an empty leaf. -/
def tidy : Tree :=
  .mk [("greeting", .branch [("hello", .leaf "Hi"), ("bye", .leaf "")]), ("empty", .branch [])]

/-- The same tree with all its children in another order. -/
def shuffled : Tree :=
  .mk [("empty", .branch []), ("greeting", .branch [("bye", .leaf ""), ("hello", .leaf "Hi")])]

/-- An empty branch is told from one that is missing, and from an empty leaf. -/
theorem same_iff_seenAt_shuffled :
    tidy.same shuffled = true ∧ (∀ path, tidy.seenAt path = shuffled.seenAt path) ∧
    ReflTransGen Node.Moved tidy.node shuffled.node ∧
    tidy.sameValue shuffled.toValue = true ∧
    (∀ key, ((Phrases.mk tidy "/").translate key : Action Unit String)
      = (Phrases.mk shuffled "/").translate key) ∧
    (Tree.mk [("a", .branch [])]).same .empty = false ∧
    (Tree.mk [("a", .branch [])]).same (.mk [("a", .leaf "")]) = false := by
  obtain ⟨hseen, hmoved, -, -, -, hcopy, hkeys⟩ := same_iff_seenAt (σ := Unit) tidy shuffled
  have hsame : tidy.same shuffled = true := by decide
  refine ⟨hsame, hseen.1 hsame, hmoved.1 hsame, hcopy.trans hsame, hkeys hsame "/", ?_, ?_⟩
  · decide
  · decide

end Phrasebook
