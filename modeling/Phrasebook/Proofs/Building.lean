import Phrasebook.Yaml.Graph

/-!
# Building a graph adds no mishaps

A graph is built from tokens that may stop short. Whatever is wrong with the tokens themselves is a
mistake against the format; a mishap comes only from where the tokens stopped, and is handed on as
it is (`ofTokens_mishap`).

`Keeps` is what is shown of every step, here and where the graph becomes a value: an invariant goes
on, and a failure is one of those allowed.
-/

namespace Phrasebook.Yaml

/-! ## Steps that keep an invariant -/

/-- From a state with the invariant a step goes on to another one, with a good result, or ends in
one of the failures that are allowed. -/
def Keeps {ω α : Type} (invariant : ω → Prop) (allowed : Problem → Prop) (good : α → Prop)
    (x : EStateM Problem ω α) : Prop :=
  ∀ s, invariant s →
    match x s with
    | .ok a s' => invariant s' ∧ good a
    | .error p _ => allowed p

section Keeps

variable {ω α β : Type} {invariant : ω → Prop} {allowed : Problem → Prop} {good : α → Prop}
  {good' : β → Prop}

theorem keeps_pure {a : α} (h : good a) :
    Keeps invariant allowed good (pure a : EStateM Problem ω α) :=
  fun _ hs => ⟨hs, h⟩

theorem keeps_throw {p : Problem} (h : allowed p) :
    Keeps invariant allowed good (throw p : EStateM Problem ω α) :=
  fun _ _ => h

theorem keeps_get : Keeps invariant allowed invariant (get : EStateM Problem ω ω) :=
  fun _ hs => ⟨hs, hs⟩

theorem keeps_modify {f : ω → ω} (h : ∀ s, invariant s → invariant (f s)) :
    Keeps invariant allowed (fun _ => True) (modify f : EStateM Problem ω PUnit) :=
  fun s hs => ⟨h s hs, trivial⟩

/-- More may be allowed, and less may be good. -/
theorem keeps_imp {allowed' : Problem → Prop} {better : α → Prop} {x : EStateM Problem ω α}
    (hx : Keeps invariant allowed' better x) (hallowed : ∀ p, allowed' p → allowed p)
    (hgood : ∀ a, better a → good a) : Keeps invariant allowed good x := by
  intro s hs
  have h := hx s hs
  cases hx : x s with
  | ok a s' =>
    rw [hx] at h
    exact ⟨h.1, hgood a h.2⟩
  | error p s' =>
    rw [hx] at h
    exact hallowed p h

theorem keeps_bind {x : EStateM Problem ω α} {f : α → EStateM Problem ω β}
    (hx : Keeps invariant allowed good x) (hf : ∀ a, good a → Keeps invariant allowed good' (f a)) :
    Keeps invariant allowed good' (x >>= f) := by
  intro s hs
  have h := hx s hs
  simp only [bind, EStateM.bind]
  cases hx : x s with
  | ok a s' =>
    rw [hx] at h
    exact hf a h.2 s' h.1
  | error p s' =>
    rw [hx] at h
    exact h

theorem keeps_ite {p : Prop} [Decidable p] {x y : EStateM Problem ω α}
    (hx : p → Keeps invariant allowed good x) (hy : ¬p → Keeps invariant allowed good y) :
    Keeps invariant allowed good (if p then x else y) := by
  split
  · next h => exact hx h
  · next h => exact hy h

/-- What is only there if a condition does not hold. -/
theorem keeps_unless {b : Bool} {x : EStateM Problem ω PUnit} {rest : PUnit → EStateM Problem ω α}
    (hx : Keeps invariant allowed (fun _ => False) x)
    (h : Keeps invariant allowed good (rest ⟨⟩)) :
    Keeps invariant allowed good (if b = true then x >>= rest else rest ⟨⟩) :=
  keeps_ite (fun _ => keeps_bind hx fun _ ha => ha.elim) fun _ => h

theorem keeps_mapM {f : α → EStateM Problem ω β} {l : List α}
    (h : ∀ a ∈ l, Keeps invariant allowed (fun _ => True) (f a)) :
    Keeps invariant allowed (fun _ => True) (l.mapM f) := by
  induction l with
  | nil => exact keeps_pure trivial
  | cons a rest ih =>
    rw [List.mapM_cons]
    refine keeps_bind (h a List.mem_cons_self) fun _ _ => ?_
    refine keeps_bind (ih fun b hb => h b (List.mem_cons_of_mem a hb)) fun _ _ => ?_
    exact keeps_pure trivial

theorem keeps_forM {f : α → EStateM Problem ω PUnit} {l : List α}
    (h : ∀ a ∈ l, Keeps invariant allowed (fun _ => True) (f a)) :
    Keeps invariant allowed (fun _ => True) (l.forM f) := by
  induction l with
  | nil => exact keeps_pure trivial
  | cons a rest ih =>
    refine keeps_bind (h a List.mem_cons_self) fun _ _ => ?_
    exact ih fun b hb => h b (List.mem_cons_of_mem a hb)

end Keeps

/-! ## Building -/

namespace Build

/-- The tokens stopped for this reason, and a step fails for no other than a mistake or this. -/
def Honest {α : Type} (problem? : Option Problem) (x : Build α) : Prop :=
  Keeps (fun s : GraphBuilder => s.problem? = problem?)
    (fun p => p = .malformed ∨ problem? = some p) (fun _ => True) x

section Honest

variable {α β : Type} {problem? : Option Problem} {x : Build α}

theorem honest_pure (a : α) : Honest problem? (pure a : Build α) := keeps_pure trivial

theorem honest_bind {f : α → Build β} (hx : Honest problem? x) (hf : ∀ a, Honest problem? (f a)) :
    Honest problem? (x >>= f) :=
  keeps_bind hx fun a _ => hf a

theorem honest_malformed : Honest problem? (malformed : Build α) := keeps_throw (Or.inl rfl)

/-- What reads the state may rely on nothing about it. -/
theorem honest_get_bind {f : GraphBuilder → Build β} (hf : ∀ s, Honest problem? (f s)) :
    Honest problem? (get >>= f) :=
  keeps_bind keeps_get fun s _ => hf s

theorem honest_modify {f : GraphBuilder → GraphBuilder} (h : ∀ s, (f s).problem? = s.problem?) :
    Honest problem? (modify f) :=
  keeps_modify fun s hs => (h s).trans hs

theorem honest_unless {b : Bool} {rest : Unit → Build α} (h : Honest problem? (rest ())) :
    Honest problem? (if b = true then malformed >>= rest else rest ()) :=
  keeps_unless (keeps_throw (Or.inl rfl)) h

theorem honest_next : Honest problem? next := by
  refine keeps_bind keeps_get fun s hs => ?_
  split
  · exact keeps_pure trivial
  · refine keeps_throw ?_
    rw [hs]
    cases problem? with
    | none => exact Or.inl rfl
    | some p => exact Or.inr rfl

theorem honest_skip : Honest problem? skip := honest_modify fun _ => rfl

theorem honest_expect (t : Token) : Honest problem? (expect t) :=
  honest_bind honest_next fun _ => keeps_ite (fun _ => honest_skip) fun _ => honest_malformed

theorem honest_add (tag : Tag) (content : Content) : Honest problem? (add tag content) :=
  honest_get_bind fun _ => honest_bind (honest_modify fun _ => rfl) fun _ => honest_pure _

theorem honest_fill (number : Nat) (content : Content) : Honest problem? (fill number content) :=
  honest_modify fun _ => rfl

theorem honest_absent : Honest problem? absent := honest_add _ _

theorem honest_orAbsent (ends : Token → Bool) {build : Build Nat} (h : Honest problem? build) :
    Honest problem? (orAbsent ends build) :=
  honest_bind honest_next fun _ => keeps_ite (fun _ => honest_absent) fun _ => h

theorem honest_expand (name : TagName) : Honest problem? (expand name) := by
  unfold expand
  split
  · exact honest_pure _
  · refine honest_get_bind fun s => ?_
    split
    · exact honest_pure _
    · exact honest_malformed

theorem honest_anchor? : Honest problem? anchor? := by
  refine honest_bind honest_next fun t => ?_
  split
  · exact honest_bind honest_skip fun _ => honest_pure _
  · exact honest_pure _

theorem honest_tagName? : Honest problem? tagName? := by
  refine honest_bind honest_next fun t => ?_
  split
  · exact honest_bind honest_skip fun _ => honest_pure _
  · exact honest_pure _

theorem honest_properties : Honest problem? properties := by
  have hend : ∀ a : Option String × Option TagName, Honest problem? (do
      return (a.1, ← a.2.mapM expand)) := by
    rintro ⟨anchor, name⟩
    refine honest_bind ?_ fun _ => honest_pure _
    cases name with
    | none => exact honest_pure _
    | some t => exact honest_bind (honest_expand t) fun _ => honest_pure _
  refine honest_bind honest_anchor? fun anchor => ?_
  split
  · exact honest_bind honest_tagName? fun name => hend (_, name)
  · refine honest_bind honest_tagName? fun name => ?_
    split
    · exact honest_bind honest_anchor? fun anchor => hend (anchor, _)
    · exact hend (none, none)

theorem honest_addUnder (anchor : Option String) (tag : Tag) (content : Content) :
    Honest problem? (addUnder anchor tag content) := by
  unfold addUnder
  split
  · exact honest_add _ _
  · refine honest_get_bind fun s => honest_unless ?_
    refine honest_bind (honest_add _ _) fun _ => ?_
    exact honest_bind (honest_modify fun _ => rfl) fun _ => honest_pure _

theorem honest_aliased (name : String) : Honest problem? (aliased name) := by
  refine honest_get_bind fun s => ?_
  split
  · exact honest_pure _
  · exact honest_malformed

theorem honest_valuePart (ends : Token → Bool) {build : Build Nat} (h : Honest problem? build) :
    Honest problem? (valuePart ends build) :=
  honest_bind honest_next fun _ =>
    keeps_ite (fun _ => honest_bind honest_skip fun _ => honest_orAbsent ends h) fun _ =>
      honest_absent

/-! ### Collections

Nodes and the rows of their parts call each other with less fuel, so one induction carries all of
them. -/

/-- All builders of nodes and parts with this fuel are honest. -/
structure AllHonest (problem? : Option Problem) (fuel : Nat) : Prop where
  node : ∀ block loose, Honest problem? (node block loose fuel)
  blockItems : Honest problem? (blockItems fuel)
  looseItems : Honest problem? (looseItems fuel)
  blockEntries : Honest problem? (blockEntries fuel)
  flowItems : ∀ first, Honest problem? (flowItems first fuel)
  flowEntries : ∀ first, Honest problem? (flowEntries first fuel)

variable {fuel : Nat}

theorem AllHonest.node_succ (h : AllHonest problem? fuel) (block loose : Bool) :
    Honest problem? (Build.node block loose (fuel + 1)) := by
  unfold Build.node
  refine honest_bind honest_next fun t => ?_
  split
  · exact honest_bind honest_skip fun _ => honest_aliased _
  · refine honest_bind honest_properties fun (anchor, tag?) => ?_
    -- a collection is there before its parts are, so that they may name it
    have hsequence : ∀ items : Build (List Nat), Honest problem? items → Honest problem? (do
        let number ← addUnder anchor (collectionTag tag? .sequence) (.sequence [])
        fill number (.sequence (← items))
        return number) := fun items hitems =>
      honest_bind (honest_addUnder _ _ _) fun _ => honest_bind hitems fun _ =>
        honest_bind (honest_fill _ _) fun _ => honest_pure _
    have hmapping : ∀ entries : Build (List (Nat × Nat)), Honest problem? entries →
        Honest problem? (do
          let number ← addUnder anchor (collectionTag tag? .mapping) (.mapping [])
          fill number (.mapping (← entries))
          return number) := fun entries hentries =>
      honest_bind (honest_addUnder _ _ _) fun _ => honest_bind hentries fun _ =>
        honest_bind (honest_fill _ _) fun _ => honest_pure _
    have hnothing : Honest problem? (if (anchor.isNone && tag?.isNone) = true then malformed
        else addUnder anchor (scalarTag tag? true "") (.scalar "")) :=
      keeps_ite (fun _ => honest_malformed) fun _ => honest_addUnder _ _ _
    dsimp only
    refine honest_bind honest_next fun t => ?_
    split
    · exact honest_bind honest_skip fun _ => honest_addUnder _ _ _
    · exact hsequence _ (honest_bind honest_skip fun _ => h.flowItems true)
    · exact hmapping _ (honest_bind honest_skip fun _ => h.flowEntries true)
    · exact keeps_ite (fun _ => hsequence _ h.looseItems) fun _ => hnothing
    · exact keeps_ite (fun _ => hsequence _ (honest_bind honest_skip fun _ => h.blockItems))
        fun _ => hnothing
    · exact keeps_ite (fun _ => hmapping _ (honest_bind honest_skip fun _ => h.blockEntries))
        fun _ => hnothing
    · exact hnothing

theorem AllHonest.blockItems_succ (h : AllHonest problem? fuel) :
    Honest problem? (Build.blockItems (fuel + 1)) := by
  unfold Build.blockItems
  refine honest_bind honest_next fun t => ?_
  split
  · refine honest_bind honest_skip fun _ => ?_
    refine honest_bind (honest_orAbsent _ (h.node true false)) fun _ => ?_
    exact honest_bind h.blockItems fun _ => honest_pure _
  · exact honest_bind honest_skip fun _ => honest_pure _
  · exact honest_malformed

theorem AllHonest.looseItems_succ (h : AllHonest problem? fuel) :
    Honest problem? (Build.looseItems (fuel + 1)) := by
  unfold Build.looseItems
  refine honest_bind honest_next fun t => ?_
  split
  · refine honest_bind honest_skip fun _ => ?_
    refine honest_bind (honest_orAbsent _ (h.node true false)) fun _ => ?_
    exact honest_bind h.looseItems fun _ => honest_pure _
  · exact honest_pure _

theorem AllHonest.blockEntries_succ (h : AllHonest problem? fuel) :
    Honest problem? (Build.blockEntries (fuel + 1)) := by
  unfold Build.blockEntries
  refine honest_bind honest_next fun t => ?_
  split
  · refine honest_bind honest_skip fun _ => ?_
    refine honest_bind (honest_orAbsent _ (h.node true true)) fun _ => ?_
    refine honest_bind (honest_valuePart _ (h.node true true)) fun _ => ?_
    exact honest_bind h.blockEntries fun _ => honest_pure _
  · exact honest_bind honest_skip fun _ => honest_pure _
  · exact honest_malformed

/-- An item of a flow collection that is not the first comes behind a comma. -/
theorem honest_unlessFirst {first : Bool} {rest : Unit → Build α} (h : Honest problem? (rest ())) :
    Honest problem? (if (!first) = true then expect .flowEntry >>= rest else rest ()) :=
  keeps_ite (fun _ => honest_bind (honest_expect _) fun _ => h) fun _ => h

theorem AllHonest.flowItems_succ (h : AllHonest problem? fuel) (first : Bool) :
    Honest problem? (Build.flowItems first (fuel + 1)) := by
  unfold Build.flowItems
  refine honest_bind honest_next fun t => ?_
  refine keeps_ite (fun _ => honest_bind honest_skip fun _ => honest_pure _) fun _ => ?_
  refine honest_unlessFirst (honest_bind honest_next fun t => ?_)
  split
  · exact honest_bind honest_skip fun _ => honest_pure _
  · refine honest_bind (honest_add _ _) fun _ => honest_bind honest_skip fun _ => ?_
    refine honest_bind (honest_orAbsent _ (h.node false false)) fun _ => ?_
    refine honest_bind (honest_valuePart _ (h.node false false)) fun _ => ?_
    refine honest_bind (honest_fill _ _) fun _ => ?_
    exact honest_bind (h.flowItems false) fun _ => honest_pure _
  · refine honest_bind (h.node false false) fun _ => ?_
    exact honest_bind (h.flowItems false) fun _ => honest_pure _

theorem AllHonest.flowEntries_succ (h : AllHonest problem? fuel) (first : Bool) :
    Honest problem? (Build.flowEntries first (fuel + 1)) := by
  unfold Build.flowEntries
  refine honest_bind honest_next fun t => ?_
  refine keeps_ite (fun _ => honest_bind honest_skip fun _ => honest_pure _) fun _ => ?_
  refine honest_unlessFirst (honest_bind honest_next fun t => ?_)
  split
  · exact honest_bind honest_skip fun _ => honest_pure _
  · refine honest_bind honest_skip fun _ => ?_
    refine honest_bind (honest_orAbsent _ (h.node false false)) fun _ => ?_
    refine honest_bind (honest_valuePart _ (h.node false false)) fun _ => ?_
    exact honest_bind (h.flowEntries false) fun _ => honest_pure _
  · refine honest_bind (h.node false false) fun _ => honest_bind honest_absent fun _ => ?_
    exact honest_bind (h.flowEntries false) fun _ => honest_pure _

/-- **Nodes and their parts.** -/
theorem allHonest (problem? : Option Problem) (fuel : Nat) : AllHonest problem? fuel := by
  induction fuel with
  | zero =>
    exact ⟨fun _ _ => honest_malformed, honest_malformed, honest_malformed, honest_malformed,
      fun _ => honest_malformed, fun _ => honest_malformed⟩
  | succ fuel ih =>
    exact ⟨ih.node_succ, ih.blockItems_succ, ih.looseItems_succ, ih.blockEntries_succ,
      ih.flowItems_succ, ih.flowEntries_succ⟩

theorem honest_node (block loose : Bool) (fuel : Nat) :
    Honest problem? (Build.node block loose fuel) :=
  (allHonest problem? fuel).node block loose

/-! ### Documents -/

theorem honest_directives (fuel : Nat) (versioned : Bool) (handles : List (String × String)) :
    Honest problem? (directives fuel versioned handles) := by
  induction fuel generalizing versioned handles with
  | zero => exact honest_malformed
  | succ fuel ih =>
    unfold directives
    refine honest_bind honest_next fun t => ?_
    split
    · exact honest_bind honest_skip fun _ => honest_unless (ih _ _)
    · exact honest_bind honest_skip fun _ => honest_unless (ih _ _)
    · exact honest_bind honest_skip fun _ => ih _ _
    · exact honest_pure _

theorem honest_documentStart (fuel : Nat) : Honest problem? (documentStart fuel) :=
  honest_bind (honest_directives _ _ _) fun _ => honest_bind (honest_expect _) fun _ =>
    honest_modify fun _ => rfl

theorem honest_documentEnds (fuel : Nat) : Honest problem? (documentEnds fuel) := by
  induction fuel with
  | zero => exact honest_malformed
  | succ fuel ih =>
    unfold documentEnds
    refine honest_bind honest_next fun t => ?_
    exact keeps_ite (fun _ => honest_bind honest_skip fun _ => ih) fun _ => honest_pure _

theorem honest_document (fuel : Nat) : Honest problem? (document fuel) := by
  have hend : ∀ root : Nat, Honest problem? (do
      documentEnds fuel
      if (← next) = .streamEnd then return some root
      documentStart fuel
      malformed) := fun root =>
    honest_bind (honest_documentEnds _) fun _ => honest_bind honest_next fun _ =>
      keeps_ite (fun _ => honest_pure _) fun _ =>
        honest_bind (honest_documentStart _) fun _ => honest_malformed
  unfold document
  refine honest_bind honest_next fun t => ?_
  split
  · exact honest_pure _
  · refine keeps_ite (fun _ => ?_) fun _ => ?_
    · refine honest_bind (honest_documentStart _) fun _ => ?_
      exact honest_bind (honest_orAbsent _ (honest_node _ _ _)) hend
    · exact honest_bind (honest_modify fun _ => rfl) fun _ =>
        honest_bind (honest_node _ _ _) hend

end Honest

end Build

/-- **A graph is built without a mishap unless the tokens stopped at one.** -/
theorem ofTokens_mishap {stream : TokenStream} {m : Mishap}
    (h : Graph.ofTokens stream = .error (.mishap m)) : stream.problem? = some (.mishap m) := by
  have hhonest := @Build.honest_document stream.problem? (3 * stream.tokens.length + 10)
    { tokens := stream.tokens, problem? := stream.problem? } rfl
  unfold Graph.ofTokens at h
  dsimp only at h
  split at h
  · cases h
  · next hdoc =>
    cases h
    rw [hdoc] at hhonest
    rcases hhonest with hmalformed | hproblem
    · cases hmalformed
    · exact hproblem

end Phrasebook.Yaml
