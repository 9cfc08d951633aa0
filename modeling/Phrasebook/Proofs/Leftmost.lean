import Mathlib.Data.List.TakeWhile
import Phrasebook.Proofs.Written

/-!
# Which declarations are found

Reading a template finds its declarations from left to right: where one can start, the first one
does, and the next is looked for only behind it. `Leftmost` says this without the reader. A template
is gaps with declarations woven between them, and nothing that is written like a declaration starts
inside a gap. It may start inside a declaration that starts earlier; then it is a part of that one.

What is written like a declaration is told by `Placeholder`, and `declaration?_eq_some_iff` says
that a declaration is read from just these texts, whatever follows. From there on both directions
are inductions along the template, one character of a gap or one declaration at a time: what is
found is leftmost (`leftmost_segmentsFrom`), and whatever is leftmost is what is found
(`Leftmost.found`).
-/

namespace Phrasebook

/-! ## What a declaration is read from -/

/-- A default is read from what stands between the mark and the next closing brace. -/
theorem eq_of_defaultPart? {after default : List Char} {n : Nat}
    (h : Grammar.standard.defaultPart? after = some (default, n)) :
    '\x7d' ∉ default ∧ ∃ rest, after = '|' :: (default ++ '\x7d' :: rest) := by
  cases after with
  | nil => cases h
  | cons c rest =>
    simp only [Grammar.defaultPart?] at h
    split at h
    · next hcond =>
      rw [Bool.and_eq_true, decide_eq_true_eq] at hcond
      obtain ⟨hmark, hclosing⟩ := hcond
      have hdefault : rest.takeWhile Grammar.standard.isDefaultChar = default := by
        injection h with h
        exact congrArg Prod.fst h
      obtain ⟨more, hmore⟩ := List.takeWhile_prefix Grammar.standard.isDefaultChar (l := rest)
      obtain ⟨tail, htail⟩ := List.isPrefixOf_iff_prefix.1 hclosing
      rw [hdefault] at hmore htail
      rw [← hmore, List.drop_left] at htail
      refine ⟨fun hmem => ?_, tail, ?_⟩
      · rw [← hdefault] at hmem
        have hchar := List.mem_takeWhile_imp hmem
        simp [Grammar.standard] at hchar
      · rw [hmark, ← hmore, ← htail]
        rfl
    · cases h

/-- Where a declaration is read, something stands that is written like one. -/
theorem exists_literal_append {s : List Char} {d : Declaration}
    (h : Grammar.standard.declaration? s = some d) :
    ∃ p : Placeholder, p.literal.toList <+: s := by
  obtain ⟨⟨inner, rfl⟩, -⟩ := Grammar.literal_eq_take h
  obtain ⟨after, hafter⟩ := List.takeWhile_prefix Grammar.standard.isNameChar (l := inner)
  have hchars : ∀ c ∈ inner.takeWhile Grammar.standard.isNameChar, c ≠ '\x7d' ∧ c ≠ '|' := by
    intro c hc
    simpa [Grammar.standard] using List.mem_takeWhile_imp hc
  generalize hname : inner.takeWhile Grammar.standard.isNameChar = name at hafter hchars
  have hopening : Grammar.standard.opening.isPrefixOf (Grammar.standard.opening ++ inner) = true :=
    List.isPrefixOf_iff_prefix.2 (List.prefix_append _ _)
  have hdrop : inner.drop name.length = after := by rw [← hafter, List.drop_left]
  simp only [Grammar.declaration?, hopening, if_true, List.drop_left, hname, hdrop] at h
  split at h
  · cases h
  · next hempty =>
    have hne : String.ofList name ≠ "" := by
      intro hname'
      rw [← String.toList_inj, String.toList_ofList] at hname'
      subst hname'
      exact hempty rfl
    split at h
    · next default n hpart =>
      obtain ⟨hdefault, rest, hrest⟩ := eq_of_defaultPart? hpart
      refine ⟨⟨String.ofList name, some (String.ofList default), hne, by simpa using hchars,
        by simpa using hdefault⟩, rest, ?_⟩
      rw [← hafter, hrest]
      simp [Placeholder.literal, Grammar.standard]
    · split at h
      · next hclosing =>
        obtain ⟨rest, hrest⟩ := List.isPrefixOf_iff_prefix.1 hclosing
        refine ⟨⟨String.ofList name, none, hne, by simpa using hchars, by simp⟩, rest, ?_⟩
        rw [← hafter, ← hrest]
        simp [Placeholder.literal, Grammar.standard]
      · cases h

/-- **A declaration is read exactly where something stands that is written like one, and it is
that one.** -/
theorem declaration?_eq_some_iff {s : List Char} {d : Declaration} :
    Grammar.standard.declaration? s = some d ↔
      ∃ p : Placeholder, p.literal.toList <+: s ∧ d = p.declaration := by
  constructor
  · intro h
    obtain ⟨p, after, rfl⟩ := exists_literal_append h
    rw [p.declaration?_literal] at h
    exact ⟨p, List.prefix_append _ _, (Option.some.inj h).symm⟩
  · rintro ⟨p, ⟨after, rfl⟩, rfl⟩
    exact p.declaration?_literal after

theorem declaration?_eq_none_iff {s : List Char} :
    Grammar.standard.declaration? s = none ↔ ∀ p : Placeholder, ¬p.literal.toList <+: s := by
  rw [Option.eq_none_iff_forall_ne_some]
  constructor
  · intro h p hp
    exact h p.declaration (declaration?_eq_some_iff.2 ⟨p, hp, rfl⟩)
  · intro h d hd
    obtain ⟨p, hp, -⟩ := declaration?_eq_some_iff.1 hd
    exact h p hp

/-! ## Places in gaps -/

/-- The place lies in a gap of the woven text, not in a filling. -/
def InGap : List (List Char) → List (List Char) → Nat → Prop
  | gap :: gaps, filling :: fillings, i =>
    i < gap.length ∨
      (gap.length + filling.length ≤ i ∧ InGap gaps fillings (i - (gap.length + filling.length)))
  | gap :: _, [], i => i < gap.length
  | [], _, _ => False

theorem inGap_zero (c : Char) (gap : List Char) (gaps fillings : List (List Char)) :
    InGap ((c :: gap) :: gaps) fillings 0 := by
  cases fillings with
  | nil => exact Nat.zero_lt_succ _
  | cons => exact Or.inl (Nat.zero_lt_succ _)

theorem inGap_succ_iff {c : Char} {gap : List Char} {gaps fillings : List (List Char)} {i : Nat} :
    InGap ((c :: gap) :: gaps) fillings (i + 1) ↔ InGap (gap :: gaps) fillings i := by
  cases fillings with
  | nil => simp [InGap]
  | cons filling fillings =>
    have hplace : i + 1 - (gap.length + 1 + filling.length)
        = i - (gap.length + filling.length) := by
      omega
    have hle : gap.length + 1 + filling.length ≤ i + 1 ↔ gap.length + filling.length ≤ i := by
      omega
    simp only [InGap, List.length_cons, Nat.add_lt_add_iff_right, hplace, hle]

theorem inGap_nil_iff {gaps fillings : List (List Char)} {filling : List Char} {i : Nat} :
    InGap ([] :: gaps) (filling :: fillings) i ↔
      filling.length ≤ i ∧ InGap gaps fillings (i - filling.length) := by
  simp [InGap]

/-! ## Leftmost declarations -/

/-- How the declarations of a row are written. -/
def literals (ps : List Placeholder) : List (List Char) :=
  ps.map fun p => p.literal.toList

/-- A text is these gaps with these declarations between them, and nothing that is written like a
declaration starts in a gap. -/
structure Leftmost (s : List Char) (gaps : List (List Char)) (ps : List Placeholder) : Prop where
  length_eq : gaps.length = ps.length + 1
  woven : weave gaps (literals ps) = s
  clear : ∀ before (p : Placeholder) after, s = before ++ p.literal.toList ++ after →
    ¬InGap gaps (literals ps) before.length

namespace Leftmost

variable {s : List Char} {gaps : List (List Char)} {ps : List Placeholder}

theorem nil : Leftmost [] [[]] [] where
  length_eq := rfl
  woven := rfl
  clear := by
    intro before p after h
    exact Nat.not_lt_zero _

/-- A character where no declaration starts may stand before a first gap. -/
theorem char {c : Char} {gap : List Char} (hc : ∀ p : Placeholder, ¬p.literal.toList <+: c :: s)
    (h : Leftmost s (gap :: gaps) ps) : Leftmost (c :: s) ((c :: gap) :: gaps) ps where
  length_eq := h.length_eq
  woven := by
    have hweave := weave_consFirst c (List.cons_ne_nil gap gaps) (literals ps)
    rw [h.woven] at hweave
    exact hweave
  clear := by
    intro before p after hs hgap
    cases before with
    | nil => exact hc p ⟨after, hs.symm⟩
    | cons b before =>
      obtain ⟨rfl, hrest⟩ := List.cons.inj hs
      exact h.clear before p after hrest (inGap_succ_iff.1 hgap)

/-- A declaration may stand before a first gap. -/
theorem slot (p : Placeholder) (h : Leftmost s gaps ps) :
    Leftmost (p.literal.toList ++ s) ([] :: gaps) (p :: ps) where
  length_eq := by rw [List.length_cons, List.length_cons, h.length_eq]
  woven := by
    show [] ++ p.literal.toList ++ weave gaps (literals ps) = _
    rw [h.woven, List.nil_append]
  clear := by
    intro before q after hs hgap
    obtain ⟨hle, hgap⟩ := inGap_nil_iff.1 hgap
    -- what starts in a later gap starts behind the declaration
    obtain ⟨rest, rfl⟩ : p.literal.toList <+: before :=
      List.prefix_of_prefix_length_le (List.prefix_append _ s)
        (by rw [hs, List.append_assoc]; exact List.prefix_append _ _) hle
    rw [List.append_assoc, List.append_assoc, List.append_cancel_left_eq, ← List.append_assoc] at hs
    rw [List.length_append, Nat.add_sub_cancel_left] at hgap
    exact h.clear rest q after hs hgap

/-- What stands first, if it is a character of a gap. -/
theorem of_char {c : Char} {gap : List Char} (h : Leftmost s ((c :: gap) :: gaps) ps) :
    (∀ p : Placeholder, ¬p.literal.toList <+: s) ∧
      ∃ rest, s = c :: rest ∧ Leftmost rest (gap :: gaps) ps := by
  have hs : s = c :: weave (gap :: gaps) (literals ps) := by
    rw [← h.woven]
    exact weave_consFirst c (List.cons_ne_nil gap gaps) (literals ps)
  refine ⟨fun p hp => ?_, _, hs, h.length_eq, rfl, fun before p after hrest hgap => ?_⟩
  · obtain ⟨after, hafter⟩ := hp
    exact h.clear [] p after hafter.symm (inGap_zero c gap gaps _)
  · refine h.clear (c :: before) p after ?_ (inGap_succ_iff.2 hgap)
    rw [hs, hrest]
    rfl

/-- What stands first, if it is a declaration. -/
theorem of_slot {p : Placeholder} (h : Leftmost s ([] :: gaps) (p :: ps)) :
    ∃ rest, s = p.literal.toList ++ rest ∧ Leftmost rest gaps ps := by
  have hs : s = p.literal.toList ++ weave gaps (literals ps) := h.woven.symm
  refine ⟨_, hs, Nat.succ.inj h.length_eq, rfl, fun before q after hrest hgap => ?_⟩
  refine h.clear (p.literal.toList ++ before) q after ?_ (inGap_nil_iff.2 ?_)
  · rw [hs, hrest, List.append_assoc, List.append_assoc, List.append_assoc]
  · rw [List.length_append, Nat.add_sub_cancel_left]
    exact ⟨Nat.le_add_right _ _, hgap⟩

end Leftmost

/-! ## What is found is leftmost -/

theorem segmentsFrom_cons_of_none {c : Char} {rest : List Char}
    (h : ∀ p : Placeholder, ¬p.literal.toList <+: c :: rest) :
    Grammar.standard.segmentsFrom 0 (c :: rest)
      = .char c :: Grammar.standard.segmentsFrom 0 rest := by
  rw [Grammar.segmentsFrom, declaration?_eq_none_iff.2 h]

/-- **The declarations that are found are leftmost.** -/
theorem leftmost_segmentsFrom (s : List Char) : ∃ ps : List Placeholder,
    (Grammar.standard.segmentsFrom 0 s).filterMap Segment.declaration?
      = ps.map Placeholder.declaration ∧
    Leftmost s (gaps (Grammar.standard.segmentsFrom 0 s)) ps := by
  induction hn : s.length using Nat.strongRecOn generalizing s with
  | _ n ih =>
    cases s with
    | nil => exact ⟨[], rfl, .nil⟩
    | cons c rest =>
      by_cases hp : ∃ p : Placeholder, p.literal.toList <+: c :: rest
      · obtain ⟨p, after, hafter⟩ := hp
        obtain ⟨body, hbody⟩ := p.literal_eq_cons
        have hshort : after.length < n := by
          rw [← hn, ← hafter, hbody, List.length_append, List.length_cons]
          omega
        obtain ⟨ps, hps, hleft⟩ := ih _ hshort after rfl
        refine ⟨p :: ps, ?_, ?_⟩
        · rw [← hafter, segmentsFrom_literal, List.filterMap_cons, hps]
          rfl
        · rw [← hafter, segmentsFrom_literal]
          exact hleft.slot p
      · have hnone : ∀ p : Placeholder, ¬p.literal.toList <+: c :: rest :=
          fun p h => hp ⟨p, h⟩
        have hshort : rest.length < n := by
          rw [← hn, List.length_cons]
          exact Nat.lt_succ_self _
        obtain ⟨ps, hps, hleft⟩ := ih _ hshort rest rfl
        refine ⟨ps, ?_, ?_⟩
        · rw [segmentsFrom_cons_of_none hnone]
          exact hps
        · rw [segmentsFrom_cons_of_none hnone, gaps]
          cases hgaps : gaps (Grammar.standard.segmentsFrom 0 rest) with
          | nil => exact absurd hgaps (gaps_ne_nil _)
          | cons gap more =>
            rw [hgaps] at hleft
            exact hleft.char hnone

/-- **What is leftmost is found.** -/
theorem Leftmost.found : ∀ {s : List Char} {gs : List (List Char)} {ps : List Placeholder},
    Leftmost s gs ps → gaps (Grammar.standard.segmentsFrom 0 s) = gs ∧
      (Grammar.standard.segmentsFrom 0 s).filterMap Segment.declaration?
        = ps.map Placeholder.declaration
  | _, [], _, h => absurd h.length_eq (Nat.succ_ne_zero _).symm
  | _, [[]], [], h => by
    obtain rfl := h.woven
    exact ⟨rfl, rfl⟩
  | _, [] :: _ :: _, [], h => absurd (Nat.succ.inj h.length_eq) (Nat.succ_ne_zero _)
  | _, [] :: gs, p :: ps, h => by
    obtain ⟨rest, rfl, hrest⟩ := h.of_slot
    obtain ⟨hgaps, hps⟩ := hrest.found
    rw [segmentsFrom_literal, gaps, List.filterMap_cons, hgaps, hps]
    exact ⟨rfl, rfl⟩
  | _, (c :: gap) :: gs, ps, h => by
    obtain ⟨hnone, rest, rfl, hrest⟩ := h.of_char
    obtain ⟨hgaps, hps⟩ := hrest.found
    rw [segmentsFrom_cons_of_none hnone, gaps, hgaps]
    exact ⟨rfl, hps⟩

/-! ## Texts without declarations -/

/-- Where there are no declarations, all of the text is one gap. -/
theorem Leftmost.not_contains {s : List Char} {gs : List (List Char)} (h : Leftmost s gs [])
    (p : Placeholder) : ¬p.literal.toList <:+: s := by
  rintro ⟨before, after, hs⟩
  obtain ⟨body, hbody⟩ := p.literal_eq_cons
  obtain ⟨gap, rfl⟩ := List.length_eq_one_iff.1 h.length_eq
  obtain rfl : gap = s := h.woven
  refine h.clear before p after hs.symm ?_
  show before.length < gap.length
  rw [← hs, hbody, List.length_append, List.length_append, List.length_cons]
  omega

theorem leftmost_of_not_contains {s : List Char}
    (h : ∀ p : Placeholder, ¬p.literal.toList <:+: s) : Leftmost s [s] [] where
  length_eq := rfl
  woven := rfl
  clear := by
    intro before p after hs
    exact absurd ⟨before, after, hs.symm⟩ (h p)

/--
**The declarations of a template are the leftmost ones.** The template is its gaps with the
declarations that are found woven between them, each with the name and the default that it is
written with, and nothing that is written like a declaration starts in a gap; no other gaps and
declarations have this property. None are found exactly if nothing in the template is written like
a declaration. What is written like a declaration is so with one name and one default only.
-/
theorem declarations_leftmost (template : String) :
    (∃ ps : List Placeholder,
      Grammar.standard.declarations template = ps.map Placeholder.declaration ∧
      Leftmost template.toList (gaps (Grammar.standard.segments template)) ps) ∧
    (∀ gs ps, Leftmost template.toList gs ps →
      gaps (Grammar.standard.segments template) = gs ∧
      Grammar.standard.declarations template = ps.map Placeholder.declaration) ∧
    (Grammar.standard.declarations template = [] ↔
      ∀ p : Placeholder, ¬p.literal.toList <:+: template.toList) ∧
    (∀ p q : Placeholder, p.literal = q.literal → p.declaration = q.declaration) := by
  have hleftmost := leftmost_segmentsFrom template.toList
  refine ⟨hleftmost, fun gs ps h => h.found, ⟨fun h => ?_, fun h => ?_⟩,
    fun p q => Placeholder.declaration_eq_of_literal⟩
  · obtain ⟨ps, hps, hleft⟩ := hleftmost
    obtain rfl : ps = [] := List.map_eq_nil_iff.1 (hps.symm.trans h)
    exact hleft.not_contains
  · exact (leftmost_of_not_contains h).found.2

/-- An opening in a name starts no declaration of its own, and one without a name hides none. -/
theorem declarations_leftmost_swallowed :
    (∃ ps : List Placeholder,
      ps.map Placeholder.declaration = [⟨"%\x7ba%\x7bb\x7d", "a%\x7bb", none⟩] ∧
      Leftmost "%\x7b\x7d%\x7ba%\x7bb\x7d%\x7b|".toList ["%\x7b\x7d".toList, "%\x7b|".toList] ps) ∧
    ∀ p : Placeholder, ¬p.literal.toList <:+: "%\x7b\x7d%\x7b|x\x7d%\x7ba".toList := by
  obtain ⟨⟨ps, hps, hleft⟩, -⟩ := declarations_leftmost "%\x7b\x7d%\x7ba%\x7bb\x7d%\x7b|"
  have hfound : Grammar.standard.declarations "%\x7b\x7d%\x7ba%\x7bb\x7d%\x7b|"
      = [⟨"%\x7ba%\x7bb\x7d", "a%\x7bb", none⟩] := by decide
  exact ⟨⟨ps, hps.symm.trans hfound, hleft⟩,
    (declarations_leftmost "%\x7b\x7d%\x7b|x\x7d%\x7ba").2.2.1.1 (by decide)⟩

end Phrasebook
