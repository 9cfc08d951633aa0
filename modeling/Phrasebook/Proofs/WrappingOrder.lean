import Phrasebook.Proofs.Filling
import Phrasebook.Proofs.Pipelines

/-!
# The order of wrapping

A fallback text and an interpolation can be put around a translator in two orders. With the fallback
outside, it stands in for whatever fails below, and is returned as it is. With the fallback inside,
it stands in for what the translator misses, and is interpolated like a translation.

`Beside` is the table of how both end side by side, as long as the interpolator fails to fill
templates and in no other way; `exists_beside` says that it is complete, and `Beside.translate_eq`
that its rows are right. In the rows `filled` and `stops` both end alike, in `unfilled` never. In
the two others it depends on whether the fallback text, once filled, still is what it was. For
placeholders and a source that always answers alike, this gives when the order does not matter at
all (`orders_beside`).
-/

namespace Phrasebook

variable {σ : Type}

/-- The world after a fallback text has stood in for a failure to translate a key. -/
def World.afterFallback (w : World σ) (key : String) (f : Fault) : World σ :=
  w.noting .fallback (Translator.fallbackText "default translation" key f)

/-! ## Interpolators that only fail to fill -/

/-- The source answers each name always in the same way and keeps no state. -/
def Source.Stateless (source : Source σ) : Prop :=
  ∃ answer : String → Except Failure String, source = Source.fixed answer

namespace Interpolator

/-- With this source the interpolator does not fail in any other way than to fill a template. -/
def OnlyUnfilled (i : Interpolator σ) (source : Source σ) : Prop :=
  ∀ template w f w', i.interpolate template source w = .error f w' →
    f.fault.isInterpolation = true

/-- The interpolator fills the text with itself, and leaves nothing else behind. -/
def Keeps (i : Interpolator σ) (source : Source σ) (text : String) : Prop :=
  ∀ w, i.interpolate text source w = .ok text w

/-- Where a source only misses properties, placeholders only fail to be filled. -/
theorem onlyUnfilled_placeholder (g : Grammar) {source : Source σ} (hs : source.OnlyMisses) :
    (placeholder g).OnlyUnfilled source := by
  intro template w f w' h
  obtain ⟨before, d, after, texts, s, -, -, hd⟩ := Grammar.fill_eq_error (act_eq_error h).1
  cases hd with
  | missing hmiss hkind hdefault => rfl
  | foreign hfail hkind =>
    rw [hs _ _ _ _ hfail] at hkind
    cases hkind

/-- A stateless source fills a text always in the same way. -/
theorem keeps_of_interpolate {g : Grammar} {source : Source σ} (hs : source.Stateless)
    {text : String} {w w' : World σ}
    (h : (placeholder g).interpolate text source w = .ok text w') :
    (placeholder g).Keeps source text := by
  obtain ⟨answer, rfl⟩ := hs
  obtain ⟨texts, hanswers, hfilled⟩ := Grammar.fill_eq_ok_iff.1 (act_eq_ok h).1
  obtain ⟨hvalues, -⟩ := answers_fixed_iff.1 hanswers
  intro v
  exact act_of_ok (Grammar.fill_eq_ok_iff.2 ⟨texts, answers_fixed_iff.2 ⟨hvalues, rfl⟩, hfilled⟩)

end Interpolator

namespace Translator

/-! ## The two orders -/

/-- The fallback text around the interpolation. -/
def fallbackOutside (text : String) (base : Translator σ) (i : Interpolator σ) : Translator σ :=
  withDefault text (interpolated base i)

/-- The interpolation around the fallback text. -/
def fallbackInside (text : String) (base : Translator σ) (i : Interpolator σ) : Translator σ :=
  interpolated (withDefault text base) i

/--
How the two orders end beside each other: first the one with the fallback outside, then the one with
the fallback inside. The worlds say what was run before, in both of them.

* `filled`: the base returns a template that can be filled
* `unfilled`: it returns one that cannot
* `missed`: the base fails as a translation, and the fallback text can be filled
* `missedUnfilled`: the base fails as a translation, and the fallback text cannot be filled
* `stops`: the base fails in another way

In the two rows in which the base fails as a translation, the world of the first end is that of the
base and one log record: the interpolator was not run.
-/
inductive Beside (text : String) (base : Translator σ) (i : Interpolator σ) (key : String)
    (source : Source σ) (w : World σ) : EStateM.Result Failure (World σ) String →
    EStateM.Result Failure (World σ) String → Prop
  | filled {template result : String} {w₁ w₂ : World σ}
    (hbase : base.translate key source w = .ok template w₁)
    (hfill : i.interpolate template source w₁ = .ok result w₂) :
    Beside text base i key source w (.ok result w₂) (.ok result w₂)
  | unfilled {template part property : String} {f : Failure} {w₁ w₂ : World σ}
    (hbase : base.translate key source w = .ok template w₁)
    (hfill : i.interpolate template source w₁ = .error f w₂)
    (hf : f.fault.interpolated? = some (part, property)) :
    Beside text base i key source w
      (.ok text (w₂.afterFallback key
        (.translationInterpolation key part property f.fault.message)))
      (.error (f.become (.translationInterpolation key part property f.fault.message)) w₂)
  | missed {result : String} {f : Failure} {w₁ w₂ : World σ}
    (hbase : base.translate key source w = .error f w₁) (hf : f.fault.isTranslation = true)
    (hfill : i.interpolate text source (w₁.afterFallback key f.fault) = .ok result w₂) :
    Beside text base i key source w (.ok text (w₁.afterFallback key f.fault)) (.ok result w₂)
  | missedUnfilled {part property : String} {f g : Failure} {w₁ w₂ : World σ}
    (hbase : base.translate key source w = .error f w₁) (hf : f.fault.isTranslation = true)
    (hfill : i.interpolate text source (w₁.afterFallback key f.fault) = .error g w₂)
    (hg : g.fault.interpolated? = some (part, property)) :
    Beside text base i key source w (.ok text (w₁.afterFallback key f.fault))
      (.error (g.become (.translationInterpolation key part property g.fault.message)) w₂)
  | stops {f : Failure} {w₁ : World σ} (hbase : base.translate key source w = .error f w₁)
    (hf : f.fault.isTranslation = false) :
    Beside text base i key source w (.error f w₁) (.error f w₁)

section Table

variable {text : String} {base : Translator σ} {i : Interpolator σ} {key : String}
  {source : Source σ} {w w₁ : World σ} {a b : EStateM.Result Failure (World σ) String} {f : Failure}

theorem withDefault_of_ok {template : String} (h : base.translate key source w = .ok template w₁)
    (text : String) : (withDefault text base).translate key source w = .ok template w₁ :=
  handling_ok h

/-- A fallback covers a missed translation. -/
theorem withDefault_of_missed (h : base.translate key source w = .error f w₁)
    (hf : f.fault.isTranslation = true) (text : String) :
    (withDefault text base).translate key source w = .ok text (w₁.afterFallback key f.fault) :=
  handling_of_kind h hf

/-- A fallback covers nothing else. -/
theorem withDefault_of_stop (h : base.translate key source w = .error f w₁)
    (hf : f.fault.isTranslation = false) (text : String) :
    (withDefault text base).translate key source w = .error f w₁ :=
  handling_of_other h hf

/-- **Every row of the table is right.** -/
theorem Beside.translate_eq (h : Beside text base i key source w a b) :
    (fallbackOutside text base i).translate key source w = a ∧
      (fallbackInside text base i).translate key source w = b := by
  unfold fallbackOutside fallbackInside
  cases h with
  | filled hbase hfill =>
    constructor
    · exact withDefault_of_ok (interpolated_of_filled hbase hfill) text
    · exact interpolated_of_filled (withDefault_of_ok hbase text) hfill
  | unfilled hbase hfill hf =>
    constructor
    · exact withDefault_of_missed (interpolated_of_unfilled hbase hfill hf) rfl text
    · exact interpolated_of_unfilled (withDefault_of_ok hbase text) hfill hf
  | missed hbase hf hfill =>
    constructor
    · exact withDefault_of_missed (interpolated_of_error hbase i) hf text
    · exact interpolated_of_filled (withDefault_of_missed hbase hf text) hfill
  | missedUnfilled hbase hf hfill hg =>
    constructor
    · exact withDefault_of_missed (interpolated_of_error hbase i) hf text
    · exact interpolated_of_unfilled (withDefault_of_missed hbase hf text) hfill hg
  | stops hbase hf =>
    constructor
    · exact withDefault_of_stop (interpolated_of_error hbase i) hf text
    · exact interpolated_of_error (withDefault_of_stop hbase hf text) i

/-- **There is a row for every case.** -/
theorem exists_beside (hi : i.OnlyUnfilled source) (text : String) (base : Translator σ)
    (key : String) (w : World σ) : ∃ a b, Beside text base i key source w a b := by
  have hparts : ∀ template v f v', i.interpolate template source v = .error f v' →
      ∃ part property, f.fault.interpolated? = some (part, property) := by
    intro template v f v' h
    have hkind := hi template v f v' h
    rw [← Fault.interpolated?_isSome, Option.isSome_iff_exists] at hkind
    obtain ⟨⟨part, property⟩, hf⟩ := hkind
    exact ⟨part, property, hf⟩
  cases hbase : base.translate key source w with
  | ok template w₁ =>
    cases hfill : i.interpolate template source w₁ with
    | ok result w₂ => exact ⟨_, _, .filled hbase hfill⟩
    | error f w₂ =>
      obtain ⟨part, property, hf⟩ := hparts _ _ _ _ hfill
      exact ⟨_, _, .unfilled hbase hfill hf⟩
  | error f w₁ =>
    by_cases hf : f.fault.isTranslation = true
    · cases hfill : i.interpolate text source (w₁.afterFallback key f.fault) with
      | ok result w₂ => exact ⟨_, _, .missed hbase hf hfill⟩
      | error g w₂ =>
        obtain ⟨part, property, hg⟩ := hparts _ _ _ _ hfill
        exact ⟨_, _, .missedUnfilled hbase hf hfill hg⟩
    · exact ⟨_, _, .stops hbase (Bool.eq_false_iff.2 hf)⟩

end Table

/-! ## When the order does not matter -/

/-- What the caller of a translator gets: a text or a failure. -/
def outcome : EStateM.Result Failure (World σ) String → Except Failure String
  | .ok text _ => .ok text
  | .error f _ => .error f

/-- The base never fails as a translation. -/
def NeverMisses (base : Translator σ) (source : Source σ) (w : World σ) : Prop :=
  ∀ key f w₁, base.translate key source w = .error f w₁ → f.fault.isTranslation = false

/-- Every template of the base is filled, and if the base ever misses a translation, the fallback
text is filled with itself. -/
structure OrderFree (text : String) (base : Translator σ) (i : Interpolator σ)
    (source : Source σ) (w : World σ) : Prop where
  filled : ∀ key template w₁, base.translate key source w = .ok template w₁ →
    ∃ result w₂, i.interpolate template source w₁ = .ok result w₂
  kept : NeverMisses base source w ∨ i.Keeps source text

section OrderFree

variable {text : String} {base : Translator σ} {i : Interpolator σ} {key : String}
  {source : Source σ} {w : World σ} {a b : EStateM.Result Failure (World σ) String}

/-- The two ends are one, the log and the state of the caller included. -/
theorem Beside.eq_of_orderFree (h : Beside text base i key source w a b)
    (hfree : OrderFree text base i source w) : a = b := by
  cases h with
  | filled hbase hfill => rfl
  | unfilled hbase hfill hf =>
    obtain ⟨result, w₂, hok⟩ := hfree.filled _ _ _ hbase
    rw [hok] at hfill
    cases hfill
  | missed hbase hf hfill =>
    rcases hfree.kept with hnever | hkeeps
    · rw [hnever _ _ _ hbase] at hf
      cases hf
    · rw [hkeeps] at hfill
      cases hfill
      rfl
  | missedUnfilled hbase hf hfill hg =>
    rcases hfree.kept with hnever | hkeeps
    · rw [hnever _ _ _ hbase] at hf
      cases hf
    · rw [hkeeps] at hfill
      cases hfill
  | stops hbase hf => rfl

/-- Ends that give the caller the same are those of a template that is filled, of a fallback text
that is filled with itself, or of a base that stops. -/
theorem Beside.of_outcome_eq (h : Beside text base i key source w a b)
    (houtcome : outcome a = outcome b) :
    (∃ template w₁ result w₂, base.translate key source w = .ok template w₁ ∧
      i.interpolate template source w₁ = .ok result w₂) ∨
    (∃ f w₁ w₂, base.translate key source w = .error f w₁ ∧
      i.interpolate text source (w₁.afterFallback key f.fault) = .ok text w₂) ∨
    ∃ f w₁, base.translate key source w = .error f w₁ ∧ f.fault.isTranslation = false := by
  cases h with
  | filled hbase hfill => exact Or.inl ⟨_, _, _, _, hbase, hfill⟩
  | unfilled hbase hfill hf => cases houtcome
  | missed hbase hf hfill =>
    cases houtcome
    exact Or.inr (Or.inl ⟨_, _, _, hbase, hfill⟩)
  | missedUnfilled hbase hf hfill hg => cases houtcome
  | stops hbase hf => exact Or.inr (Or.inr ⟨_, _, hbase, hf⟩)

/-- If the order does not matter for any key, every template is filled, and either nothing is
missed or the fallback text is kept. -/
theorem orderFree_of_outcome_eq {g : Grammar} (hs : source.Stateless) (hmiss : source.OnlyMisses)
    (h : ∀ key,
      outcome ((fallbackOutside text base (.placeholder g)).translate key source w)
        = outcome ((fallbackInside text base (.placeholder g)).translate key source w)) :
    OrderFree text base (.placeholder g) source w := by
  have hrow : ∀ key, ∃ a b, Beside text base (.placeholder g) key source w a b ∧
      outcome a = outcome b := by
    intro key
    obtain ⟨a, b, hab⟩ :=
      exists_beside (Interpolator.onlyUnfilled_placeholder g hmiss) text base key w
    obtain ⟨ha, hb⟩ := hab.translate_eq
    have hkey := h key
    rw [ha, hb] at hkey
    exact ⟨a, b, hab, hkey⟩
  constructor
  · intro key template w₁ hbase
    obtain ⟨a, b, hab, heq⟩ := hrow key
    rcases hab.of_outcome_eq heq with ⟨t, v, result, w₂, hok, hfill⟩ | ⟨f, v, -, herror, -⟩ |
      ⟨f, v, herror, -⟩
    · rw [hbase] at hok
      cases hok
      exact ⟨result, w₂, hfill⟩
    · rw [hbase] at herror
      cases herror
    · rw [hbase] at herror
      cases herror
  · by_cases hnever : NeverMisses base source w
    · exact Or.inl hnever
    · right
      simp only [NeverMisses, Classical.not_forall] at hnever
      obtain ⟨key, f, w₁, hbase, hf⟩ := hnever
      obtain ⟨a, b, hab, heq⟩ := hrow key
      rcases hab.of_outcome_eq heq with ⟨t, v, -, -, hok, -⟩ |
        ⟨f', v, w₂, -, hfill⟩ | ⟨f', v, herror, hf'⟩
      · rw [hbase] at hok
        cases hok
      · exact Interpolator.keeps_of_interpolate hs hfill
      · rw [hbase] at herror
        cases herror
        exact absurd hf' hf

end OrderFree

/--
**The order of wrapping.** Whatever base and fallback text are:

* If the interpolator only fails to fill templates, the two orders end as the table says, for every
  key, and the table has a row for every case.
* Where the base misses a translation, the fallback outside is returned as it is, whatever the
  interpolator would have done.
* If the interpolator fills placeholders, and the source always answers alike and at most misses,
  the order does not matter for any key exactly if every template of the base is filled, and either
  the base misses no translation or the fallback text is filled with itself. Then the two orders do
  not even differ in what they leave behind.
-/
theorem orders_beside (text : String) (base : Translator σ) (source : Source σ) (w : World σ) :
    (∀ i : Interpolator σ, i.OnlyUnfilled source → ∀ key a b,
      Beside text base i key source w a b ↔
        (fallbackOutside text base i).translate key source w = a ∧
          (fallbackInside text base i).translate key source w = b) ∧
    (∀ (i : Interpolator σ) key f w₁, base.translate key source w = .error f w₁ →
      f.fault.isTranslation = true → (fallbackOutside text base i).translate key source w
        = .ok text (w₁.afterFallback key f.fault)) ∧
    ∀ g : Grammar, source.Stateless → source.OnlyMisses →
      ((∀ key, outcome ((fallbackOutside text base (.placeholder g)).translate key source w)
          = outcome ((fallbackInside text base (.placeholder g)).translate key source w)) ↔
        OrderFree text base (.placeholder g) source w) ∧
      (OrderFree text base (.placeholder g) source w → ∀ key,
        (fallbackOutside text base (.placeholder g)).translate key source w
          = (fallbackInside text base (.placeholder g)).translate key source w) := by
  refine ⟨?_, ?_, ?_⟩
  · intro i hi key a b
    constructor
    · exact Beside.translate_eq
    · rintro ⟨rfl, rfl⟩
      obtain ⟨a, b, hab⟩ := exists_beside hi text base key w
      obtain ⟨ha, hb⟩ := hab.translate_eq
      rw [ha, hb]
      exact hab
  · intro i key f w₁ hbase hf
    exact withDefault_of_missed (interpolated_of_error hbase i) hf text
  · intro g hs hmiss
    have heq : OrderFree text base (.placeholder g) source w → ∀ key,
        (fallbackOutside text base (.placeholder g)).translate key source w
          = (fallbackInside text base (.placeholder g)).translate key source w := by
      intro hfree key
      obtain ⟨a, b, hab⟩ :=
        exists_beside (Interpolator.onlyUnfilled_placeholder g hmiss) text base key w
      obtain ⟨ha, hb⟩ := hab.translate_eq
      rw [ha, hb]
      exact hab.eq_of_orderFree hfree
    refine ⟨⟨orderFree_of_outcome_eq hs hmiss, fun hfree key => ?_⟩, heq⟩
    rw [heq hfree key]

/-- A translator that knows no key. -/
def unknowing : Translator Unit :=
  .function fun key _ => failWith (.keyNotFound key "unknown")

/-- A source that answers one name with its declaration. -/
def echoing : Source Unit := .fixed fun name =>
  if name = "a" then .ok "%\x7ba\x7d" else .error ⟨.propertyNotFound name "unknown", []⟩

/-- A template that is not filled tells the orders apart, and a fallback text that is filled with
itself does not. -/
theorem orders_beside_echoing :
    ((∃ w, (fallbackOutside "lost" oneKey refusing).translate "a" echoing ⟨(), []⟩
        = .ok "lost" w) ∧
      ∃ f w, (fallbackInside "lost" oneKey refusing).translate "a" echoing ⟨(), []⟩
        = .error f w) ∧
    (∃ w, (fallbackOutside "lost" unknowing refusing).translate "a" echoing ⟨(), []⟩
      = .ok "lost" w) ∧
    ∀ key, (fallbackOutside "%\x7ba\x7d" unknowing .standard).translate key echoing ⟨(), []⟩
      = (fallbackInside "%\x7ba\x7d" unknowing .standard).translate key echoing ⟨(), []⟩ := by
  have hrefusing : refusing.OnlyUnfilled echoing := by
    intro template w f w' h
    cases h
    rfl
  have hstateless : echoing.Stateless := ⟨_, rfl⟩
  have hmisses : echoing.OnlyMisses := by
    intro name s f s' h
    obtain ⟨h, -⟩ := fixed_eq_error_iff.1 h
    split at h
    · cases h
    · cases h
      rfl
  have hfree : OrderFree "%\x7ba\x7d" unknowing .standard echoing ⟨(), []⟩ := by
    constructor
    · intro key template w₁ h
      cases h
    · exact Or.inr fun w => rfl
  have hbase : unknowing.translate "a" echoing ⟨(), []⟩
    = .error ⟨.keyNotFound "a" "unknown", []⟩ ⟨(), []⟩ := rfl
  obtain ⟨htable, -, -⟩ := orders_beside "lost" oneKey echoing ⟨(), []⟩
  obtain ⟨-, hmissed, -⟩ := orders_beside "lost" unknowing echoing ⟨(), []⟩
  obtain ⟨-, -, hagree⟩ := orders_beside "%\x7ba\x7d" unknowing echoing ⟨(), []⟩
  obtain ⟨houtside, hinside⟩ := (htable refusing hrefusing "a" _ _).1 (.unfilled rfl rfl rfl)
  exact ⟨⟨⟨_, houtside⟩, ⟨_, _, hinside⟩⟩, ⟨_, hmissed refusing "a" _ _ hbase rfl⟩,
    (hagree .standard hstateless hmisses).2 hfree⟩

end Translator

end Phrasebook
