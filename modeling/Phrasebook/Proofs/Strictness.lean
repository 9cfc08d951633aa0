import Phrasebook.Proofs.LocaleFallback

/-!
# Strict and lenient engines

Strictness only decides what becomes of a text that cannot be filled. Which text that is, and what
the source is asked for it, does not depend on it: both engines go through the same locales up to
the same text and start to fill it in the same state (`Outcome.caller_eq`). A lenient engine then
returns what a strict one returns, and where a strict one fails it returns the very text that the
failure names, as it stands in the bundle.
-/

namespace Phrasebook

variable {σ : Type}

/-- The state that an effect leaves behind, whether it succeeds or fails. -/
def stateAfter {ω α : Type} : EStateM.Result Failure ω α → ω
  | .ok _ w => w
  | .error _ w => w

namespace Engine

/-! ## What strictness does not touch -/

section Alike

variable {a b : Engine}

theorem considered_congr (hd : a.defaultLocale = b.defaultLocale) (locale? : Option String) :
    a.considered locale? = b.considered locale? := by
  simp only [considered, hd]

theorem firstLeaf?_congr (hb : a.bundles = b.bundles) (key : String) (locales : List String) :
    a.firstLeaf? key locales = b.firstLeaf? key locales := by
  simp only [firstLeaf?, leaf?, hb]

end Alike

section Outcomes

variable {e : Engine} {key requested : String} {locales : List String} {source : Source σ}
  {w : World σ}

theorem Outcome.of_unknown {r : EStateM.Result Failure (World σ) String}
    (h : e.Outcome key requested locales source w r) (hfirst : e.firstLeaf? key locales = none) :
    ∃ w', r = .ok key w' ∧ w'.caller = w.caller ∧ w'.warnings = w.warnings := by
  cases h with
  | unknown _ hc hw => exact ⟨_, rfl, hc, hw⟩
  | filled h' | raw h' | failed h' => rw [hfirst] at h'; cases h'

theorem Outcome.of_filled {r : EStateM.Result Failure (World σ) String} {used leaf text : String}
    {s : σ} (h : e.Outcome key requested locales source w r)
    (hfirst : e.firstLeaf? key locales = some (used, leaf))
    (hfill : Grammar.standard.fill leaf source w.caller = .ok text s) :
    ∃ w', r = .ok text w' ∧ w'.caller = s ∧
      w'.warnings = w.warnings ++ substitution key requested used := by
  cases h with
  | unknown h' => rw [hfirst] at h'; cases h'
  | filled h' hfill' hw =>
    rw [hfirst] at h'
    cases h'
    rw [hfill] at hfill'
    cases hfill'
    exact ⟨_, rfl, rfl, hw⟩
  | raw h' hfill' | failed h' hfill' =>
    rw [hfirst] at h'
    cases h'
    rw [hfill] at hfill'
    cases hfill'

/-- A text that cannot be filled comes back from a lenient engine, and a strict one fails. -/
theorem Outcome.of_unfilled {r : EStateM.Result Failure (World σ) String} {used leaf : String}
    {f : Failure} {s : σ} (h : e.Outcome key requested locales source w r)
    (hfirst : e.firstLeaf? key locales = some (used, leaf))
    (hfill : Grammar.standard.fill leaf source w.caller = .error f s) :
    (e.settings.strictInterpolation = false ∧ ∃ w', r = .ok leaf w' ∧ w'.caller = s ∧
      w'.warnings = w.warnings ++ substitution key requested used) ∨
    (e.settings.strictInterpolation = true ∧ ∃ property inner causes w',
      r = .error ⟨.translationInterpolation key leaf property inner, causes⟩ w' ∧
      f.fault.interpolated? = some (leaf, property) ∧ w'.caller = s ∧
      w'.warnings = w.warnings) := by
  cases h with
  | unknown h' => rw [hfirst] at h'; cases h'
  | filled h' hfill' =>
    rw [hfirst] at h'
    cases h'
    rw [hfill] at hfill'
    cases hfill'
  | raw h' hfill' hlenient hw =>
    rw [hfirst] at h'
    cases h'
    rw [hfill] at hfill'
    cases hfill'
    exact Or.inl ⟨hlenient, _, rfl, rfl, hw⟩
  | failed h' hfill' hf hstrict hw =>
    rw [hfirst] at h'
    cases h'
    rw [hfill] at hfill'
    cases hfill'
    exact Or.inr ⟨hstrict, _, _, _, _, rfl, hf, rfl, hw⟩

/-- The caller's state after a translation is that after filling the first text there is. -/
theorem Outcome.caller_eq {r : EStateM.Result Failure (World σ) String}
    (h : e.Outcome key requested locales source w r) :
    (stateAfter r).caller = match e.firstLeaf? key locales with
      | none => w.caller
      | some (_, leaf) => stateAfter (Grammar.standard.fill leaf source w.caller) := by
  cases h with
  | unknown h hc => rw [h]; exact hc
  | filled h hfill => simp only [h, hfill, stateAfter]
  | raw h hfill => simp only [h, hfill, stateAfter]
  | failed h hfill => simp only [h, hfill, stateAfter]

/-- A lenient engine returns a text. -/
theorem Outcome.eq_ok {r : EStateM.Result Failure (World σ) String}
    (h : e.Outcome key requested locales source w r)
    (hlenient : e.settings.strictInterpolation = false) : ∃ text w', r = .ok text w' := by
  cases h with
  | unknown => exact ⟨_, _, rfl⟩
  | filled => exact ⟨_, _, rfl⟩
  | raw => exact ⟨_, _, rfl⟩
  | failed _ _ _ hstrict =>
    rw [hlenient] at hstrict
    cases hstrict

end Outcomes

/-! ## Both engines together -/

/--
What a lenient engine makes of a translation, beside what a strict one makes of it.

* `asked`: both leave the same state behind, and so the same trace in a source that keeps one
* `returned`: what the strict engine returns, the lenient one returns
* `raw`: where the strict engine fails, it names the text of the first locale that has one, and the
  lenient engine returns that text as it stands in the bundle
* `returns`: the lenient engine returns a text in any case
-/
structure GoesWith (e : Engine) (key : String) (locales : List String)
    (strict lenient : EStateM.Result Failure (World σ) String) : Prop where
  asked : (stateAfter strict).caller = (stateAfter lenient).caller
  returned : ∀ text w, strict = .ok text w → ∃ w', lenient = .ok text w'
  raw : ∀ f w, strict = .error f w → ∃ used template property inner causes,
    f = ⟨.translationInterpolation key template property inner, causes⟩ ∧
    e.firstLeaf? key locales = some (used, template) ∧ ∃ w', lenient = .ok template w'
  returns : ∃ text w', lenient = .ok text w'

/-- A text that a strict engine can fill, or does not find, is the same for a lenient engine. -/
theorem Outcome.returned {a b : Engine} {key requested text : String} {locales : List String}
    {source : Source σ} {w w₁ : World σ} {r : EStateM.Result Failure (World σ) String}
    (ha : a.Outcome key requested locales source w (.ok text w₁))
    (hb : b.Outcome key requested locales source w r)
    (hfirst : a.firstLeaf? key locales = b.firstLeaf? key locales)
    (hstrict : a.settings.strictInterpolation = true) : ∃ w', r = .ok text w' := by
  cases h : a.firstLeaf? key locales with
  | none =>
    obtain ⟨_, ⟨⟩, -⟩ := ha.of_unknown h
    obtain ⟨w', rfl, -⟩ := hb.of_unknown (hfirst.symm.trans h)
    exact ⟨w', rfl⟩
  | some found =>
    cases hfill : Grammar.standard.fill found.2 source w.caller with
    | ok filled s =>
      obtain ⟨_, ⟨⟩, -⟩ := ha.of_filled h hfill
      obtain ⟨w', rfl, -⟩ := hb.of_filled (hfirst.symm.trans h) hfill
      exact ⟨w', rfl⟩
    | error f s =>
      rcases ha.of_unfilled h hfill with ⟨hlenient, -⟩ | ⟨-, _, _, _, _, hr, -⟩
      · rw [hstrict] at hlenient
        cases hlenient
      · cases hr

/-- A text that a strict engine cannot fill is what a lenient engine returns. -/
theorem Outcome.raw_of_failed {a b : Engine} {key requested : String} {locales : List String}
    {source : Source σ} {w w₁ : World σ} {f : Failure}
    {r : EStateM.Result Failure (World σ) String}
    (ha : a.Outcome key requested locales source w (.error f w₁))
    (hb : b.Outcome key requested locales source w r)
    (hfirst : a.firstLeaf? key locales = b.firstLeaf? key locales)
    (hlenient : b.settings.strictInterpolation = false) :
    ∃ used template property inner causes,
      f = ⟨.translationInterpolation key template property inner, causes⟩ ∧
      a.firstLeaf? key locales = some (used, template) ∧ ∃ w', r = .ok template w' := by
  cases ha with
  | failed h hfill =>
    refine ⟨_, _, _, _, _, rfl, h, ?_⟩
    rcases hb.of_unfilled (hfirst.symm.trans h) hfill with ⟨-, w', hr, -⟩ | ⟨hstrict, -⟩
    · exact ⟨w', hr⟩
    · rw [hlenient] at hstrict
      cases hstrict

theorem Outcome.goesWith {a b : Engine} {key requested : String} {locales : List String}
    {source : Source σ} {w : World σ} {r r' : EStateM.Result Failure (World σ) String}
    (ha : a.Outcome key requested locales source w r)
    (hb : b.Outcome key requested locales source w r')
    (hfirst : a.firstLeaf? key locales = b.firstLeaf? key locales)
    (hstrict : a.settings.strictInterpolation = true)
    (hlenient : b.settings.strictInterpolation = false) : a.GoesWith key locales r r' where
  asked := by rw [ha.caller_eq, hb.caller_eq, hfirst]
  returned := by
    rintro text w₁ rfl
    exact ha.returned hb hfirst hstrict
  raw := by
    rintro f w₁ rfl
    exact ha.raw_of_failed hb hfirst hlenient
  returns := hb.eq_ok hlenient

/-- Keyword values that all have a text leave nothing but going through the locales. -/
theorem translate_considers (e : Engine) (key : String) (locale? : Option String)
    {source? : Option (Source σ)} (hs : ∀ source ∈ source?, source.OnlyMisses)
    {properties : List (String × Value)} (h : keywordsHaveTexts properties = true) (w : World σ) :
    e.Outcome key (orIfEmpty locale? e.defaultLocale) (e.considered locale?)
      (layered properties source?) w (e.translate key locale? source? properties w) := by
  obtain ⟨texts, htexts⟩ := (propertyTexts_settles properties).ok h
  rw [translate_of_texts htexts]
  exact translateIn_outcome
    (layered_alike (fun name => valueUnder?_propertyTexts name htexts) hs) _ w
    (considered_self e locale?)

/--
**A strict and a lenient engine agree.** Engines with the same bundles and the same default locale,
started in the same state, ask the source for the same names in the same order. The lenient one
returns what the strict one returns, or else the very text that the strict one could not fill. Both
give up at a keyword value without a text before they ask for anything.
-/
theorem translate_strict_lenient {strict lenient : Engine}
    (hbundles : strict.bundles = lenient.bundles)
    (hdefault : strict.defaultLocale = lenient.defaultLocale)
    (hstrict : strict.settings.strictInterpolation = true)
    (hlenient : lenient.settings.strictInterpolation = false)
    (key : String) (locale? : Option String) {source? : Option (Source σ)}
    (hs : ∀ source ∈ source?, source.OnlyMisses) (properties : List (String × Value))
    (s : σ) (log : List Record) :
    (keywordsHaveTexts properties = true →
      strict.GoesWith key (strict.considered locale?)
        (strict.translate key locale? (source?.map Source.traced) properties ⟨(s, []), log⟩)
        (lenient.translate key locale? (source?.map Source.traced) properties ⟨(s, []), log⟩)) ∧
    (keywordsHaveTexts properties = false →
      strict.translate key locale? (source?.map Source.traced) properties ⟨(s, []), log⟩
        = .error ⟨.mishap .noSuchValue, []⟩ ⟨(s, []), log⟩ ∧
      lenient.translate key locale? (source?.map Source.traced) properties ⟨(s, []), log⟩
        = .error ⟨.mishap .noSuchValue, []⟩ ⟨(s, []), log⟩) := by
  have htraced : ∀ source ∈ source?.map Source.traced, source.OnlyMisses := by
    intro source hsource
    obtain ⟨inner, hinner, rfl⟩ := Option.map_eq_some_iff.1 hsource
    exact (hs inner hinner).traced
  refine ⟨fun h => ?_, fun h =>
    ⟨translate_of_textless h key locale? _ _, translate_of_textless h key locale? _ _⟩⟩
  have hb := translate_considers lenient key locale? htraced h ⟨(s, []), log⟩
  rw [← hdefault, ← considered_congr hdefault] at hb
  exact (translate_considers strict key locale? htraced h ⟨(s, []), log⟩).goesWith hb
    (firstLeaf?_congr hbundles key _) hstrict hlenient

/-- An engine with one text, whose second declaration stands for a property that is not there. -/
def halfFilled (strict : Bool) : Engine where
  settings := { strictInterpolation := strict }
  bundles := [("en", ⟨.mk [("greet", .leaf "%\x7ba\x7d and %\x7bb\x7d")], "."⟩)]
  distinct := by decide +kernel
  separated := by simp

/-- The first declaration is answered, and yet the text comes back as it stands in the bundle. -/
theorem translate_strict_lenient_halfFilled :
    (halfFilled true).GoesWith "greet" ["en"]
      ((halfFilled true).translate "greet" none (some numberedSource.traced) [] ⟨(0, []), []⟩)
      ((halfFilled false).translate "greet" none (some numberedSource.traced) [] ⟨(0, []), []⟩) ∧
    (stateAfter ((halfFilled false).translate "greet" none (some numberedSource.traced) []
      ⟨(0, []), []⟩)).caller = (2, ["a", "b"]) ∧
    (halfFilled false).translate "greet" none (some numberedSource.traced) [("n", oversized)]
      ⟨(0, []), []⟩ = .error ⟨.mishap .noSuchValue, []⟩ ⟨(0, []), []⟩ := by
  have hs : ∀ source ∈ some numberedSource, source.OnlyMisses := by
    rintro source ⟨⟩
    exact onlyMisses_numberedSource
  have hbundles : (halfFilled true).bundles = (halfFilled false).bundles := rfl
  have h := translate_strict_lenient hbundles rfl rfl rfl "greet" none hs
  exact ⟨(h [] 0 []).1 rfl, by decide +kernel,
    ((h [("n", oversized)] 0 []).2 keywordsHaveTexts_oversized).2⟩

/-- A lenient engine fails at a keyword value without a text. -/
theorem lenient_not_returns : ¬∃ text w',
    (halfFilled false).translate "k" none none [("n", oversized)] ⟨(), []⟩ = .ok text w' := by
  rintro ⟨text, w', h⟩
  rw [translate_of_textless keywordsHaveTexts_oversized] at h
  cases h

end Engine

end Phrasebook
