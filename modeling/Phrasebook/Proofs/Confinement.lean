import Phrasebook.Proofs.Filling
import Phrasebook.Translator

/-!
# Confinement of failures

A translator that is put together from phrases by fallbacks, interpolation and pipelines fails in
two ways only, as long as its source merely misses properties: the key leads to no translation, or
one layer of interpolation found a declaration that has neither a property nor a default
(`Translator.Failed`). Both are translation failures for the key that was asked for, so a fallback
around it leaves nothing over.

Every layer first runs what it wraps, with the same key, source and world. So "the text that the
wrapped translator returned" can be said of a layer at any depth in terms of the first world.
-/

namespace Phrasebook

variable {σ : Type}

/-- The source answers a name, or misses it by that name. -/
def Source.MissesByName (source : Source σ) : Prop :=
  ∀ name s f s', source name s = .error f s' →
    ∃ message, f = ⟨.propertyNotFound name message, []⟩

theorem PropertyMap.missesByName (m : PropertyMap) : (m.source : Source σ).MissesByName := by
  intro name s f s' h
  cases hm : m.get? name with
  | some text =>
    rw [PropertyMap.source_of_some hm] at h
    cases h
  | none =>
    rw [PropertyMap.source_of_none hm] at h
    cases h
    exact ⟨_, rfl⟩

/-! ## Interpolators -/

/-- The interpolator of the standard grammar, made lenient any number of times. -/
inductive Interpolator.IsStandard : Interpolator σ → Prop
  | standard : IsStandard .standard
  | lenient {i : Interpolator σ} (h : IsStandard i) : IsStandard (.lenient i)

/-- The failures of filling a template: it declares, without default, a property that was missed. -/
inductive Unfilled (template : String) : Failure → Prop
  | missed {d : Declaration} (message : String)
    (hd : d ∈ Grammar.standard.declarations template) (hn : d.default? = none) :
    Unfilled template
      ⟨.interpolation template d.name message, [.propertyNotFound d.name message]⟩

theorem Unfilled.isInterpolation {template : String} {f : Failure} (h : Unfilled template f) :
    f.fault.isInterpolation = true := by
  cases h
  rfl

theorem fill_standard_eq_error {template : String} {source : Source σ} (hs : source.MissesByName)
    {s s' : σ} {f : Failure} (h : Grammar.standard.fill template source s = .error f s') :
    Unfilled template f := by
  obtain ⟨before, d, after, -, s₁, hds, -, hd⟩ := Grammar.fill_eq_error h
  have hmem : d ∈ Grammar.standard.declarations template := by simp [hds]
  cases hd with
  | missing hm _ hn =>
    obtain ⟨message, rfl⟩ := hs _ _ _ _ hm
    exact .missed message hmem hn
  | foreign hf hk =>
    obtain ⟨message, rfl⟩ := hs _ _ _ _ hf
    cases hk

/-- An interpolator of the standard grammar leaves only missed properties over. -/
theorem Interpolator.IsStandard.interpolate_eq_error {i : Interpolator σ} (hi : i.IsStandard)
    {template : String} {source : Source σ} (hs : source.MissesByName) {w w' : World σ}
    {f : Failure} (h : i.interpolate template source w = .error f w') : Unfilled template f := by
  induction hi generalizing f w' with
  | standard => exact fill_standard_eq_error hs (act_eq_error h).1
  | lenient _ ih =>
    rcases handling_eq_error h with ⟨hin, hk⟩ | ⟨g, w₁, -, -, hhandler⟩
    · rw [(ih hin).isInterpolation] at hk
      cases hk
    · cases hhandler

namespace Translator

/-! ## Layers -/

/-- Put together from phrases by fallbacks, interpolation of the standard grammar and pipelines. -/
inductive Assembled : Translator σ → Prop
  | phrases (p : Phrases) : Assembled (.phrases p)
  | withDefault (text : String) {t : Translator σ} (h : Assembled t) :
    Assembled (.withDefault text t)
  | keyAsDefault {t : Translator σ} (h : Assembled t) : Assembled (.keyAsDefault t)
  | interpolated {t : Translator σ} {i : Interpolator σ} (h : Assembled t) (hi : i.IsStandard) :
    Assembled (.interpolated t i)
  | build {t : Translator σ} {settings : Pipeline σ} (h : Assembled t)
    (hi : settings.interpolator.IsStandard) : Assembled (t.build settings)

/-- The outermost layer is a fallback, by itself or as the end of a pipeline. -/
inductive Covered : Translator σ → Prop
  | withDefault (text : String) (t : Translator σ) : Covered (.withDefault text t)
  | keyAsDefault (t : Translator σ) : Covered (.keyAsDefault t)
  | build (t : Translator σ) {settings : Pipeline σ}
    (h : settings.default?.isSome = true ∨ settings.keyAsDefault = true) :
    Covered (t.build settings)

/-- A translator is another one or lies inside it, at any depth. -/
inductive Within : Translator σ → Translator σ → Prop
  | refl (t : Translator σ) : Within t t
  | withDefault (text : String) {t u : Translator σ} (h : Within t u) :
    Within t (.withDefault text u)
  | keyAsDefault {t u : Translator σ} (h : Within t u) : Within t (.keyAsDefault u)
  | interpolated {t u : Translator σ} (i : Interpolator σ) (h : Within t u) :
    Within t (.interpolated u i)

/--
The two failures of a translator.

* the key leads to no translation
* some layer of interpolation got a template from what it wraps and could not fill it: the fault
  names the key, that template and a property that the template declares without default, and it
  arose from the interpolation fault, which arose from the source's
-/
inductive Failed (t : Translator σ) (key : String) (source : Source σ) (w : World σ) :
    Failure → Prop
  | notFound (reason : String) : Failed t key source w ⟨.keyNotFound key reason, []⟩
  | notFilled {inner : Translator σ} {i : Interpolator σ} {template message : String}
    {d : Declaration} {w₁ w₂ : World σ} (layer : Within (.interpolated inner i) t)
    (returned : inner.translate key source w = .ok template w₁)
    (failed : i.interpolate template source w₁ = .error
      ⟨.interpolation template d.name message, [.propertyNotFound d.name message]⟩ w₂)
    (hd : d ∈ Grammar.standard.declarations template) (hn : d.default? = none) :
    Failed t key source w
      ⟨.translationInterpolation key template d.name
          (Fault.interpolation template d.name message).message,
        [.interpolation template d.name message, .propertyNotFound d.name message]⟩

theorem Failed.isTranslation {t : Translator σ} {key : String} {source : Source σ} {w : World σ}
    {f : Failure} (h : t.Failed key source w f) : f.fault.isTranslation = true := by
  cases h <;> rfl

/-- A failure of an inner translator is one of a translator around it. -/
theorem Failed.within {t u : Translator σ} {key : String} {source : Source σ} {w : World σ}
    {f : Failure} (h : t.Failed key source w f)
    (hw : ∀ {v : Translator σ}, Within v t → Within v u) : u.Failed key source w f := by
  cases h with
  | notFound reason => exact .notFound reason
  | notFilled layer returned failed hd hn => exact .notFilled (hw layer) returned failed hd hn

/-! ## What each layer does -/

/-- Built of phrases, fallbacks and interpolation of the standard grammar, layer by layer. -/
def Plain : Translator σ → Prop
  | phrases _ => True
  | function _ => False
  | withDefault _ t => t.Plain
  | keyAsDefault t => t.Plain
  | interpolated t i => t.Plain ∧ i.IsStandard

theorem plain_build {t : Translator σ} (ht : t.Plain) {settings : Pipeline σ}
    (hi : settings.interpolator.IsStandard) : (t.build settings).Plain := by
  have hfilled : (interpolated t (if settings.strict then settings.interpolator
      else .lenient settings.interpolator)).Plain := by
    refine ⟨ht, ?_⟩
    split
    · exact hi
    · exact .lenient hi
  unfold build
  cases settings.default? with
  | some text => exact hfilled
  | none =>
    cases settings.keyAsDefault with
    | true => exact hfilled
    | false => exact hfilled

theorem Assembled.plain {t : Translator σ} (h : t.Assembled) : t.Plain := by
  induction h with
  | phrases => trivial
  | withDefault _ _ ih => exact ih
  | keyAsDefault _ ih => exact ih
  | interpolated _ hi ih => exact ⟨ih, hi⟩
  | build _ hi ih => exact plain_build ih hi

/-- The translator fails in the two ways only. -/
def FailsAsKey (t : Translator σ) (key : String) (source : Source σ) : Prop :=
  ∀ w f w', t.translate key source w = .error f w' → t.Failed key source w f

theorem phrases_failsAsKey (p : Phrases) (key : String) (source : Source σ) :
    (phrases p : Translator σ).FailsAsKey key source := by
  intro w f w' h
  rw [translate] at h
  by_cases hleaf : ∃ text, p.follow key = .node (.leaf text)
  · obtain ⟨text, hleaf⟩ := hleaf
    rw [Phrases.translate_of_leaf hleaf] at h
    cases h
  · obtain ⟨reason, message, herr⟩ :=
      Phrases.translate_of_not_leaf (fun text ht => hleaf ⟨text, ht⟩) w
    rw [herr] at h
    cases h
    exact .notFound reason

/-- A fallback whose handler returns absorbs both failures. -/
theorem fallback_ne_error {t : Translator σ} {key : String} {source : Source σ}
    (ht : t.FailsAsKey key source) {handler : Failure → Action σ String}
    (hh : ∀ g w₁, ∃ text w₂, handler g w₁ = .ok text w₂) {w w' : World σ} {f : Failure} :
    handling Fault.isTranslation (t.translate key source) handler w ≠ .error f w' := by
  intro h
  rcases handling_eq_error h with ⟨hin, hk⟩ | ⟨g, w₁, -, -, hhandler⟩
  · rw [(ht w f w' hin).isTranslation] at hk
    cases hk
  · obtain ⟨text, w₂, hok⟩ := hh g w₁
    rw [hok] at hhandler
    cases hhandler

theorem withDefault_ne_error {t : Translator σ} {key : String} {source : Source σ}
    (ht : t.FailsAsKey key source) (text : String) {w w' : World σ} {f : Failure} :
    (withDefault text t).translate key source w ≠ .error f w' :=
  fallback_ne_error ht fun _ _ => ⟨_, _, rfl⟩

theorem keyAsDefault_ne_error {t : Translator σ} {key : String} {source : Source σ}
    (ht : t.FailsAsKey key source) {w w' : World σ} {f : Failure} :
    (keyAsDefault t).translate key source w ≠ .error f w' :=
  fallback_ne_error ht fun _ _ => ⟨_, _, rfl⟩

/-- A layer of interpolation passes the failures of what it wraps on and adds its own. -/
theorem interpolated_failsAsKey {t : Translator σ} {key : String} {source : Source σ}
    (ht : t.FailsAsKey key source) {i : Interpolator σ} (hi : i.IsStandard)
    (hs : source.MissesByName) : (interpolated t i).FailsAsKey key source := by
  intro w f w' h
  rcases bind_eq_error h with hin | ⟨template, w₁, hin, hfill⟩
  -- what comes from inside is already one of the two failures and passes untouched
  · exact (ht w f w' hin).within (.interpolated i)
  · rcases handling_eq_error hfill with ⟨hf, hk⟩ | ⟨g, w₂, hg, -, hthrow⟩
    · rw [(hi.interpolate_eq_error hs hf).isInterpolation] at hk
      cases hk
    · cases hi.interpolate_eq_error hs hg with
      | missed message hd hn =>
        cases hthrow
        exact .notFilled (.refl _) hin hg hd hn

/-! ## All layers together -/

theorem failsAsKey_of_plain {source : Source σ} (hs : source.MissesByName) (key : String) :
    ∀ t : Translator σ, t.Plain → t.FailsAsKey key source
  | phrases p, _ => phrases_failsAsKey p key source
  | withDefault text t, h => fun _ _ _ hf =>
    absurd hf (withDefault_ne_error (failsAsKey_of_plain hs key t h) text)
  | keyAsDefault t, h => fun _ _ _ hf =>
    absurd hf (keyAsDefault_ne_error (failsAsKey_of_plain hs key t h))
  | interpolated t _, ⟨ht, hi⟩ =>
    interpolated_failsAsKey (failsAsKey_of_plain hs key t ht) hi hs

/-- A fallback on the outside leaves no failure over. -/
theorem Covered.ne_error {t : Translator σ} (hc : t.Covered) (ht : t.Plain) {source : Source σ}
    (hs : source.MissesByName) (key : String) {w w' : World σ} {f : Failure} :
    t.translate key source w ≠ .error f w' := by
  cases hc with
  | withDefault text inner => exact withDefault_ne_error (failsAsKey_of_plain hs key inner ht) text
  | keyAsDefault inner => exact keyAsDefault_ne_error (failsAsKey_of_plain hs key inner ht)
  | @build base settings hset =>
    unfold Translator.build at ht ⊢
    cases hd : settings.default? with
    | some text =>
      simp only [hd] at ht ⊢
      exact withDefault_ne_error (t := base.interpolated _) (failsAsKey_of_plain hs key _ ht) text
    | none =>
      have hk : settings.keyAsDefault = true := by simpa [hd] using hset
      simp only [hd, hk, if_true] at ht ⊢
      exact keyAsDefault_ne_error (t := base.interpolated _) (failsAsKey_of_plain hs key _ ht)

/--
**Failures are confined.** A translator that is put together in the usual ways returns a text or
fails in one of the two ways, each for the key that was asked for; with a fallback on the outside it
returns a text.
-/
theorem translate_confined {t : Translator σ} (ht : t.Assembled) {source : Source σ}
    (hs : source.MissesByName) (key : String) (w : World σ) :
    ((∃ text w', t.translate key source w = .ok text w') ∨
      ∃ f w', t.translate key source w = .error f w' ∧ t.Failed key source w f) ∧
    (t.Covered → ∃ text w', t.translate key source w = .ok text w') := by
  cases h : t.translate key source w with
  | ok text w' => exact ⟨Or.inl ⟨text, w', rfl⟩, fun _ => ⟨text, w', rfl⟩⟩
  | error f w' =>
    exact ⟨Or.inr ⟨f, w', rfl, failsAsKey_of_plain hs key t ht.plain w f w' h⟩,
      fun hc => absurd h (hc.ne_error ht.plain hs key)⟩

/-- Interpolation around a fallback, over a tree without translations. -/
def greeting : Translator Unit :=
  interpolated (withDefault "Hi %\x7bname\x7d" (phrases ⟨.empty, "."⟩)) .standard

/-- The fallback text cannot be filled, and a second fallback around it covers that. -/
theorem translate_confined_greeting :
    (∃ f w', greeting.translate "hello" (PropertyMap.mk []).source ⟨(), []⟩ = .error f w' ∧
      greeting.Failed "hello" (PropertyMap.mk []).source ⟨(), []⟩ f) ∧
    ∃ text w', (greeting.build { default? := some "lost" }).translate "hello"
      (PropertyMap.mk []).source ⟨(), []⟩ = .ok text w' := by
  have hg : greeting.Assembled := .interpolated (.withDefault _ (.phrases _)) .standard
  have hs : (PropertyMap.mk [] : PropertyMap).source.MissesByName (σ := Unit) :=
    PropertyMap.missesByName _
  constructor
  · refine (translate_confined hg hs "hello" ⟨(), []⟩).1.resolve_left ?_
    rintro ⟨text, w', h⟩
    cases h
  · exact (translate_confined (.build hg .standard) hs "hello" ⟨(), []⟩).2
      (.build _ (Or.inl rfl))

end Translator

end Phrasebook
