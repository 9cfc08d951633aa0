import Phrasebook.Translator

/-!
# How pipelines end

A pipeline runs its base, fills what the base returns, and has a fallback for what fails as a
translation. Base and interpolator may be any functions of the caller, and what they do to the
caller's state stays done. `Pipeline.Ends` is the table of all the ways in which this can end, and
`build_ends` says that it is complete and that its rows exclude each other.

Two things can be read off it. A fallback leaves no translation failure over. And a failed
interpolation gets to the fallback in a strict pipeline only: in a lenient one the raw template is
returned before the fallback could see a failure.
-/

namespace Phrasebook

variable {σ : Type}

/-- The world with one more log record of the lowest level. -/
def World.noting (w : World σ) (origin : Origin) (message : String) : World σ :=
  { w with log := w.log ++ [⟨.debug, origin, message⟩] }

namespace Translator

/-! ## The table -/

/-- What a pipeline fills templates with. -/
def Pipeline.filler (settings : Pipeline σ) : Interpolator σ :=
  if settings.strict then settings.interpolator else .lenient settings.interpolator

/-- How a pipeline ends that failed as a translation of the key: with its fallback, or as it is. -/
inductive Pipeline.Falls (settings : Pipeline σ) (key : String) (f : Failure) (w : World σ) :
    EStateM.Result Failure (World σ) String → Prop
  /-- the default text, whatever is said about the key -/
  | text {text : String} (h : settings.default? = some text) : Falls settings key f w
    (.ok text (w.noting .fallback (fallbackText "default translation" key f.fault)))
  /-- the key -/
  | key (h : settings.default? = none) (hkey : settings.keyAsDefault = true) :
    Falls settings key f w
      (.ok key (w.noting .fallback (fallbackText "key as translation" key f.fault)))
  /-- no fallback -/
  | none (h : settings.default? = none) (hkey : settings.keyAsDefault = false) :
    Falls settings key f w (.error f w)

/-- How a pipeline around a base ends. The worlds say what was run before: `w₁` is what the base
leaves of `w`, and `w₂` what the interpolator leaves of `w₁`. -/
inductive Pipeline.Ends (settings : Pipeline σ) (base : Translator σ) (key : String)
    (source : Source σ) (w : World σ) : EStateM.Result Failure (World σ) String → Prop
  /-- the base fails, not as a translation -/
  | baseStops {f : Failure} {w₁ : World σ} (hbase : base.translate key source w = .error f w₁)
    (hf : f.fault.isTranslation = false) : Ends settings base key source w (.error f w₁)
  /-- the base fails as a translation -/
  | baseFalls {f : Failure} {w₁ : World σ} {r : EStateM.Result Failure (World σ) String}
    (hbase : base.translate key source w = .error f w₁) (hf : f.fault.isTranslation = true)
    (hr : settings.Falls key f w₁ r) : Ends settings base key source w r
  /-- the template is filled -/
  | filled {template text : String} {w₁ w₂ : World σ}
    (hbase : base.translate key source w = .ok template w₁)
    (hfill : settings.interpolator.interpolate template source w₁ = .ok text w₂) :
    Ends settings base key source w (.ok text w₂)
  /-- the template is not filled and returned as it is -/
  | raw {template : String} {f : Failure} {w₁ w₂ : World σ} (hs : settings.strict = false)
    (hbase : base.translate key source w = .ok template w₁)
    (hfill : settings.interpolator.interpolate template source w₁ = .error f w₂)
    (hf : f.fault.isInterpolation = true) : Ends settings base key source w
      (.ok template (w₂.noting .interpolation (suppressedText f.fault)))
  /-- the template is not filled, and this is a failure to translate the key -/
  | unfilled {template part property : String} {f : Failure} {w₁ w₂ : World σ}
    {r : EStateM.Result Failure (World σ) String} (hs : settings.strict = true)
    (hbase : base.translate key source w = .ok template w₁)
    (hfill : settings.interpolator.interpolate template source w₁ = .error f w₂)
    (hf : f.fault.interpolated? = some (part, property))
    (hr : settings.Falls key
      (f.become (.translationInterpolation key part property f.fault.message)) w₂ r) :
    Ends settings base key source w r
  /-- the interpolator fails as a translation, and not to interpolate -/
  | fillFalls {template : String} {f : Failure} {w₁ w₂ : World σ}
    {r : EStateM.Result Failure (World σ) String}
    (hbase : base.translate key source w = .ok template w₁)
    (hfill : settings.interpolator.interpolate template source w₁ = .error f w₂)
    (hf : f.fault.isInterpolation = false) (htranslation : f.fault.isTranslation = true)
    (hr : settings.Falls key f w₂ r) : Ends settings base key source w r
  /-- the interpolator fails in another way -/
  | fillStops {template : String} {f : Failure} {w₁ w₂ : World σ}
    (hbase : base.translate key source w = .ok template w₁)
    (hfill : settings.interpolator.interpolate template source w₁ = .error f w₂)
    (hf : f.fault.isInterpolation = false) (htranslation : f.fault.isTranslation = false) :
    Ends settings base key source w (.error f w₂)

variable {settings : Pipeline σ} {base : Translator σ} {key template text : String}
  {source : Source σ} {w w₁ : World σ} {f : Failure} {r : EStateM.Result Failure (World σ) String}

theorem exists_falls (settings : Pipeline σ) (key : String) (f : Failure) (w : World σ) :
    ∃ r, settings.Falls key f w r := by
  cases h : settings.default? with
  | some text => exact ⟨_, .text h⟩
  | none =>
    cases hkey : settings.keyAsDefault with
    | true => exact ⟨_, .key h hkey⟩
    | false => exact ⟨_, .none h hkey⟩

/-- There is an end in every case. -/
theorem exists_ends (settings : Pipeline σ) (base : Translator σ) (key : String)
    (source : Source σ) (w : World σ) : ∃ r, settings.Ends base key source w r := by
  cases hbase : base.translate key source w with
  | error f w₁ =>
    cases hf : f.fault.isTranslation with
    | true =>
      obtain ⟨r, hr⟩ := exists_falls settings key f w₁
      exact ⟨r, .baseFalls hbase hf hr⟩
    | false => exact ⟨_, .baseStops hbase hf⟩
  | ok template w₁ =>
    cases hfill : settings.interpolator.interpolate template source w₁ with
    | ok text w₂ => exact ⟨_, .filled hbase hfill⟩
    | error f w₂ =>
      cases hf : f.fault.isInterpolation with
      | true =>
        cases hs : settings.strict with
        | true =>
          rw [← Fault.interpolated?_isSome, Option.isSome_iff_exists] at hf
          obtain ⟨⟨part, property⟩, hf⟩ := hf
          obtain ⟨r, hr⟩ := exists_falls settings key
            (f.become (.translationInterpolation key part property f.fault.message)) w₂
          exact ⟨r, .unfilled hs hbase hfill hf hr⟩
        | false => exact ⟨_, .raw hs hbase hfill hf⟩
      | false =>
        cases htranslation : f.fault.isTranslation with
        | true =>
          obtain ⟨r, hr⟩ := exists_falls settings key f w₂
          exact ⟨r, .fillFalls hbase hfill hf htranslation hr⟩
        | false => exact ⟨_, .fillStops hbase hfill hf htranslation⟩

/-! ## Filling -/

theorem filler_of_ok (h : settings.interpolator.interpolate template source w = .ok text w₁) :
    settings.filler.interpolate template source w = .ok text w₁ := by
  unfold Pipeline.filler
  cases settings.strict with
  | true => exact h
  | false => exact handling_ok h

/-- A failure gets out of the interpolator of a strict pipeline, and out of any if it is not one to
interpolate. -/
theorem filler_of_error (h : settings.interpolator.interpolate template source w = .error f w₁)
    (hf : settings.strict = true ∨ f.fault.isInterpolation = false) :
    settings.filler.interpolate template source w = .error f w₁ := by
  unfold Pipeline.filler
  cases hs : settings.strict with
  | true => exact h
  | false => exact handling_of_other h (hf.resolve_left (by simp [hs]))

theorem filler_of_lenient (hs : settings.strict = false)
    (h : settings.interpolator.interpolate template source w = .error f w₁)
    (hf : f.fault.isInterpolation = true) : settings.filler.interpolate template source w
      = .ok template (w₁.noting .interpolation (suppressedText f.fault)) := by
  unfold Pipeline.filler
  rw [hs]
  exact handling_of_kind h hf

/-! ## Interpolating -/

section Interpolating

variable {i : Interpolator σ} {w₂ : World σ}

theorem interpolated_of_filled (hbase : base.translate key source w = .ok template w₁)
    (hfill : i.interpolate template source w₁ = .ok text w₂) :
    (interpolated base i).translate key source w = .ok text w₂ := by
  rw [interpolated_of_ok hbase]
  exact handling_ok hfill

/-- A template that is not filled is a failure to translate the key. -/
theorem interpolated_of_unfilled {part property : String}
    (hbase : base.translate key source w = .ok template w₁)
    (hfill : i.interpolate template source w₁ = .error f w₂)
    (hf : f.fault.interpolated? = some (part, property)) :
    (interpolated base i).translate key source w
      = .error (f.become (.translationInterpolation key part property f.fault.message)) w₂ := by
  have hkind : f.fault.isInterpolation = true := by
    rw [← Fault.interpolated?_isSome, hf]
    rfl
  have hkey : f.fault.forKey key
      = .translationInterpolation key part property f.fault.message := by
    rw [Fault.forKey, hf]
  rw [interpolated_of_ok hbase, handling_of_kind hfill hkind, hkey]
  rfl

/-- Any other failure to fill passes through. -/
theorem interpolated_of_stop (hbase : base.translate key source w = .ok template w₁)
    (hfill : i.interpolate template source w₁ = .error f w₂)
    (hf : f.fault.isInterpolation = false) :
    (interpolated base i).translate key source w = .error f w₂ := by
  rw [interpolated_of_ok hbase]
  exact handling_of_other hfill hf

end Interpolating

/-! ## Falling back -/

/-- What the layer of interpolation returns, the pipeline returns. -/
theorem translate_build_of_ok
    (h : (interpolated base settings.filler).translate key source w = .ok text w₁) :
    (base.build settings).translate key source w = .ok text w₁ := by
  unfold build
  cases settings.default? with
  | some text => exact handling_ok h
  | none =>
    cases settings.keyAsDefault with
    | true => exact handling_ok h
    | false => exact h

/-- A failure that is not one to translate passes the fallback. -/
theorem translate_build_of_stop
    (h : (interpolated base settings.filler).translate key source w = .error f w₁)
    (hf : f.fault.isTranslation = false) :
    (base.build settings).translate key source w = .error f w₁ := by
  unfold build
  cases settings.default? with
  | some text => exact handling_of_other h hf
  | none =>
    cases settings.keyAsDefault with
    | true => exact handling_of_other h hf
    | false => exact h

/-- A failure to translate comes to the fallback. -/
theorem translate_build_of_fall
    (h : (interpolated base settings.filler).translate key source w = .error f w₁)
    (hf : f.fault.isTranslation = true) (hr : settings.Falls key f w₁ r) :
    (base.build settings).translate key source w = r := by
  unfold build
  cases hr with
  | text hdefault =>
    rw [hdefault]
    exact handling_of_kind h hf
  | key hdefault hkey =>
    rw [hdefault, hkey]
    exact handling_of_kind h hf
  | none hdefault hkey =>
    rw [hdefault, hkey]
    exact h

/-- **Every row of the table is right.** -/
theorem Pipeline.Ends.translate_eq (h : settings.Ends base key source w r) :
    (base.build settings).translate key source w = r := by
  cases h with
  | baseStops hbase hf => exact translate_build_of_stop (interpolated_of_error hbase _) hf
  | baseFalls hbase hf hr => exact translate_build_of_fall (interpolated_of_error hbase _) hf hr
  | filled hbase hfill =>
    exact translate_build_of_ok (interpolated_of_filled hbase (filler_of_ok hfill))
  | raw hs hbase hfill hf =>
    exact translate_build_of_ok (interpolated_of_filled hbase (filler_of_lenient hs hfill hf))
  | unfilled hs hbase hfill hf hr =>
    refine translate_build_of_fall ?_ rfl hr
    exact interpolated_of_unfilled hbase (filler_of_error hfill (Or.inl hs)) hf
  | fillFalls hbase hfill hf htranslation hr =>
    refine translate_build_of_fall ?_ htranslation hr
    exact interpolated_of_stop hbase (filler_of_error hfill (Or.inr hf)) hf
  | fillStops hbase hfill hf htranslation =>
    refine translate_build_of_stop ?_ htranslation
    exact interpolated_of_stop hbase (filler_of_error hfill (Or.inr hf)) hf

/-- With a fallback, only what is not a failure to translate is left over. -/
theorem Pipeline.Ends.isTranslation_eq_false (h : settings.Ends base key source w (.error f w₁))
    (hfallback : settings.default?.isSome = true ∨ settings.keyAsDefault = true) :
    f.fault.isTranslation = false := by
  have hnone : ∀ g w', ¬settings.Falls key g w' (.error f w₁) := by
    intro g w' hfalls
    cases hfalls with
    | none hdefault hkey => simp [hdefault, hkey] at hfallback
  cases h with
  | baseStops _ hf => exact hf
  | baseFalls _ _ hr => exact absurd hr (hnone _ _)
  | unfilled _ _ _ _ hr => exact absurd hr (hnone _ _)
  | fillFalls _ _ _ _ hr => exact absurd hr (hnone _ _)
  | fillStops _ _ _ htranslation => exact htranslation

/--
**How pipelines end.** Whatever base, interpolator and settings are:

* A pipeline ends with a result exactly if a row of the table gives it, and there is always one.
* In a lenient pipeline, a template that the interpolator fails to fill is returned as it is,
  whatever the fallback is.
* With a fallback, what is left over is never a failure to translate.
-/
theorem build_ends (base : Translator σ) (settings : Pipeline σ) (key : String)
    (source : Source σ) (w : World σ) :
    (∀ r, (base.build settings).translate key source w = r ↔ settings.Ends base key source w r) ∧
    (∀ template f w₁ w₂, settings.strict = false →
      base.translate key source w = .ok template w₁ →
      settings.interpolator.interpolate template source w₁ = .error f w₂ →
      f.fault.isInterpolation = true → (base.build settings).translate key source w
        = .ok template (w₂.noting .interpolation (suppressedText f.fault))) ∧
    (∀ f w₁, settings.default?.isSome = true ∨ settings.keyAsDefault = true →
      (base.build settings).translate key source w = .error f w₁ →
      f.fault.isTranslation = false) := by
  have hiff : ∀ r, (base.build settings).translate key source w = r ↔
      settings.Ends base key source w r := by
    intro r
    constructor
    · rintro rfl
      obtain ⟨r, hr⟩ := exists_ends settings base key source w
      rw [hr.translate_eq]
      exact hr
    · exact Pipeline.Ends.translate_eq
  refine ⟨hiff, fun template f w₁ w₂ hs hbase hfill hf => ?_, fun f w₁ hfallback h => ?_⟩
  · exact (hiff _).2 (.raw hs hbase hfill hf)
  · exact ((hiff _).1 h).isTranslation_eq_false hfallback

/-- An interpolator that fails to fill any template. -/
def refusing : Interpolator Unit :=
  .function fun template _ => failWith (.interpolation template "name" "refused")

/-- A translator that knows one key. -/
def oneKey : Translator Unit := .phrases ⟨.mk [("a", .leaf "x")], "."⟩

/-- A translator that gives up without saying that it is about a translation. -/
def broken : Translator Unit := .function fun _ _ => failWith (.mishap (.raised "broken"))

/-- A lenient pipeline does not come to its fallback where a strict one does, an empty default wins
over the key, and neither stands in for a base that is broken. -/
theorem build_ends_refusing :
    (∃ w, (oneKey.build ⟨refusing, false, some "lost", true⟩).translate "a"
      (PropertyMap.mk []).source ⟨(), []⟩ = .ok "x" w) ∧
    (∃ w, (oneKey.build ⟨refusing, true, some "", true⟩).translate "a"
      (PropertyMap.mk []).source ⟨(), []⟩ = .ok "" w) ∧
    ∃ f w, (broken.build ⟨refusing, true, some "", true⟩).translate "a"
      (PropertyMap.mk []).source ⟨(), []⟩ = .error f w ∧ f.fault.isTranslation = false := by
  let source : Source Unit := (PropertyMap.mk []).source
  let w : World Unit := ⟨(), []⟩
  obtain ⟨-, hraw, -⟩ := build_ends oneKey ⟨refusing, false, some "lost", true⟩ "a" source w
  obtain ⟨htable, -, -⟩ := build_ends oneKey ⟨refusing, true, some "", true⟩ "a" source w
  obtain ⟨-, -, hleft⟩ := build_ends broken ⟨refusing, true, some "", true⟩ "a" source w
  have hbase : oneKey.translate "a" source w = .ok "x" w := rfl
  have hfill : refusing.interpolate "x" source w
      = .error ⟨.interpolation "x" "name" "refused", []⟩ w := rfl
  have hbroken : (broken.build ⟨refusing, true, some "", true⟩).translate "a" source w
      = .error ⟨.mishap (.raised "broken"), []⟩ w := rfl
  have hempty := (htable _).2 (.unfilled rfl hbase hfill rfl (.text rfl))
  exact ⟨⟨_, hraw "x" _ w w rfl hbase hfill rfl⟩, ⟨_, hempty⟩,
    ⟨_, w, hbroken, hleft _ w (Or.inl rfl) hbroken⟩⟩

end Translator

end Phrasebook
