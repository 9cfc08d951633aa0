import Phrasebook.Proofs.Layers
import Phrasebook.Proofs.Walk

/-!
# Which locale a translation comes from

An engine goes through the locales that it considers and uses the first one whose bundle has a text
at the end of the key's path. `Engine.Outcome` says what comes of it: the key itself when no locale
has one, and else the text filled, or the failure to fill it, which never leads on to the next
locale. `translateIn_outcome` is the induction over the locales still to be tried: what was tried
before them left neither a trace in the caller's state nor a warning.
-/

namespace Phrasebook

variable {σ : Type}

/-! ## Warnings -/

/-- The warnings in the log. -/
def World.warnings (w : World σ) : List Record :=
  w.log.filter fun r => r.level == .warning

/-- A debug record is no warning. -/
theorem warnings_debug (s : σ) (w : World σ) (origin : Origin) (message : String) :
    World.warnings ⟨s, w.log ++ [⟨.debug, origin, message⟩]⟩ = w.warnings := by
  rw [World.warnings, List.filter_append]
  exact List.append_nil _

namespace Engine

/-- The warning that a text was found in a locale that was not asked for. -/
def substitution (key requested used : String) : List Record :=
  if used = requested then []
  else [⟨.warning, .engine, "Key " ++ Text.quote key ++ " missing in locale "
    ++ Text.quote requested ++ ", used " ++ Text.quote used⟩]

theorem warnings_substitution (w : World σ) (key requested used : String) :
    World.warnings { w with log := w.log ++ substitution key requested used }
      = w.warnings ++ substitution key requested used := by
  rw [World.warnings, List.filter_append, substitution]
  split
  · rfl
  · rfl

/-! ## What is found where -/

/-- The locale that is asked for and the default locale, once if they are the same. -/
def considered (e : Engine) (locale? : Option String) : List String :=
  let requested := orIfEmpty locale? e.defaultLocale
  if requested = e.defaultLocale then [requested] else [requested, e.defaultLocale]

/-- The text that a locale has at the end of the path of a key. -/
def leaf? (e : Engine) (key locale : String) : Option String :=
  (valueUnder? locale e.bundles).bind fun p =>
    match p.tree.at? (p.splitKey key) with
    | some (.leaf text) => some text
    | _ => none

/-- The first locale of a row that has a text for the key, and the text. -/
def firstLeaf? (e : Engine) (key : String) (locales : List String) : Option (String × String) :=
  locales.findSome? fun locale => (e.leaf? key locale).map fun text => (locale, text)

theorem at?_eq_some_leaf_iff {p : Phrases} {key text : String} :
    p.tree.at? (p.splitKey key) = some (.leaf text) ↔ p.follow key = .node (.leaf text) := by
  rw [Tree.at?, Phrases.follow]
  cases p.tree.follow (p.splitKey key) <;> simp

theorem leaf?_eq_some_iff {e : Engine} {key locale text : String} :
    e.leaf? key locale = some text ↔
      ∃ p, valueUnder? locale e.bundles = some p ∧ p.follow key = .node (.leaf text) := by
  rw [leaf?, Option.bind_eq_some_iff]
  refine exists_congr fun p => and_congr_right fun _ => ?_
  rw [← at?_eq_some_leaf_iff]
  cases p.tree.at? (p.splitKey key) with
  | none => simp
  | some n => cases n <;> simp

theorem firstLeaf?_cons_of_none {e : Engine} {key locale : String} {rest : List String}
    (h : e.leaf? key locale = none) :
    e.firstLeaf? key (locale :: rest) = e.firstLeaf? key rest := by
  rw [firstLeaf?, List.findSome?_cons, h]
  rfl

theorem firstLeaf?_cons_of_some {e : Engine} {key locale text : String} {rest : List String}
    (h : e.leaf? key locale = some text) :
    e.firstLeaf? key (locale :: rest) = some (locale, text) := by
  rw [firstLeaf?, List.findSome?_cons, h]
  rfl

/-! ## Outcomes -/

/--
What comes of translating a key in a row of locales with a source.

* `unknown`: no locale has a text, and the key stands for itself
* `filled`: the text of the first locale that has one is filled
* `raw`: it cannot be filled, and a lenient engine returns it as it is
* `failed`: it cannot be filled, and a strict engine fails for the key

A text that is returned brings a warning when its locale is not the requested one, and there is no
other warning.
-/
inductive Outcome (e : Engine) (key requested : String) (locales : List String)
    (source : Source σ) (w : World σ) : EStateM.Result Failure (World σ) String → Prop
  | unknown {w' : World σ} (h : e.firstLeaf? key locales = none) (hc : w'.caller = w.caller)
    (hw : w'.warnings = w.warnings) : Outcome e key requested locales source w (.ok key w')
  | filled {used leaf text : String} {w' : World σ}
    (h : e.firstLeaf? key locales = some (used, leaf))
    (hfill : Grammar.standard.fill leaf source w.caller = .ok text w'.caller)
    (hw : w'.warnings = w.warnings ++ substitution key requested used) :
    Outcome e key requested locales source w (.ok text w')
  | raw {used leaf : String} {f : Failure} {w' : World σ}
    (h : e.firstLeaf? key locales = some (used, leaf))
    (hfill : Grammar.standard.fill leaf source w.caller = .error f w'.caller)
    (hlenient : e.settings.strictInterpolation = false)
    (hw : w'.warnings = w.warnings ++ substitution key requested used) :
    Outcome e key requested locales source w (.ok leaf w')
  | failed {used leaf property inner : String} {f : Failure} {causes : List Fault} {w' : World σ}
    (h : e.firstLeaf? key locales = some (used, leaf))
    (hfill : Grammar.standard.fill leaf source w.caller = .error f w'.caller)
    (hf : f.fault.interpolated? = some (leaf, property))
    (hstrict : e.settings.strictInterpolation = true) (hw : w'.warnings = w.warnings) :
    Outcome e key requested locales source w
      (.error ⟨.translationInterpolation key leaf property inner, causes⟩ w')

/-- A locale without a text leaves everything to the locales after it. -/
theorem Outcome.skip {e : Engine} {key requested locale : String} {rest : List String}
    {source : Source σ} {w w₁ : World σ} {r : EStateM.Result Failure (World σ) String}
    (hleaf : e.leaf? key locale = none) (hc : w₁.caller = w.caller)
    (hw : w₁.warnings = w.warnings) (h : Outcome e key requested rest source w₁ r) :
    Outcome e key requested (locale :: rest) source w r := by
  have hfirst : e.firstLeaf? key (locale :: rest) = e.firstLeaf? key rest :=
    firstLeaf?_cons_of_none hleaf
  cases h with
  | unknown h hc' hw' => exact .unknown (hfirst.trans h) (hc'.trans hc) (hw'.trans hw)
  | filled h hfill hw' => exact .filled (hfirst.trans h) (hc ▸ hfill) (hw ▸ hw')
  | raw h hfill hl hw' => exact .raw (hfirst.trans h) (hc ▸ hfill) hl (hw ▸ hw')
  | failed h hfill hf hs hw' => exact .failed (hfirst.trans h) (hc ▸ hfill) hf hs (hw'.trans hw)

/-! ## Translating in one locale -/

section OneLocale

variable {e : Engine} {p : Phrases} {key : String} {source : Source σ} {w : World σ}

/-- A key without a text is not found, whatever the interpolator. -/
theorem translate_of_not_leaf (i : Interpolator σ) (h : ∀ text, p.follow key ≠ .node (.leaf text)) :
    ∃ reason message, (Translator.interpolated (.phrases p) i).translate key source w
      = .error ⟨.keyNotFound key reason, []⟩
        { w with log := w.log ++ [⟨.debug, .lookup, message⟩] } := by
  obtain ⟨reason, message, herr⟩ := Phrases.translate_of_not_leaf h w
  exact ⟨reason, message, Translator.interpolated_of_error (t := .phrases p) herr i⟩

theorem translate_of_leaf (i : Interpolator σ) {leaf : String}
    (h : p.follow key = .node (.leaf leaf)) :
    (Translator.interpolated (.phrases p) i).translate key source w
      = handling Fault.isInterpolation (i.interpolate leaf source)
        (fun f => throw (f.become (f.fault.forKey key))) w :=
  Translator.interpolated_of_ok (t := .phrases p) (Phrases.translate_of_leaf h w) i

/-- A text that can be filled is filled, by a strict engine and by a lenient one. -/
theorem translate_of_filled {leaf text : String} {s : σ} (h : p.follow key = .node (.leaf leaf))
    (hfill : Grammar.standard.fill leaf source w.caller = .ok text s) :
    (Translator.interpolated (.phrases p) e.interpolator).translate key source w
      = .ok text { w with caller := s } := by
  have hstandard : Interpolator.standard.interpolate leaf source w
      = .ok text { w with caller := s } := act_of_ok hfill
  have hinterpolate : e.interpolator.interpolate leaf source w
      = .ok text { w with caller := s } := by
    rw [interpolator]
    split
    · exact hstandard
    · exact handling_ok hstandard
  rw [translate_of_leaf _ h]
  exact handling_ok hinterpolate

/-- A strict engine fails for the key where a text cannot be filled. -/
theorem translate_of_strict {leaf property : String} {f : Failure} {s : σ}
    (h : p.follow key = .node (.leaf leaf))
    (hfill : Grammar.standard.fill leaf source w.caller = .error f s)
    (hf : f.fault.interpolated? = some (leaf, property))
    (hstrict : e.settings.strictInterpolation = true) :
    ∃ inner causes, (Translator.interpolated (.phrases p) e.interpolator).translate key source w
      = .error ⟨.translationInterpolation key leaf property inner, causes⟩
        { w with caller := s } := by
  have hkind : f.fault.isInterpolation = true := by
    rw [← Fault.interpolated?_isSome, hf]
    rfl
  have hinterpolate : e.interpolator.interpolate leaf source w
      = .error f { w with caller := s } := by
    rw [interpolator, if_pos hstrict]
    exact act_of_error hfill
  rw [translate_of_leaf _ h, handling_of_kind hinterpolate hkind, Fault.forKey, hf]
  exact ⟨_, _, rfl⟩

/-- A lenient engine returns a text that cannot be filled as it is, and notes it. -/
theorem translate_of_lenient {leaf property : String} {f : Failure} {s : σ}
    (h : p.follow key = .node (.leaf leaf))
    (hfill : Grammar.standard.fill leaf source w.caller = .error f s)
    (hf : f.fault.interpolated? = some (leaf, property))
    (hlenient : e.settings.strictInterpolation = false) :
    ∃ message, (Translator.interpolated (.phrases p) e.interpolator).translate key source w
      = .ok leaf ⟨s, w.log ++ [⟨.debug, .interpolation, message⟩]⟩ := by
  have hkind : f.fault.isInterpolation = true := by
    rw [← Fault.interpolated?_isSome, hf]
    rfl
  have hstandard : Interpolator.standard.interpolate leaf source w
      = .error f { w with caller := s } := act_of_error hfill
  have hinterpolate : e.interpolator.interpolate leaf source w
      = .ok leaf ⟨s, w.log ++ [⟨.debug, .interpolation, suppressedText f.fault⟩]⟩ := by
    rw [interpolator, hlenient]
    exact handling_of_kind hstandard hkind
  rw [translate_of_leaf _ h]
  exact ⟨_, handling_ok hinterpolate⟩

end OneLocale

/-! ## Going through locales -/

section Locales

variable {e : Engine} {key requested locale : String} {rest : List String} {source : Source σ}
  {w w' : World σ}

/-- A locale that stands for itself has the translator of its bundle. -/
theorem translator?_of_self (h : orIfEmpty (some locale) e.defaultLocale = locale) :
    e.translator? (some locale) = (valueUnder? locale e.bundles).map fun p =>
      (.interpolated (.phrases p) e.interpolator : Translator σ) := by
  rw [translator?, h]

/-- A locale without a bundle is passed over. -/
theorem translateIn_of_none (h : e.translator? (σ := σ) (some locale) = none) :
    e.translateIn key requested source (locale :: rest) w
      = e.translateIn key requested source rest w := by
  rw [translateIn, h]

/-- A locale that does not have the key is passed over. -/
theorem translateIn_of_notFound {t : Translator σ} {f : Failure}
    (h : e.translator? (some locale) = some t) (ht : t.translate key source w = .error f w')
    (hf : f.fault.isKeyNotFound = true) :
    e.translateIn key requested source (locale :: rest) w
      = e.translateIn key requested source rest w' := by
  have hfound : handling Fault.isKeyNotFound (some <$> t.translate key source)
      (fun _ => pure none) w = .ok none w' := handling_of_kind (bind_of_error ht) hf
  rw [translateIn, h]
  exact bind_of_ok hfound

/-- Any other failure ends the search. -/
theorem translateIn_of_failed {t : Translator σ} {f : Failure}
    (h : e.translator? (some locale) = some t) (ht : t.translate key source w = .error f w')
    (hf : f.fault.isKeyNotFound = false) :
    e.translateIn key requested source (locale :: rest) w = .error f w' := by
  have hfound : handling Fault.isKeyNotFound (some <$> t.translate key source)
      (fun _ => pure none) w = .error f w' := handling_of_other (bind_of_error ht) hf
  rw [translateIn, h]
  exact bind_of_error hfound

/-- A text ends the search, with a warning unless the locale is the requested one. -/
theorem translateIn_of_found {t : Translator σ} {text : String}
    (h : e.translator? (some locale) = some t) (ht : t.translate key source w = .ok text w') :
    e.translateIn key requested source (locale :: rest) w
      = .ok text { w' with log := w'.log ++ substitution key requested locale } := by
  have hfound : handling Fault.isKeyNotFound (some <$> t.translate key source)
      (fun _ => pure none) w = .ok (some text) w' :=
    handling_ok (bind_of_ok ht)
  rw [translateIn, h]
  refine (bind_of_ok hfound).trans ?_
  rw [substitution]
  by_cases hsame : locale = requested
  · simp only [hsame, bne_self_eq_false, Bool.false_eq_true, if_false, if_true, List.append_nil]
    rfl
  · simp only [bne_iff_ne.2 hsame, if_true, if_neg hsame]
    rfl

end Locales

/-- A locale whose bundle has no text for the key is passed over without a trace. -/
theorem translateIn_skips {e : Engine} {key requested locale : String}
    (hself : orIfEmpty (some locale) e.defaultLocale = locale) (hleaf : e.leaf? key locale = none)
    (rest : List String) (source : Source σ) (w : World σ) :
    ∃ w₁ : World σ, e.translateIn key requested source (locale :: rest) w
        = e.translateIn key requested source rest w₁ ∧
      w₁.caller = w.caller ∧ w₁.warnings = w.warnings := by
  have htranslator := translator?_of_self (σ := σ) hself
  cases hp : valueUnder? locale e.bundles with
  | none =>
    rw [hp] at htranslator
    exact ⟨w, translateIn_of_none htranslator, rfl, rfl⟩
  | some p =>
    rw [hp] at htranslator
    -- a bundle that has the key as a branch counts as one that does not have it
    have hnot : ∀ text, p.follow key ≠ .node (.leaf text) := by
      intro text hp'
      rw [leaf?_eq_some_iff.2 ⟨p, hp, hp'⟩] at hleaf
      cases hleaf
    obtain ⟨reason, message, herr⟩ := translate_of_not_leaf e.interpolator hnot
    exact ⟨_, translateIn_of_notFound htranslator herr rfl, rfl, warnings_debug _ _ _ _⟩

/-- A locale whose bundle has a text for the key ends the search. -/
theorem translateIn_stops {e : Engine} {key requested locale leaf : String}
    (hself : orIfEmpty (some locale) e.defaultLocale = locale)
    (hleaf : e.leaf? key locale = some leaf) (rest : List String) {layers source : Source σ}
    (halike : layers.Alike source) (w : World σ) :
    e.Outcome key requested (locale :: rest) layers w
      (e.translateIn key requested source (locale :: rest) w) := by
  obtain ⟨p, hp, hfollow⟩ := leaf?_eq_some_iff.1 hleaf
  have htranslator := translator?_of_self (σ := σ) hself
  rw [hp] at htranslator
  have hfirst : e.firstLeaf? key (locale :: rest) = some (locale, leaf) :=
    firstLeaf?_cons_of_some hleaf
  cases hfill : Grammar.standard.fill leaf layers w.caller with
  | ok text s =>
    rw [translateIn_of_found htranslator
      (translate_of_filled hfollow (halike.fill_eq_ok hfill))]
    exact .filled hfirst hfill (warnings_substitution _ _ _ _)
  | error f s =>
    obtain ⟨property, g, hg, hf, hgf⟩ := halike.fill_eq_error hfill
    cases hmode : e.settings.strictInterpolation with
    | true =>
      obtain ⟨inner, causes, herr⟩ := translate_of_strict hfollow hg hgf hmode
      rw [translateIn_of_failed htranslator herr rfl]
      exact .failed hfirst hfill hf hmode rfl
    | false =>
      obtain ⟨message, hok⟩ := translate_of_lenient hfollow hg hgf hmode
      rw [translateIn_of_found htranslator hok]
      refine .raw hfirst hfill hmode ?_
      rw [warnings_substitution, warnings_debug]

/-- **Going through a row of locales.** -/
theorem translateIn_outcome {e : Engine} {key requested : String} {layers source : Source σ}
    (halike : layers.Alike source) : ∀ (locales : List String) (w : World σ),
    (∀ locale ∈ locales, orIfEmpty (some locale) e.defaultLocale = locale) →
    e.Outcome key requested locales layers w (e.translateIn key requested source locales w)
  | [], w, _ => .unknown rfl rfl (warnings_debug _ _ _ _)
  | locale :: rest, w, hself => by
    have hlocale := hself locale List.mem_cons_self
    cases hleaf : e.leaf? key locale with
    | some leaf => exact translateIn_stops hlocale hleaf rest halike w
    | none =>
      -- nothing was asked so far, so the other locales start from the caller's state as it was
      obtain ⟨w₁, heq, hc, hw⟩ := translateIn_skips hlocale hleaf rest source w
      rw [heq]
      exact (translateIn_outcome halike rest w₁
        fun l hl => hself l (List.mem_cons_of_mem locale hl)).skip hleaf hc hw

/-! ## Translating with keyword values -/

/-- The locales that are considered stand for themselves. -/
theorem considered_self (e : Engine) (locale? : Option String) :
    ∀ locale ∈ e.considered locale?, orIfEmpty (some locale) e.defaultLocale = locale := by
  have hrequested := orIfEmpty_orIfEmpty locale? e.defaultLocale
  intro locale hl
  rw [considered] at hl
  split at hl
  · rw [List.mem_singleton.1 hl]
    exact hrequested
  · rcases List.mem_cons.1 hl with rfl | hl
    · exact hrequested
    · rw [List.mem_singleton.1 hl]
      exact orIfEmpty_self e.defaultLocale

section Keywords

variable {e : Engine} {properties : List (String × Value)}

theorem translate_of_texts {texts : List (String × String)}
    (h : propertyTexts properties = .ok texts) (key : String) (locale? : Option String)
    (source? : Option (Source σ)) (w : World σ) :
    e.translate key locale? source? properties w
      = e.translateIn key (orIfEmpty locale? e.defaultLocale)
        (engineSource properties ⟨texts⟩ source?) (e.considered locale?) w := by
  have htexts : (ofResult (propertyTexts properties) : Action σ _) w = .ok texts w := by
    rw [h]
    rfl
  refine (bind_of_ok htexts).trans ?_
  cases source? <;> rfl

/-- A keyword value without a text is the failure, whatever else there is. -/
theorem translate_of_textless (h : keywordsHaveTexts properties = false) (key : String)
    (locale? : Option String) (source? : Option (Source σ)) (w : World σ) :
    e.translate key locale? source? properties w = .error ⟨.mishap .noSuchValue, []⟩ w := by
  have htexts : (ofResult (propertyTexts properties) : Action σ _) w
      = .error ⟨.mishap .noSuchValue, []⟩ w := by
    rw [(propertyTexts_settles properties).error h]
    rfl
  exact bind_of_error htexts

end Keywords

/--
**What a translation gives.** If all keyword values have texts, the outcome is that of going through
the considered locales, with the keyword values before the source. A keyword value without a text is
the failure, before anything is looked up.
-/
theorem translate_outcome (e : Engine) (key : String) (locale? : Option String)
    {source? : Option (Source σ)} (hs : ∀ source ∈ source?, source.OnlyMisses)
    (properties : List (String × Value)) (w : World σ) :
    (keywordsHaveTexts properties = true →
      e.Outcome key (orIfEmpty locale? e.defaultLocale) (e.considered locale?)
        (layered properties source?) w (e.translate key locale? source? properties w)) ∧
    (keywordsHaveTexts properties = false →
      e.translate key locale? source? properties w = .error ⟨.mishap .noSuchValue, []⟩ w) := by
  refine ⟨fun h => ?_, fun h => translate_of_textless h key locale? source? w⟩
  obtain ⟨texts, htexts⟩ := (propertyTexts_settles properties).ok h
  rw [translate_of_texts htexts]
  have halike : (layered properties source?).Alike (engineSource properties ⟨texts⟩ source?) :=
    layered_alike (fun name => valueUnder?_propertyTexts name htexts) hs
  exact translateIn_outcome halike _ w (considered_self e locale?)

/-- Two locales, of which only the default one has a text for the key, the other a branch. -/
def bilingual : Engine where
  settings := {}
  bundles := [("en", ⟨.mk [("greet", .leaf "Hi %\x7bn\x7d and %\x7ba\x7d")], "."⟩),
    ("de", ⟨.mk [("greet", .branch [])], "."⟩)]
  distinct := by decide +kernel
  separated := by simp

theorem keywordsHaveTexts_oversized : keywordsHaveTexts [("n", oversized)] = false := by
  simp [keywordsHaveTexts, text?_oversized]

/-- The keyword value is there without a lookup, the other property takes one. -/
theorem translate_outcome_bilingual :
    bilingual.Outcome "greet" "de" ["de", "en"]
      (layered [("n", .scalar (.int 5))] (some numberedSource)) ⟨0, []⟩
      (.ok "Hi 5 and %\x7ba\x7d0" ⟨1, [⟨.debug, .lookup,
        "Key 'greet' resolves to a branch, not a translation"⟩,
        ⟨.warning, .engine, "Key 'greet' missing in locale 'de', used 'en'"⟩]⟩) ∧
    bilingual.translate "greet" none (some numberedSource) [("n", oversized)] ⟨0, []⟩
      = .error ⟨.mishap .noSuchValue, []⟩ ⟨0, []⟩ := by
  have hs : ∀ source ∈ some numberedSource, source.OnlyMisses := by
    rintro source ⟨⟩
    exact onlyMisses_numberedSource
  exact ⟨(translate_outcome bilingual "greet" (some "de") hs [("n", .scalar (.int 5))] ⟨0, []⟩).1
      rfl,
    (translate_outcome bilingual "greet" none hs [("n", oversized)] ⟨0, []⟩).2
      keywordsHaveTexts_oversized⟩

/-- No locale has the key, and yet it is not returned: a keyword value has no text. -/
theorem translate_not_key :
    (bare {}).firstLeaf? "k" ((bare {}).considered none) = none ∧
    ∀ w', (bare {}).translate "k" none none [("n", oversized)] ⟨(), []⟩ ≠ .ok "k" w' := by
  refine ⟨rfl, fun w' h => ?_⟩
  rw [translate_of_textless keywordsHaveTexts_oversized] at h
  cases h

end Engine

end Phrasebook
