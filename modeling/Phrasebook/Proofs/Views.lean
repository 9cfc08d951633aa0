import Phrasebook.Proofs.Bundles

/-!
# The views of a locale

What an engine knows of a locale can be seen in four ways: in the row of its locales, as the tree of
the locale, by the locale's translator, and by translating in the locale. `views_agree` says that an
engine that was loaded shows the same in all of them.

Where the tree has a text for a key, translating in the locale is what its translator does. Where it
has none, the translator does not find the key, and translating in the locale comes to the same end
as translating in the default locale. The way there leaves records in the log, so the two ends can
only be compared because nothing reads the log (`translateIn_runAlike`).

That no locale comes twice and that all keys are split alike is part of every engine. That locales
have names is what loading makes sure of: `addBundle_named` is one file, `foldlM_named` all of them.
-/

namespace Phrasebook

variable {σ τ α β : Type}

/-! ## Nothing reads the log -/

/-- Two ends that are alike: with the same value or the same failure, and in the same state of the
caller. -/
inductive EndAlike : EStateM.Result Failure (World σ) α →
    EStateM.Result Failure (World σ) α → Prop
  | returned (a : α) {w w' : World σ} (h : w.caller = w'.caller) : EndAlike (.ok a w) (.ok a w')
  | failed (f : Failure) {w w' : World σ} (h : w.caller = w'.caller) :
    EndAlike (.error f w) (.error f w')

theorem EndAlike.split {r r' : EStateM.Result Failure (World σ) α} (h : EndAlike r r') :
    (∃ a w w', r = .ok a w ∧ r' = .ok a w' ∧ w.caller = w'.caller) ∨
      ∃ f w w', r = .error f w ∧ r' = .error f w' ∧ w.caller = w'.caller := by
  cases h with
  | returned a h => exact Or.inl ⟨a, _, _, rfl, rfl, h⟩
  | failed f h => exact Or.inr ⟨f, _, _, rfl, rfl, h⟩

/-- Two actions that end alike, whatever is in the log when they start. -/
def RunAlike (x y : Action σ α) : Prop :=
  ∀ w w' : World σ, w.caller = w'.caller → EndAlike (x w) (y w')

namespace RunAlike

/-- An effect of the caller does not see the log. -/
theorem act (e : Effect σ α) : RunAlike e.act e.act := by
  intro w w' h
  cases he : e w.caller with
  | ok a s =>
    rw [act_of_ok he, act_of_ok (h ▸ he)]
    exact .returned a rfl
  | error f s =>
    rw [act_of_error he, act_of_error (h ▸ he)]
    exact .failed f rfl

theorem pure (a : α) : RunAlike (σ := σ) (Pure.pure a) (Pure.pure a) :=
  fun _ _ h => .returned a h

theorem throw (f : Failure) : RunAlike (σ := σ) (α := α) (MonadExcept.throw f)
    (MonadExcept.throw f) :=
  fun _ _ h => .failed f h

/-- It does not matter what is put on record. -/
theorem writeLog (level level' : Level) (origin origin' : Origin) (message message' : String) :
    RunAlike (σ := σ) (Phrasebook.writeLog level origin message)
      (Phrasebook.writeLog level' origin' message') :=
  fun _ _ h => .returned () h

theorem bind {x y : Action σ α} {f g : α → Action σ β} (hx : RunAlike x y)
    (hf : ∀ a, RunAlike (f a) (g a)) : RunAlike (x >>= f) (y >>= g) := by
  intro w w' h
  rcases (hx w w' h).split with ⟨a, v, v', hv, hv', hc⟩ | ⟨k, v, v', hv, hv', hc⟩
  · rw [bind_of_ok hv, bind_of_ok hv']
    exact hf a v v' hc
  · rw [bind_of_error hv, bind_of_error hv']
    exact .failed k hc

theorem handling {kind : Fault → Bool} {x y : Action σ α} {f g : Failure → Action σ α}
    (hx : RunAlike x y) (hf : ∀ k, RunAlike (f k) (g k)) :
    RunAlike (Phrasebook.handling kind x f) (Phrasebook.handling kind y g) := by
  intro w w' h
  rcases (hx w w' h).split with ⟨a, v, v', hv, hv', hc⟩ | ⟨k, v, v', hv, hv', hc⟩
  · rw [handling_ok hv, handling_ok hv']
    exact .returned a hc
  · rw [handling_error hv, handling_error hv']
    split
    · exact hf k v v' hc
    · exact .failed k hc

end RunAlike

theorem Interpolator.interpolate_runAlike (i : Interpolator σ) (template : String)
    (source : Source σ) :
    RunAlike (i.interpolate template source) (i.interpolate template source) := by
  induction i with
  | placeholder g => exact .act _
  | lenient inner ih =>
    exact ih.handling fun f => (RunAlike.writeLog _ _ _ _ _ _).bind fun _ => .pure template
  | function f => exact .act _

theorem Phrases.translate_runAlike (p : Phrases) (key : String) :
    RunAlike (σ := σ) (p.translate key) (p.translate key) := by
  have hfailure : ∀ reason record : String,
      RunAlike (σ := σ) (α := String) (keyFailure key reason record)
        (keyFailure key reason record) :=
    fun reason record => (RunAlike.writeLog _ _ _ _ _ _).bind fun _ => .throw _
  unfold Phrases.translate
  cases p.follow key with
  | node n =>
    cases n with
    | leaf text => exact .pure text
    | branch children => exact hfailure _ _
  | missing segment => exact hfailure _ _
  | pastLeaf depth => exact hfailure _ _

theorem Translator.translate_runAlike (t : Translator σ) (key : String) (source : Source σ) :
    RunAlike (t.translate key source) (t.translate key source) := by
  induction t with
  | phrases p => exact p.translate_runAlike key
  | function f => exact .act _
  | withDefault text inner ih =>
    exact ih.handling fun f => (RunAlike.writeLog _ _ _ _ _ _).bind fun _ => .pure text
  | keyAsDefault inner ih =>
    exact ih.handling fun f => (RunAlike.writeLog _ _ _ _ _ _).bind fun _ => .pure key
  | interpolated inner i ih =>
    exact ih.bind fun template =>
      (i.interpolate_runAlike template source).handling fun f => .throw _

namespace Engine

/-- Going through a row of locales ends alike, whatever is in the log and whichever locale is named
as the requested one. -/
theorem translateIn_runAlike (e : Engine) (key requested requested' : String)
    (source : Source σ) : ∀ locales : List String,
    RunAlike (e.translateIn key requested source locales)
      (e.translateIn key requested' source locales)
  | [] => (RunAlike.writeLog _ _ _ _ _ _).bind fun _ => .pure key
  | locale :: rest => by
    have ih := translateIn_runAlike e key requested requested' source rest
    intro w w' h
    cases ht : e.translator? (σ := σ) (some locale) with
    | none =>
      rw [translateIn_of_none ht, translateIn_of_none ht]
      exact ih w w' h
    | some t =>
      rcases (t.translate_runAlike key source w w' h).split with
        ⟨text, v, v', hv, hv', hc⟩ | ⟨f, v, v', hv, hv', hc⟩
      · rw [translateIn_of_found ht hv, translateIn_of_found ht hv']
        exact .returned text hc
      · cases hf : f.fault.isKeyNotFound with
        | true =>
          rw [translateIn_of_notFound ht hv hf, translateIn_of_notFound ht hv' hf]
          exact ih v v' hc
        | false =>
          rw [translateIn_of_failed ht hv hf, translateIn_of_failed ht hv' hf]
          exact .failed f hc

/-! ## What loading makes sure of -/

/-- Every locale has a name. That of a bundle is the stem of a file's name, which is not empty. -/
def Named (e : Engine) : Prop := ∀ b ∈ e.bundles, b.1 ≠ ""

section Loading

variable {directory : Path} {entry : String × FileTree} {rest entries : List (String × FileTree)}
  {files : FileSystem} {settings : Settings} {e e' : Engine} {w w' : World τ}

theorem named_of_no_bundles (settings : Settings) : (bare settings).Named :=
  fun _ hb => absurd hb List.not_mem_nil

/-- **One file.** -/
theorem addBundle_named (h : e.Named) (hb : isBundle entry.1 = true)
    (hok : addBundle directory e entry w = .ok e' w') : e'.Named := by
  cases hfree : valueUnder? (localeOf entry.1) e.bundles with
  | some p =>
    have htaken : (valueUnder? (localeOf entry.1) e.bundles).isSome = true := by
      rw [hfree]
      rfl
    rw [addBundle_of_taken htaken] at hok
    cases hok
    exact h
  | none =>
    obtain ⟨content, tree, -, -, rfl, rfl⟩ := addBundle_of_free hfree hok
    intro b hmem
    rcases mem_putEntry hmem with rfl | hmem
    · exact (mem_namesOf_localeOf hb).2
    · exact h b hmem

/-- **All files.** -/
theorem foldlM_named (h : e.Named) (hrest : ∀ entry ∈ rest, isBundle entry.1 = true)
    (hok : rest.foldlM (addBundle directory) e w = .ok e' w') : e'.Named := by
  induction rest generalizing e w with
  | nil =>
    cases hok
    exact h
  | cons entry rest ih =>
    rw [List.foldlM_cons] at hok
    obtain ⟨e₁, w₁, hstep, hrun⟩ := bind_eq_ok hok
    exact ih (addBundle_named h (hrest entry List.mem_cons_self) hstep)
      (fun other hother => hrest other (List.mem_cons_of_mem _ hother)) hrun

/-- In an engine that was loaded every locale has a name, wherever its bundles were looked for. -/
theorem load_named (hok : load files settings w = .ok e w') : e.Named := by
  rcases hfind : files.find? (Path.ofString settings.bundlesDir) with m | _ | ⟨content | entries⟩
    <;> simp only [load, hfind] at hok
  · cases hok
  · cases hok
    exact named_of_no_bundles settings
  · cases hok
  · exact foldlM_named (named_of_no_bundles settings)
      (fun entry hentry => (mem_candidates_iff.1 hentry).2) hok

end Loading

/-! ## Locales, trees and translators -/

section Locales

variable {e : Engine} {locale : String}

/-- **The locales are in strict order.** -/
theorem pairwise_locales (e : Engine) : e.locales.Pairwise (· < ·) :=
  pairwise_mergeSort_of_nodup id (by rw [List.map_id]; exact e.distinct)

/-- A locale that is named stands for itself. -/
theorem orIfEmpty_of_ne (h : locale ≠ "") (other : String) :
    orIfEmpty (some locale) other = locale := by
  have hempty : locale.isEmpty = false := by simpa using h
  rw [orIfEmpty, hempty]
  rfl

/-- A locale that is named has a translator exactly if it is among the locales. -/
theorem mem_locales_iff_translator? (h : locale ≠ "") :
    locale ∈ e.locales ↔ (e.translator? (σ := σ) (some locale)).isSome = true := by
  rw [translator?_of_self (orIfEmpty_of_ne h _), Option.isSome_map, mem_locales_iff]

theorem bundle_of_not_mem (h : locale ∉ e.locales) : e.bundle locale = .empty := by
  have hnone : valueUnder? locale e.bundles = none :=
    Option.not_isSome_iff_eq_none.1 fun hsome => h (mem_locales_iff.2 hsome)
  rw [bundle, hnone]
  rfl

/-- The segments of a key, split as the settings say. -/
def segments (e : Engine) (key : String) : List String :=
  (Text.split e.settings.separator.toList key.toList).map String.ofList

/-- The text that the walk through the tree of a locale ends on, along the segments of a key. -/
def textAt? (e : Engine) (locale key : String) : Option String :=
  match (e.bundle locale).node.at? (e.segments key) with
  | some (.leaf text) => some text
  | _ => none

/-- The walk leads where the phrases of the locale lead. -/
theorem textAt?_eq {p : Phrases} (hp : valueUnder? locale e.bundles = some p) (key : String) :
    e.textAt? locale key = e.leaf? key locale := by
  have htree : e.bundle locale = p.tree := by
    rw [bundle, hp]
    rfl
  have hsegments : e.segments key = p.splitKey key := by
    rw [segments, Phrases.splitKey, e.separated _ (mem_of_valueUnder? hp)]
  rw [textAt?, leaf?, hp, htree, hsegments, ← Tree.at?_eq]
  rfl

end Locales

/-! ## One key -/

/--
What translating a key in a locale has to do with the translator of the locale.

* `found`: if the tree has a text for the key, both are the same, and end with a text or with the
  failure to interpolate this one
* `notFound`: if it has none, the translator does not find the key
* `elsewhere`: translating in the locale then ends like translating in the default locale, if that
  is another one
* `itself`: and if it is the same, the key is returned

Whatever a source keeps of the lookups is in the caller's state. Where this state is as before,
nothing was asked, and where two ends have it in common, the same was.
-/
structure ViewsAgree (e : Engine) (locale key : String) (translator : Translator σ)
    (source : Source σ) (w : World σ) : Prop where
  found : ∀ text, e.textAt? locale key = some text →
    e.translate key (some locale) (some source) [] w = translator.translate key source w ∧
    ((∃ result w', translator.translate key source w = .ok result w') ∨
      ∃ property inner causes w', translator.translate key source w
        = .error ⟨.translationInterpolation key text property inner, causes⟩ w')
  notFound : e.textAt? locale key = none → ∃ reason w', translator.translate key source w
    = .error ⟨.keyNotFound key reason, []⟩ w' ∧ w'.caller = w.caller
  elsewhere : e.textAt? locale key = none → locale ≠ e.defaultLocale →
    EndAlike (e.translate key (some locale) (some source) [] w)
      (e.translate key none (some source) [] w)
  itself : e.textAt? locale key = none → locale = e.defaultLocale →
    ∃ w', e.translate key (some locale) (some source) [] w = .ok key w' ∧ w'.caller = w.caller

section Key

variable {e : Engine} {p : Phrases} {locale key text : String} {source : Source σ} {w : World σ}

theorem translate_source (e : Engine) (key : String) (locale? : Option String)
    (source : Source σ) (w : World σ) :
    e.translate key locale? (some source) [] w
      = e.translateIn key (orIfEmpty locale? e.defaultLocale) source (e.considered locale?) w := by
  have htexts : propertyTexts [] = .ok [] := rfl
  exact translate_of_texts htexts key locale? (some source) w

/-- A text that is found is interpolated, or fails to be. -/
theorem interpolated_ends (hs : source.OnlyMisses) (h : p.follow key = .node (.leaf text))
    (w : World σ) :
    (∃ result w', (Translator.interpolated (.phrases p) e.interpolator).translate key source w
      = .ok result w') ∨
    ∃ property inner causes w',
      (Translator.interpolated (.phrases p) e.interpolator).translate key source w
        = .error ⟨.translationInterpolation key text property inner, causes⟩ w' := by
  cases hfill : Grammar.standard.fill text source w.caller with
  | ok result s => exact Or.inl ⟨_, _, translate_of_filled h hfill⟩
  | error f s =>
    obtain ⟨property, -, -, hf, -⟩ := hs.alike.fill_eq_error hfill
    cases hmode : e.settings.strictInterpolation with
    | true =>
      obtain ⟨inner, causes, herr⟩ := translate_of_strict h hfill hf hmode
      exact Or.inr ⟨property, inner, causes, _, herr⟩
    | false =>
      obtain ⟨message, hok⟩ := translate_of_lenient h hfill hf hmode
      exact Or.inl ⟨_, _, hok⟩

/-- The locale that is asked for comes first. -/
theorem considered_of_ne (h : locale ≠ "") : e.considered (some locale)
    = locale :: if locale = e.defaultLocale then [] else [e.defaultLocale] := by
  rw [considered, orIfEmpty_of_ne h]
  split <;> rfl

/-- If no locale is asked for, the default locale is the only one. -/
theorem considered_none (e : Engine) : e.considered none = [e.defaultLocale] :=
  if_pos rfl

/-- A text of the locale that is asked for is translated by its translator, and by nothing else. -/
theorem translateIn_of_ends {t : Translator σ} {rest : List String}
    (ht : e.translator? (some locale) = some t)
    (hends : (∃ result w', t.translate key source w = .ok result w') ∨
      ∃ property inner causes w', t.translate key source w
        = .error ⟨.translationInterpolation key text property inner, causes⟩ w') :
    e.translateIn key locale source (locale :: rest) w = t.translate key source w := by
  rcases hends with ⟨result, w', hok⟩ | ⟨property, inner, causes, w', herr⟩
  · rw [translateIn_of_found ht hok, hok, substitution, if_pos rfl, List.append_nil]
  · rw [translateIn_of_failed ht herr rfl, herr]

/-- The translator of a locale with a name. -/
theorem Named.translator?_eq (h : e.Named) (hp : valueUnder? locale e.bundles = some p) :
    e.translator? (some locale)
      = some (.interpolated (.phrases p) e.interpolator : Translator σ) := by
  rw [translator?_of_self (orIfEmpty_of_ne (h _ (mem_of_valueUnder? hp)) _), hp]
  rfl

/-- **The views of a locale agree on every key.** -/
theorem Named.viewsAgree (h : e.Named) (hp : valueUnder? locale e.bundles = some p) (key : String)
    (hs : source.OnlyMisses) (w : World σ) :
    e.ViewsAgree locale key (.interpolated (.phrases p) e.interpolator) source w := by
  have htranslator := h.translator?_eq (σ := σ) hp
  have hne : locale ≠ "" := h _ (mem_of_valueUnder? hp)
  have hself := orIfEmpty_of_ne hne e.defaultLocale
  have hleaf := textAt?_eq hp key
  refine { found := ?found, notFound := ?notFound, elsewhere := ?elsewhere, itself := ?itself }
  case found =>
    intro text htext
    rw [hleaf] at htext
    obtain ⟨p', hp', hfollow⟩ := leaf?_eq_some_iff.1 htext
    cases hp.symm.trans hp'
    have hends := interpolated_ends (e := e) hs hfollow w
    refine ⟨?_, hends⟩
    rw [translate_source, hself, considered_of_ne hne, translateIn_of_ends htranslator hends]
  case notFound =>
    intro htext
    rw [hleaf] at htext
    have hnot : ∀ text, p.follow key ≠ .node (.leaf text) := by
      intro text hfollow
      rw [leaf?_eq_some_iff.2 ⟨p, hp, hfollow⟩] at htext
      cases htext
    obtain ⟨reason, message, herr⟩ := translate_of_not_leaf e.interpolator hnot
    exact ⟨reason, _, herr, rfl⟩
  case elsewhere =>
    intro htext hother
    rw [hleaf] at htext
    obtain ⟨w₁, hskip, hc, -⟩ := translateIn_skips hself htext [e.defaultLocale] source w
    rw [translate_source, hself, considered_of_ne hne, if_neg hother, hskip, translate_source,
      considered_none]
    -- the same locale is left to try, with another log and another locale that was asked for
    exact translateIn_runAlike e key _ _ source _ w₁ w hc
  case itself =>
    intro htext hsame
    rw [hleaf] at htext
    obtain ⟨w₁, hskip, hc, -⟩ := translateIn_skips hself htext [] source w
    rw [translate_source, hself, considered_of_ne hne, if_pos hsame, hskip]
    exact ⟨_, rfl, hc⟩

end Key

/--
**The views of an engine agree.** In an engine that was loaded, the locales are in strict order. A
locale that is named has a translator exactly if it is among them, and has an empty tree if it is
not. For each of them, translating a key in the locale is what its translator and its tree say, with
every source that only misses, in every world, and so also with a trace of the lookups.
-/
theorem views_agree {files : FileSystem} {settings : Settings} {e : Engine} {v v' : World τ}
    (hload : load files settings v = .ok e v') :
    e.locales.Pairwise (· < ·) ∧
    (∀ locale, locale ≠ "" →
      (locale ∈ e.locales ↔ (e.translator? (σ := σ) (some locale)).isSome = true) ∧
      (locale ∉ e.locales → e.bundle locale = .empty)) ∧
    ∀ locale ∈ e.locales, ∀ (key : String) (source : Source σ), source.OnlyMisses →
      (∀ w : World σ, ∃ translator, e.translator? (some locale) = some translator ∧
        e.ViewsAgree locale key translator source w) ∧
      ∀ w : World (σ × List String), ∃ translator, e.translator? (some locale) = some translator ∧
        e.ViewsAgree locale key translator source.traced w := by
  have h := load_named hload
  refine ⟨e.pairwise_locales, fun locale hne => ⟨mem_locales_iff_translator? hne,
    bundle_of_not_mem⟩, fun locale hmem key source hs => ?_⟩
  obtain ⟨p, hp⟩ := Option.isSome_iff_exists.1 (mem_locales_iff.1 hmem)
  exact ⟨fun w => ⟨_, h.translator?_eq hp, h.viewsAgree hp key hs w⟩,
    fun w => ⟨_, h.translator?_eq hp, h.viewsAgree hp key hs.traced w⟩⟩

/-- A directory with two locales, one of which has no text. -/
def twoLocales : List (String × FileTree) :=
  [("en.yml", .file "greet: Hi %\x7ba\x7d".toUTF8.toList), ("de.yml", .file [])]

theorem candidates_twoLocales : candidates twoLocales
    = [("de.yml", .file []), ("en.yml", .file "greet: Hi %\x7ba\x7d".toUTF8.toList)] := by
  refine eq_of_pairwise_of_mem_iff (pairwise_candidates (by decide +kernel)) (by decide +kernel)
    fun entry => ?_
  rw [mem_candidates_iff]
  constructor
  · rintro ⟨hmem, -⟩
    simpa [twoLocales, or_comm] using hmem
  · simp only [List.mem_cons, List.not_mem_nil, or_false]
    rintro (rfl | rfl)
    · exact ⟨by simp [twoLocales], by decide +kernel⟩
    · exact ⟨by simp [twoLocales], by decide +kernel⟩

/-- What the engine that was loaded, if one was, has under a key: its default locale, and each
locale with its text. -/
def loadedTexts? (key : String) :
    EStateM.Result Failure (World τ) Engine → Option (String × List (String × Option String))
  | .ok e _ => some (e.defaultLocale, e.bundles.map fun b => (b.1, e.textAt? b.1 key))
  | .error _ _ => none

/-- The translator of the locale without a text asks for nothing, and translating in this locale
ends like translating in the default locale. -/
theorem views_agree_twoLocales : ∃ e v',
    load (holding twoLocales) { bundlesDir := "b" } (⟨(), []⟩ : World Unit) = .ok e v' ∧
    e.locales.Pairwise (· < ·) ∧ "de" ∈ e.locales ∧ e.textAt? "de" "greet" = none ∧
    (∃ reason w', (e.translator? (some "de")).map (fun t =>
        t.translate "greet" numberedSource.traced ⟨(0, []), []⟩)
      = some (.error ⟨.keyNotFound "greet" reason, []⟩ w') ∧ w'.caller = (0, [])) ∧
    EndAlike (e.translate "greet" (some "de") (some numberedSource.traced) [] ⟨(0, []), []⟩)
      (e.translate "greet" none (some numberedSource.traced) [] ⟨(0, []), []⟩) := by
  have hloads : loadedTexts? "greet" (load (holding twoLocales) { bundlesDir := "b" }
      (⟨(), []⟩ : World Unit))
      = some ("en", [("de", none), ("en", some "Hi %\x7ba\x7d")]) := by
    rw [@load_of_find? Unit _ { bundlesDir := "b" } twoLocales rfl, candidates_twoLocales]
    decide +kernel
  cases hload : load (holding twoLocales) { bundlesDir := "b" } (⟨(), []⟩ : World Unit) with
  | error f v' =>
    rw [hload] at hloads
    cases hloads
  | ok e v' =>
    rw [hload] at hloads
    injection hloads with hloads
    injection hloads with hdefault htexts
    have hentry : ("de", none) ∈ e.bundles.map fun b => (b.1, e.textAt? b.1 "greet") := by
      rw [htexts]
      exact List.mem_cons_self
    obtain ⟨b, hb, hde⟩ := List.mem_map.1 hentry
    obtain ⟨hname, htext⟩ := Prod.mk.inj hde
    rw [hname] at htext
    have hmem : "de" ∈ e.locales := by
      rw [mem_locales_iff, isSome_valueUnder?_iff, ← hname]
      exact List.mem_map_of_mem hb
    obtain ⟨hsorted, -, hviews⟩ := views_agree (σ := Nat) hload
    obtain ⟨t, ht, hagree⟩ :=
      (hviews "de" hmem "greet" numberedSource onlyMisses_numberedSource).2 ⟨(0, []), []⟩
    obtain ⟨reason, w', herror, hcaller⟩ := hagree.notFound htext
    refine ⟨e, v', rfl, hsorted, hmem, htext, ⟨reason, w', ?_, hcaller⟩,
      hagree.elsewhere htext ?_⟩
    · rw [ht, Option.map_some, herror]
    · rw [hdefault]
      decide

end Engine

end Phrasebook
