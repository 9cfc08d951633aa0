import Phrasebook.Proofs.Entries
import Phrasebook.Proofs.LookupOrder
import Phrasebook.Proofs.Requests

/-!
# Keyword values and source in one chain

An engine puts its properties together in three ways: without a source it uses the map of the
keyword values, without keyword values the source, and only with both a chain. A template cannot
tell them from the chain of both: all are alike to the keyword values before the source
(`chained_alike`), so a translation comes to the same end (`Outcome.same`) and asks for the same
names (`Source.Alike.asks`).

Of the names that are asked for, the keyword values keep theirs to themselves, and the source sees
the others (`layered_notes`).
-/

namespace Phrasebook

variable {σ : Type}

/-! ## Names asked for -/

/-- Alike sources are asked for the same names. -/
theorem Source.Alike.asks {a b : Source σ} (h : a.Alike b) {i : Interpolator σ} {template : String}
    {s : σ} {names : List String} (ha : i.Asks template a s names) :
    i.Asks template b s names := by
  induction ha with
  | all ha => exact .all (h.answers ha)
  | upTo hds ha hd =>
    obtain ⟨-, g, hg, -⟩ := h.refusal hd
    exact .upTo hds (h.answers ha) hg
  | lenient _ ih => exact .lenient ih

/-- What is noted of filling a template are names that it asks for. -/
theorem Source.Notes.exists_asks {selected : String → Bool} {a : Source σ}
    {b : Source (σ × List String)} (h : a.Notes selected b) (g : Grammar) (template : String)
    (s : σ) (noted : List String) :
    ∃ names, (Interpolator.placeholder g).Asks template a s names ∧
      (stateAfter (g.fill template b (s, noted))).2 = noted ++ names.filter selected := by
  cases hfill : g.fill template a s with
  | ok result s' =>
    obtain ⟨texts, ha, -⟩ := Grammar.fill_eq_ok_iff.1 hfill
    exact ⟨_, .all ha, by rw [h.fill_of_answers ha noted]; rfl⟩
  | error f s' =>
    obtain ⟨before, d, after, texts, s₁, hds, ha, hd⟩ := Grammar.fill_eq_error hfill
    exact ⟨_, .upTo hds ha hd, by rw [h.fill_of_refusal hds ha hd noted]; rfl⟩

/-- A keyword value among values that all have texts. -/
theorem exists_keywordText {properties : List (String × Value)} {name : String} {v : Value}
    (h : keywordsHaveTexts properties = true) (hv : valueUnder? name properties = some v) :
    ∃ text, v.text = .ok text ∧ keywordText? properties name = some text := by
  have htext : v.text?.isSome = true :=
    List.all_eq_true.1 h (name, v) (mem_of_valueUnder? hv)
  obtain ⟨text, htext⟩ := Option.isSome_iff_exists.1 htext
  exact ⟨text, text_eq_ok_iff.2 htext, by rw [keywordText?, hv, Option.bind_some, htext]⟩

/-- Where all keyword values have texts, the names without a text are those of no keyword. -/
theorem isNone_keywordText? {properties : List (String × Value)}
    (h : keywordsHaveTexts properties = true) (name : String) :
    (keywordText? properties name).isNone = (valueUnder? name properties).isNone := by
  cases hv : valueUnder? name properties with
  | none =>
    rw [keywordText?, hv]
    rfl
  | some v =>
    obtain ⟨text, -, hk⟩ := exists_keywordText h hv
    rw [hk]
    rfl

/-- The source behind keyword values is asked for the names that are not among them. -/
theorem layered_notes (properties : List (String × Value)) (source : Source σ) :
    (layered properties (some source)).Notes (fun name => (keywordText? properties name).isNone)
      (layered properties (some source.traced)) := by
  intro name s names
  cases hk : keywordText? properties name with
  | some text =>
    have hkept : [name].filter (fun name => (keywordText? properties name).isNone) = [] := by
      simp [hk]
    rw [layered_of_keyword hk, layered_of_keyword hk, hkept, List.append_nil]
  | none =>
    have hseen : [name].filter (fun name => (keywordText? properties name).isNone) = [name] := by
      simp [hk]
    rw [layered_of_source hk, layered_of_source hk, hseen]
    rfl

/-! ## The chain -/

/-- The texts of the keyword values and the source, if there is one, in one chain. -/
def chained (texts : PropertyMap) (source? : Option (Source σ)) : Source σ :=
  Source.chain (texts.source :: source?.toList)

theorem chained_of_keyword {texts : PropertyMap} {name text : String}
    (h : texts.get? name = some text) (source? : Option (Source σ)) (s : σ) :
    chained texts source? name s = .ok text s :=
  Source.chain_of_found (PropertyMap.source_of_some h s)

/-- **The chain is the keyword values before the source.** -/
theorem chained_alike {properties : List (String × Value)} {texts : PropertyMap}
    (htexts : ∀ name, texts.get? name = keywordText? properties name)
    {source? : Option (Source σ)} (hs : ∀ source ∈ source?, source.OnlyMisses) :
    (layered properties source?).Alike (chained texts source?) := by
  intro name s
  cases hk : keywordText? properties name with
  | some text =>
    rw [layered_of_keyword hk, chained_of_keyword ((htexts name).trans hk)]
    exact .found text s
  | none =>
    have hmiss : texts.source name s = .error _ s :=
      PropertyMap.source_of_none ((htexts name).trans hk) s
    rw [chained, Source.chain_of_missed hmiss rfl]
    cases source? with
    | none =>
      rw [layered_of_none hk]
      exact .missed s rfl rfl
    | some source =>
      rw [layered_of_source hk]
      exact (hs source rfl).alike_chain name s

namespace Engine

/-- Translates a key with all properties in one chain. -/
def translateChained (e : Engine) (key : String) (locale? : Option String)
    (source? : Option (Source σ)) (properties : List (String × Value)) : Action σ String := do
  let texts ← ofResult (propertyTexts properties)
  e.translateIn key (orIfEmpty locale? e.defaultLocale) (chained ⟨texts⟩ source?)
    (e.considered locale?)

section TranslateChained

variable {e : Engine} {properties : List (String × Value)}

theorem translateChained_of_texts {texts : List (String × String)}
    (h : propertyTexts properties = .ok texts) (key : String) (locale? : Option String)
    (source? : Option (Source σ)) (w : World σ) :
    e.translateChained key locale? source? properties w
      = e.translateIn key (orIfEmpty locale? e.defaultLocale) (chained ⟨texts⟩ source?)
        (e.considered locale?) w := by
  rw [translateChained, h]
  rfl

theorem translateChained_of_textless (h : keywordsHaveTexts properties = false) (key : String)
    (locale? : Option String) (source? : Option (Source σ)) (w : World σ) :
    e.translateChained key locale? source? properties w
      = .error ⟨.mishap .noSuchValue, []⟩ w := by
  rw [translateChained, (propertyTexts_settles properties).error h]
  rfl

/-- The chain gives an outcome of the keyword values before the source. -/
theorem translateChained_considers (e : Engine) (key : String) (locale? : Option String)
    {source? : Option (Source σ)} (hs : ∀ source ∈ source?, source.OnlyMisses)
    (h : keywordsHaveTexts properties = true) (w : World σ) :
    e.Outcome key (orIfEmpty locale? e.defaultLocale) (e.considered locale?)
      (layered properties source?) w (e.translateChained key locale? source? properties w) := by
  obtain ⟨texts, htexts⟩ := (propertyTexts_settles properties).ok h
  rw [translateChained_of_texts htexts]
  exact translateIn_outcome
    (chained_alike (fun name => valueUnder?_propertyTexts name htexts) hs) _ w
    (considered_self e locale?)

end TranslateChained

/-! ## The same end -/

/--
Two results of translating that come to the same end, in the same state of the caller and with the
same warnings.

* `returned`: the same text
* `failed`: a failure for the same key, template and property, though not for the same reason, as a
  chain does not hand on the reason of its last source
* `textless`: the failure that a keyword value has no text
-/
inductive SameEnd : EStateM.Result Failure (World σ) String →
    EStateM.Result Failure (World σ) String → Prop
  | returned (text : String) {w w' : World σ} (hc : w.caller = w'.caller)
    (hw : w.warnings = w'.warnings) : SameEnd (.ok text w) (.ok text w')
  | failed (key template property : String) {inner inner' : String} {causes causes' : List Fault}
    {w w' : World σ} (hc : w.caller = w'.caller) (hw : w.warnings = w'.warnings) :
    SameEnd (.error ⟨.translationInterpolation key template property inner, causes⟩ w)
      (.error ⟨.translationInterpolation key template property inner', causes'⟩ w')
  | textless (w : World σ) : SameEnd (.error ⟨.mishap .noSuchValue, []⟩ w)
      (.error ⟨.mishap .noSuchValue, []⟩ w)

/-- Translations with the same outcome come to the same end. -/
theorem Outcome.same {e : Engine} {key requested : String} {locales : List String}
    {source : Source σ} {w : World σ} {r r' : EStateM.Result Failure (World σ) String}
    (ha : e.Outcome key requested locales source w r)
    (hb : e.Outcome key requested locales source w r') : SameEnd r r' := by
  cases h : e.firstLeaf? key locales with
  | none =>
    obtain ⟨_, rfl, hc, hw⟩ := ha.of_unknown h
    obtain ⟨_, rfl, hc', hw'⟩ := hb.of_unknown h
    exact .returned key (hc.trans hc'.symm) (hw.trans hw'.symm)
  | some found =>
    cases hfill : Grammar.standard.fill found.2 source w.caller with
    | ok text s =>
      obtain ⟨_, rfl, hc, hw⟩ := ha.of_filled h hfill
      obtain ⟨_, rfl, hc', hw'⟩ := hb.of_filled h hfill
      exact .returned text (hc.trans hc'.symm) (hw.trans hw'.symm)
    | error f s =>
      rcases ha.of_unfilled h hfill with
        ⟨hlenient, _, rfl, hc, hw⟩ | ⟨hstrict, _, _, _, _, rfl, hf, hc, hw⟩
      · rcases hb.of_unfilled h hfill with ⟨-, _, rfl, hc', hw'⟩ | ⟨hstrict, -⟩
        · exact .returned found.2 (hc.trans hc'.symm) (hw.trans hw'.symm)
        · rw [hlenient] at hstrict
          cases hstrict
      · rcases hb.of_unfilled h hfill with ⟨hlenient, -⟩ | ⟨-, _, _, _, _, rfl, hf', hc', hw'⟩
        · rw [hstrict] at hlenient
          cases hlenient
        · rw [hf] at hf'
          cases hf'
          exact .failed key found.2 _ (hc.trans hc'.symm) (hw.trans hw'.symm)

/-! ## What the source sees -/

/-- The names that a translation asks for: those that filling the text that is found asks for, and
none if there is no text. -/
inductive AsksFor (e : Engine) (key : String) (locales : List String) (source : Source σ) (s : σ) :
    List String → Prop
  | unknown (h : e.firstLeaf? key locales = none) : AsksFor e key locales source s []
  | filled {used leaf : String} {names : List String}
    (h : e.firstLeaf? key locales = some (used, leaf))
    (ha : Interpolator.standard.Asks leaf source s names) : AsksFor e key locales source s names

/-- The source sees the names that a translation asks for, but for those of keyword values. -/
theorem trace_translate (e : Engine) (key : String) (locale? : Option String) {source : Source σ}
    (hs : source.OnlyMisses) {properties : List (String × Value)}
    (h : keywordsHaveTexts properties = true) (s : σ) (log : List Record) :
    ∃ names, e.AsksFor key (e.considered locale?) (layered properties (some source)) s names ∧
      (stateAfter (e.translate key locale? (some source.traced) properties
        ⟨(s, []), log⟩)).caller.2
        = names.filter fun name => (keywordText? properties name).isNone := by
  have htraced : ∀ traced ∈ some source.traced, traced.OnlyMisses := by
    rintro traced ⟨⟩
    exact hs.traced
  have hcaller := (translate_considers e key locale? htraced h ⟨(s, []), log⟩).caller_eq
  cases hfirst : e.firstLeaf? key (e.considered locale?) with
  | none =>
    rw [hfirst] at hcaller
    exact ⟨[], .unknown hfirst, congrArg Prod.snd hcaller⟩
  | some found =>
    rw [hfirst] at hcaller
    obtain ⟨names, hasks, hnoted⟩ :=
      (layered_notes properties source).exists_asks .standard found.2 s []
    exact ⟨names, .filled hfirst hasks, (congrArg Prod.snd hcaller).trans hnoted⟩

/-- Alike sources are asked for the same names by a translation. -/
theorem AsksFor.of_alike {e : Engine} {key : String} {locales : List String} {a b : Source σ}
    {s : σ} {names : List String} (h : e.AsksFor key locales a s names) (halike : a.Alike b) :
    e.AsksFor key locales b s names := by
  cases h with
  | unknown h => exact .unknown h
  | filled h ha => exact .filled h (halike.asks ha)

/--
**Keyword values and source are one chain.** However an engine puts its properties together, a
translation comes to the same end as with all of them in one chain. In the chain a keyword is
answered with the text of its value, the empty one included, and no lookup takes place; and of the
names that a translation asks the chain for, in the order of the declarations and up to the first
that is refused, the source sees those that are no keywords.
-/
theorem translate_chained (e : Engine) (key : String) (locale? : Option String)
    {source? : Option (Source σ)} (hs : ∀ source ∈ source?, source.OnlyMisses)
    (properties : List (String × Value)) :
    (∀ w, SameEnd (e.translate key locale? source? properties w)
      (e.translateChained key locale? source? properties w)) ∧
    ∀ texts, propertyTexts properties = .ok texts →
      (∀ name v, valueUnder? name properties = some v →
        ∃ text, v.text = .ok text ∧ ∀ s, chained ⟨texts⟩ source? name s = .ok text s) ∧
      ∀ source ∈ source?, ∀ s log, ∃ names,
        e.AsksFor key (e.considered locale?) (chained ⟨texts⟩ source?) s names ∧
        (stateAfter (e.translate key locale? (some source.traced) properties
          ⟨(s, []), log⟩)).caller.2
          = names.filter fun name => (valueUnder? name properties).isNone := by
  constructor
  · intro w
    cases h : keywordsHaveTexts properties with
    | true =>
      exact (translate_considers e key locale? hs h w).same
        (translateChained_considers e key locale? hs h w)
    | false =>
      rw [translate_of_textless h, translateChained_of_textless h]
      exact .textless w
  · intro texts htexts
    have h : keywordsHaveTexts properties = true := by
      rw [← Bool.not_eq_false]
      intro hfalse
      rw [(propertyTexts_settles properties).error hfalse] at htexts
      cases htexts
    have hunder : ∀ name, (PropertyMap.mk texts).get? name = keywordText? properties name :=
      fun name => valueUnder?_propertyTexts name htexts
    refine ⟨fun name v hv => ?_, fun source hsource s log => ?_⟩
    · obtain ⟨text, htext, hk⟩ := exists_keywordText h hv
      exact ⟨text, htext, chained_of_keyword ((hunder name).trans hk) source?⟩
    · obtain ⟨names, hasks, htrace⟩ := trace_translate e key locale? (hs source hsource) h s log
      rw [← Option.mem_def.1 hsource] at hasks
      simp only [isNone_keywordText? h] at htrace
      exact ⟨names, hasks.of_alike (chained_alike hunder hs), htrace⟩

/-- The empty text of the keyword value will do, and the source is asked for the other name only. -/
theorem translate_chained_halfFilled :
    SameEnd
      ((halfFilled true).translate "greet" none (some numberedSource)
        [("b", .scalar (.text ""))] ⟨0, []⟩)
      ((halfFilled true).translateChained "greet" none (some numberedSource)
        [("b", .scalar (.text ""))] ⟨0, []⟩) ∧
    ∃ names, (halfFilled true).AsksFor "greet" ["en"] (chained ⟨[("b", "")]⟩ (some numberedSource))
        0 names ∧
      ["a"] = names.filter fun name =>
        (valueUnder? name [("b", Value.scalar (.text ""))]).isNone := by
  have hs : ∀ source ∈ some numberedSource, source.OnlyMisses := by
    rintro source ⟨⟩
    exact onlyMisses_numberedSource
  obtain ⟨hsame, hasks⟩ := translate_chained (halfFilled true) "greet" none hs
    [("b", .scalar (.text ""))]
  obtain ⟨-, hseen⟩ := hasks [("b", "")] rfl
  obtain ⟨names, hnames, htrace⟩ := hseen numberedSource rfl 0 []
  have hone : (stateAfter ((halfFilled true).translate "greet" none (some numberedSource.traced)
      [("b", .scalar (.text ""))] ⟨(0, []), []⟩)).caller.2 = ["a"] := by decide +kernel
  exact ⟨hsame ⟨0, []⟩, names, hnames, hone.symm.trans htrace⟩

end Engine

end Phrasebook
