import Phrasebook.Engine
import Phrasebook.Proofs.Filling
import Phrasebook.Proofs.Texts

/-!
# Properties in layers

An engine asks its properties before the caller's source. Which failure says that both miss a name
depends on how the layers are put together, but filling a template only looks at whether a name is
missed: sources that differ in nothing else (`Source.Alike`) fill every template alike.
-/

namespace Phrasebook

variable {σ : Type}

/-! ## Alike sources -/

/-- Two answers to a name that agree, misses being one answer for whatever reason. -/
inductive SameAnswer : EStateM.Result Failure σ String → EStateM.Result Failure σ String → Prop
  | found (text : String) (s : σ) : SameAnswer (.ok text s) (.ok text s)
  | missed {f g : Failure} (s : σ) (hf : f.fault.isPropertyNotFound = true)
    (hg : g.fault.isPropertyNotFound = true) : SameAnswer (.error f s) (.error g s)

namespace Source

/-- Two sources that give the same answers in every state, and fail only where they miss. -/
def Alike (a b : Source σ) : Prop :=
  ∀ name s, SameAnswer (a name s) (b name s)

theorem OnlyMisses.alike {a : Source σ} (h : a.OnlyMisses) : a.Alike a := by
  intro name s
  cases ha : a name s with
  | ok text s' => exact .found text s'
  | error f s' => exact .missed s' (h name s f s' ha) (h name s f s' ha)

/-- A source alone in a chain; the chain reports a miss by itself, not by the failure of its
source. -/
theorem OnlyMisses.alike_chain {a : Source σ} (h : a.OnlyMisses) : a.Alike (chain [a]) := by
  intro name s
  cases ha : a name s with
  | ok text s' =>
    rw [chain_of_found ha]
    exact .found text s'
  | error f s' =>
    rw [chain_of_missed ha (h name s f s' ha)]
    exact .missed s' (h name s f s' ha) rfl

namespace Alike

variable {a b : Source σ}

theorem found (h : a.Alike b) {name text : String} {s s' : σ} (ha : a name s = .ok text s') :
    b name s = .ok text s' := by
  have hname := h name s
  rw [ha] at hname
  cases hb : b name s with
  | ok t s₁ =>
    rw [hb] at hname
    cases hname
    rfl
  | error g s₁ =>
    rw [hb] at hname
    cases hname

theorem missed (h : a.Alike b) {name : String} {s s' : σ} {f : Failure}
    (ha : a name s = .error f s') : f.fault.isPropertyNotFound = true ∧
      ∃ g, b name s = .error g s' ∧ g.fault.isPropertyNotFound = true := by
  have hname := h name s
  rw [ha] at hname
  cases hb : b name s with
  | ok t s₁ =>
    rw [hb] at hname
    cases hname
  | error g s₁ =>
    rw [hb] at hname
    cases hname with
    | missed _ hf hg => exact ⟨hf, g, rfl, hg⟩

theorem answer (h : a.Alike b) {d : Declaration} {s s' : σ} {text : String}
    (hd : d.Answer a s text s') : d.Answer b s text s' := by
  cases hd with
  | found hs => exact .found (h.found hs)
  | default hs _ hd =>
    obtain ⟨-, g, hg, hmiss⟩ := h.missed hs
    exact .default hg hmiss hd

theorem answers (h : a.Alike b) {ds : List Declaration} {texts : List String} {s s' : σ}
    (hds : Answers a ds s texts s') : Answers b ds s texts s' := by
  induction hds with
  | nil s => exact .nil s
  | cons head _ ih => exact .cons (h.answer head) ih

/-- A declaration that one source refuses is refused with the other, for the same property. -/
theorem refusal (h : a.Alike b) {template : String} {d : Declaration} {s s' : σ} {f : Failure}
    (hd : d.Refusal template a s f s') :
    f.fault.interpolated? = some (template, d.name) ∧
      ∃ g, d.Refusal template b s g s' ∧ g.fault.interpolated? = some (template, d.name) := by
  cases hd with
  | missing hs _ hd =>
    obtain ⟨-, g, hg, hmiss⟩ := h.missed hs
    exact ⟨rfl, _, .missing hg hmiss hd, rfl⟩
  | foreign hs hf =>
    rw [(h.missed hs).1] at hf
    cases hf

/-- Alike sources fill a template with the same texts. -/
theorem fill_eq_ok (h : a.Alike b) {g : Grammar} {template text : String} {s s' : σ}
    (hfill : g.fill template a s = .ok text s') : g.fill template b s = .ok text s' := by
  obtain ⟨texts, ha, rfl⟩ := Grammar.fill_eq_ok_iff.1 hfill
  exact Grammar.fill_eq_ok_iff.2 ⟨texts, h.answers ha, rfl⟩

/-- Alike sources fail to fill a template at the same property. -/
theorem fill_eq_error (h : a.Alike b) {g : Grammar} {template : String} {s s' : σ} {f : Failure}
    (hfill : g.fill template a s = .error f s') :
    ∃ property k, g.fill template b s = .error k s' ∧
      f.fault.interpolated? = some (template, property) ∧
      k.fault.interpolated? = some (template, property) := by
  obtain ⟨before, d, after, texts, s₁, hds, ha, hd⟩ := Grammar.fill_eq_error hfill
  obtain ⟨hf, k, hk, hkf⟩ := h.refusal hd
  exact ⟨d.name, k, Grammar.fill_of_refusal hds (h.answers ha) hk, hf, hkf⟩

end Alike

end Source

/-! ## Keyword values before a source -/

/-- The text of the keyword value of a name. -/
def keywordText? (properties : List (String × Value)) (name : String) : Option String :=
  (valueUnder? name properties).bind Value.text?

/-- The keyword values answer first, then the source. -/
def layered (properties : List (String × Value)) (source? : Option (Source σ)) : Source σ :=
  fun name =>
    match keywordText? properties name, source? with
    | some text, _ => pure text
    | none, some source => source name
    | none, none => failWith (.propertyNotFound name Fault.noPropertyText)

theorem layered_of_keyword {properties : List (String × Value)} {name text : String}
    (h : keywordText? properties name = some text) (source? : Option (Source σ)) (s : σ) :
    layered properties source? name s = .ok text s := by
  simp only [layered, h]
  rfl

theorem layered_of_source {properties : List (String × Value)} {name : String}
    (h : keywordText? properties name = none) (source : Source σ) :
    layered properties (some source) name = source name := by
  simp only [layered, h]

theorem layered_of_none {properties : List (String × Value)} {name : String}
    (h : keywordText? properties name = none) (s : σ) :
    layered properties none name s
      = .error ⟨.propertyNotFound name Fault.noPropertyText, []⟩ s := by
  simp only [layered, h]
  rfl

/-- Whether every keyword value has a text. -/
def keywordsHaveTexts (properties : List (String × Value)) : Bool :=
  properties.all fun entry => entry.2.text?.isSome

/-- The texts of the keyword values are there if each has one. -/
theorem propertyTexts_settles : ∀ properties : List (String × Value),
    Settles (keywordsHaveTexts properties) (Engine.propertyTexts properties)
  | [] => settles_ok []
  | (_, v) :: rest => settles_bind (text_settles v) fun _ =>
    settles_map (propertyTexts_settles rest)

theorem valueUnder?_propertyTexts (name : String) : ∀ {properties : List (String × Value)}
    {texts : List (String × String)}, Engine.propertyTexts properties = .ok texts →
    valueUnder? name texts = keywordText? properties name
  | [], texts, h => by
    cases h
    rfl
  | (n, v) :: rest, texts, h => by
    rw [Engine.propertyTexts] at h
    obtain ⟨text, htext, h⟩ := result_bind_eq_ok h
    obtain ⟨others, hothers, rfl⟩ := result_map_eq_ok h
    rw [keywordText?, valueUnder?, valueUnder?]
    by_cases hn : n = name
    · rw [if_pos hn, if_pos hn, Option.bind_some, text_eq_ok_iff.1 htext]
    · rw [if_neg hn, if_neg hn]
      exact valueUnder?_propertyTexts name hothers

/-- The source that an engine uses, given the texts of the properties. -/
def engineSource (properties : List (String × Value)) (texts : PropertyMap) :
    Option (Source σ) → Source σ
  | none => texts.source
  | some source => if properties.isEmpty then source else Source.chain [texts.source, source]

section EngineSource

variable {properties : List (String × Value)} {texts : PropertyMap} {name : String}

theorem engineSource_of_keyword {text : String} (hname : texts.get? name = some text)
    (hne : properties ≠ []) (source? : Option (Source σ)) (s : σ) :
    engineSource properties texts source? name s = .ok text s := by
  have hmap : texts.source name s = .ok text s := PropertyMap.source_of_some hname s
  cases source? with
  | none => exact hmap
  | some source =>
    rw [engineSource, if_neg (by simpa using hne)]
    exact Source.chain_of_found hmap

theorem engineSource_of_source (hname : texts.get? name = none) {source : Source σ}
    (hs : source.OnlyMisses) (s : σ) :
    SameAnswer (source name s) (engineSource properties texts (some source) name s) := by
  rw [engineSource]
  split
  · exact hs.alike name s
  · rw [Source.chain_of_missed (PropertyMap.source_of_none hname s) rfl]
    exact hs.alike_chain name s

/-- **The engine's source is the keyword values before the caller's source.** -/
theorem layered_alike (htexts : ∀ name, texts.get? name = keywordText? properties name)
    {source? : Option (Source σ)} (hs : ∀ source ∈ source?, source.OnlyMisses) :
    (layered properties source?).Alike (engineSource properties texts source?) := by
  intro name s
  cases hk : keywordText? properties name with
  | some text =>
    -- there is a keyword value, so the engine does not leave the keyword values out
    have hne : properties ≠ [] := by
      rintro rfl
      cases hk
    rw [layered_of_keyword hk, engineSource_of_keyword ((htexts name).trans hk) hne]
    exact .found text s
  | none =>
    have hname := (htexts name).trans hk
    cases source? with
    | none =>
      rw [layered_of_none hk, engineSource, PropertyMap.source_of_none hname]
      exact .missed s rfl rfl
    | some source =>
      rw [layered_of_source hk]
      exact engineSource_of_source hname (hs source rfl) s

end EngineSource

end Phrasebook
