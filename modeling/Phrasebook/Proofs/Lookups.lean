import Phrasebook.Interpolator

/-!
# Lookups of a template

Filling a template asks the source for one declaration after the other. The source may keep a state
and answer the same name differently each time, so what a row of lookups gives is a relation between
states.

* `Answers`: every declaration of the row got a text, from the source or from its default
* `Refusal`: one declaration got none, and the failure that follows

`resolveAll_eq_ok_iff` and `resolveAll_eq_error` say that a row does nothing else: it is answered to
the end, or answered up to a declaration that is refused, and then nothing more is asked.
-/

namespace Phrasebook

variable {σ : Type}

/-! ## Sources that only miss -/

/-- The source fails for no other reason than that it has no such property. -/
def Source.OnlyMisses (source : Source σ) : Prop :=
  ∀ name s f s', source name s = .error f s' → f.fault.isPropertyNotFound = true

/-! ## Traces -/

/-- The source beside the row of names that it was asked for, oldest first. -/
def Source.traced (source : Source σ) : Source (σ × List String) := fun name s =>
  match source name s.1 with
  | .ok text s' => .ok text (s', s.2 ++ [name])
  | .error f s' => .error f (s', s.2 ++ [name])

theorem Source.OnlyMisses.traced {source : Source σ} (h : source.OnlyMisses) :
    source.traced.OnlyMisses := by
  intro name s f s' hf
  unfold Source.traced at hf
  cases hname : source name s.1 with
  | ok text s₁ =>
    rw [hname] at hf
    cases hf
  | error g s₁ =>
    rw [hname] at hf
    cases hf
    exact h name s.1 f s₁ hname

/-! ## One declaration -/

/-- A declaration gets the text of the source, or its default where the source misses it. -/
inductive Declaration.Answer (source : Source σ) (d : Declaration) (s : σ) : String → σ → Prop
  | found {text : String} {s' : σ} (h : source d.name s = .ok text s') :
    Answer source d s text s'
  | default {miss : Failure} {text : String} {s' : σ} (h : source d.name s = .error miss s')
    (hm : miss.fault.isPropertyNotFound = true) (hd : d.default? = some text) :
    Answer source d s text s'

/-- A declaration is refused: the source misses it and it has no default, or the source fails for a
reason of its own, which passes through. -/
inductive Declaration.Refusal (template : String) (source : Source σ) (d : Declaration) (s : σ) :
    Failure → σ → Prop
  | missing {miss : Failure} {s' : σ} (h : source d.name s = .error miss s')
    (hm : miss.fault.isPropertyNotFound = true) (hd : d.default? = none) :
    Refusal template source d s
      (miss.become (.interpolation template d.name miss.fault.message)) s'
  | foreign {f : Failure} {s' : σ} (h : source d.name s = .error f s')
    (hf : f.fault.isPropertyNotFound = false) : Refusal template source d s f s'

section Resolve

variable {template : String} {source : Source σ} {d : Declaration} {s s' : σ}

theorem resolve_of_found {text : String} (h : source d.name s = .ok text s') :
    d.resolve template source s = .ok text s' :=
  handling_ok h

theorem resolve_of_miss {miss : Failure} (h : source d.name s = .error miss s')
    (hm : miss.fault.isPropertyNotFound = true) :
    d.resolve template source s = match d.default? with
      | some text => .ok text s'
      | none => .error (miss.become (.interpolation template d.name miss.fault.message)) s' := by
  rw [Declaration.resolve, handling_of_kind h hm]
  cases d.default? <;> rfl

theorem resolve_of_foreign {f : Failure} (h : source d.name s = .error f s')
    (hf : f.fault.isPropertyNotFound = false) :
    d.resolve template source s = .error f s' :=
  handling_of_other h hf

theorem resolve_eq_ok_iff {text : String} :
    d.resolve template source s = .ok text s' ↔ d.Answer source s text s' := by
  constructor
  · intro h
    cases hs : source d.name s with
    | ok t s₁ =>
      rw [resolve_of_found hs] at h
      cases h
      exact .found hs
    | error f s₁ =>
      cases hf : f.fault.isPropertyNotFound with
      | false =>
        rw [resolve_of_foreign hs hf] at h
        cases h
      | true =>
        rw [resolve_of_miss hs hf] at h
        cases hd : d.default? with
        | none =>
          rw [hd] at h
          cases h
        | some t =>
          rw [hd] at h
          cases h
          exact .default hs hf hd
  · rintro (hs | ⟨hs, hm, hd⟩)
    · exact resolve_of_found hs
    · rw [resolve_of_miss hs hm, hd]

theorem resolve_eq_error_iff {f : Failure} :
    d.resolve template source s = .error f s' ↔ d.Refusal template source s f s' := by
  constructor
  · intro h
    cases hs : source d.name s with
    | ok t s₁ =>
      rw [resolve_of_found hs] at h
      cases h
    | error g s₁ =>
      cases hg : g.fault.isPropertyNotFound with
      | false =>
        rw [resolve_of_foreign hs hg] at h
        cases h
        exact .foreign hs hg
      | true =>
        rw [resolve_of_miss hs hg] at h
        cases hd : d.default? with
        | none =>
          rw [hd] at h
          cases h
          exact .missing hs hg hd
        | some t =>
          rw [hd] at h
          cases h
  · rintro (⟨hs, hm, hd⟩ | ⟨hs, hf⟩)
    · rw [resolve_of_miss hs hm, hd]
    · exact resolve_of_foreign hs hf

end Resolve

/-! ## Rows of declarations -/

/-- The declarations of a row are answered one after the other with these texts. -/
inductive Answers (source : Source σ) : List Declaration → σ → List String → σ → Prop
  | nil (s : σ) : Answers source [] s [] s
  | cons {d : Declaration} {ds : List Declaration} {text : String} {texts : List String}
    {s s₁ s₂ : σ} (head : d.Answer source s text s₁) (tail : Answers source ds s₁ texts s₂) :
    Answers source (d :: ds) s (text :: texts) s₂

theorem Answers.length_eq {source : Source σ} {ds : List Declaration} {texts : List String}
    {s s' : σ} (h : Answers source ds s texts s') : texts.length = ds.length := by
  induction h with
  | nil => rfl
  | cons _ _ ih => rw [List.length_cons, List.length_cons, ih]

/-! ## Sources that always answer alike -/

/-- A source that answers each name always in the same way and keeps no state. -/
def Source.fixed (answer : String → Except Failure String) : Source σ := fun name s =>
  match answer name with
  | .ok text => .ok text s
  | .error f => .error f s

/-- The value of a declaration: the text of the source, or the default where the source misses the
property. A source that fails for a reason of its own leaves no value. -/
def Declaration.value? (answer : String → Except Failure String) (d : Declaration) :
    Option String :=
  match answer d.name with
  | .ok text => some text
  | .error f => if f.fault.isPropertyNotFound then d.default? else none

section Fixed

variable {answer : String → Except Failure String}

theorem fixed_eq_ok_iff {name text : String} {s s' : σ} :
    Source.fixed answer name s = .ok text s' ↔ answer name = .ok text ∧ s' = s := by
  unfold Source.fixed
  cases answer name with
  | ok t => simp [eq_comm]
  | error f => simp

theorem fixed_eq_error_iff {name : String} {f : Failure} {s s' : σ} :
    Source.fixed answer name s = .error f s' ↔ answer name = .error f ∧ s' = s := by
  unfold Source.fixed
  cases answer name with
  | ok t => simp
  | error g => simp [eq_comm]

theorem answer_fixed_iff {d : Declaration} {text : String} {s s' : σ} :
    d.Answer (Source.fixed answer) s text s' ↔ d.value? answer = some text ∧ s' = s := by
  constructor
  · rintro (h | ⟨h, hm, hd⟩)
    · obtain ⟨ha, rfl⟩ := fixed_eq_ok_iff.1 h
      exact ⟨by rw [Declaration.value?, ha], rfl⟩
    · obtain ⟨ha, rfl⟩ := fixed_eq_error_iff.1 h
      exact ⟨by simp only [Declaration.value?, ha, hm, if_true, hd], rfl⟩
  · rintro ⟨h, rfl⟩
    cases ha : answer d.name with
    | ok t =>
      simp only [Declaration.value?, ha] at h
      cases h
      exact .found (fixed_eq_ok_iff.2 ⟨ha, rfl⟩)
    | error f =>
      simp only [Declaration.value?, ha] at h
      split at h
      · next hm => exact .default (fixed_eq_error_iff.2 ⟨ha, rfl⟩) hm h
      · cases h

theorem answers_fixed_iff {ds : List Declaration} {texts : List String} {s s' : σ} :
    Answers (Source.fixed answer) ds s texts s'
      ↔ ds.map (Declaration.value? answer) = texts.map some ∧ s' = s := by
  constructor
  · intro h
    induction h with
    | nil s => exact ⟨rfl, rfl⟩
    | cons head _ ih =>
      obtain ⟨hvalue, rfl⟩ := answer_fixed_iff.1 head
      obtain ⟨hvalues, rfl⟩ := ih
      exact ⟨by rw [List.map_cons, List.map_cons, hvalue, hvalues], rfl⟩
  · rintro ⟨h, rfl⟩
    induction ds generalizing texts with
    | nil =>
      cases texts with
      | nil => exact .nil s'
      | cons => cases h
    | cons d ds ih =>
      cases texts with
      | nil => cases h
      | cons text texts =>
        obtain ⟨hvalue, hvalues⟩ := List.cons.inj h
        exact .cons (answer_fixed_iff.2 ⟨hvalue, rfl⟩) (ih hvalues)

end Fixed

/-! ## Tables -/

/-- The table after one more declaration: a literal keeps its first text. -/
def record (table : List (String × String)) (d : Declaration) (text : String) :
    List (String × String) :=
  if (valueUnder? d.literal table).isSome then table else putEntry d.literal text table

/-- The table that a row of declarations with their texts leaves behind. -/
def tableOf : List (String × String) → List Declaration → List String → List (String × String)
  | table, d :: ds, text :: texts => tableOf (record table d text) ds texts
  | table, _, _ => table

theorem valueUnder?_record (table : List (String × String)) (d : Declaration) (text l : String) :
    valueUnder? l (record table d text)
      = (valueUnder? l table).or (if d.literal = l then some text else none) := by
  unfold record
  by_cases hl : l = d.literal
  · subst hl
    cases h : valueUnder? d.literal table <;> simp [h]
  · have hne : ¬d.literal = l := fun h => hl h.symm
    rw [if_neg hne, Option.or_none]
    split
    · rfl
    · rw [valueUnder?_putEntry, if_neg hl]

/-- **A literal stands in the table with the text of its first occurrence.** -/
theorem valueUnder?_tableOf (l : String) : ∀ (ds : List Declaration) (texts : List String)
    (table : List (String × String)), texts.length = ds.length →
    valueUnder? l (tableOf table ds texts)
      = (valueUnder? l table).or texts[ds.findIdx fun d => d.literal == l]?
  | [], [], table, _ => by simp [tableOf]
  | d :: ds, text :: texts, table, h => by
    have hlen : texts.length = ds.length := by simpa using h
    rw [tableOf, valueUnder?_tableOf l ds texts _ hlen, valueUnder?_record, List.findIdx_cons]
    by_cases hl : d.literal = l
    -- the literal stands here first, unless the table has it from before
    · simp only [hl, if_true, beq_self_eq_true, cond_true, List.getElem?_cons_zero]
      cases valueUnder? l table <;> simp
    · have hb : (d.literal == l) = false := by simpa using hl
      simp [hl, hb]

section ResolveAll

variable {template : String} {source : Source σ}

theorem resolveAll_cons_of_answer {d : Declaration} {ds : List Declaration} {text : String}
    {table : List (String × String)} {s s₁ : σ} (h : d.Answer source s text s₁) :
    resolveAll template source table (d :: ds) s
      = resolveAll template source (record table d text) ds s₁ :=
  bind_of_ok (resolve_eq_ok_iff.2 h)

theorem resolveAll_cons_of_refusal {d : Declaration} {ds : List Declaration} {f : Failure}
    {table : List (String × String)} {s s₁ : σ} (h : d.Refusal template source s f s₁) :
    resolveAll template source table (d :: ds) s = .error f s₁ :=
  bind_of_error (resolve_eq_error_iff.2 h)

/-- **A row succeeds exactly when it is answered to the end.** -/
theorem resolveAll_eq_ok_iff {ds : List Declaration} {table table' : List (String × String)}
    {s s' : σ} : resolveAll template source table ds s = .ok table' s'
      ↔ ∃ texts, Answers source ds s texts s' ∧ table' = tableOf table ds texts := by
  induction ds generalizing table s with
  | nil =>
    constructor
    · intro h
      cases h
      exact ⟨[], .nil _, rfl⟩
    · rintro ⟨texts, ⟨⟩, rfl⟩
      rfl
  | cons d ds ih =>
    constructor
    · intro h
      obtain ⟨text, s₁, hd, hrest⟩ := bind_eq_ok h
      obtain ⟨texts, ha, ht⟩ := ih.1 hrest
      exact ⟨text :: texts, .cons (resolve_eq_ok_iff.1 hd) ha, ht⟩
    · rintro ⟨texts, ⟨⟩ | ⟨hd, ha⟩, ht⟩
      rw [resolveAll_cons_of_answer hd]
      exact ih.2 ⟨_, ha, ht⟩

/-- **A row that fails is answered up to a declaration that is refused.** -/
theorem resolveAll_eq_error {ds : List Declaration} {table : List (String × String)} {f : Failure}
    {s s' : σ} (h : resolveAll template source table ds s = .error f s') :
    ∃ before d after texts s₁, ds = before ++ d :: after ∧ Answers source before s texts s₁ ∧
      d.Refusal template source s₁ f s' := by
  induction ds generalizing table s with
  | nil => cases h
  | cons d ds ih =>
    rcases bind_eq_error h with hd | ⟨text, s₁, hd, hrest⟩
    · exact ⟨[], d, ds, [], s, rfl, .nil s, resolve_eq_error_iff.1 hd⟩
    · obtain ⟨before, e, after, texts, s₂, rfl, ha, he⟩ := ih hrest
      exact ⟨d :: before, e, after, text :: texts, s₂, rfl,
        .cons (resolve_eq_ok_iff.1 hd) ha, he⟩

/-- A row whose next declaration is refused fails there. -/
theorem resolveAll_of_refusal {before after : List Declaration} {d : Declaration} {f : Failure}
    {texts : List String} {s s₁ s' : σ} (ha : Answers source before s texts s₁)
    (hd : d.Refusal template source s₁ f s') (table : List (String × String)) :
    resolveAll template source table (before ++ d :: after) s = .error f s' := by
  induction ha generalizing table with
  | nil => exact resolveAll_cons_of_refusal hd
  | cons head _ ih =>
    rw [List.cons_append, resolveAll_cons_of_answer head]
    exact ih hd _

end ResolveAll

end Phrasebook
