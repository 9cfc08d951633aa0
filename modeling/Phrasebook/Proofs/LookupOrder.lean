import Mathlib.Data.List.Basic
import Phrasebook.Proofs.Filling

/-!
# The order of lookups

Filling a template asks for one declaration after the other, each time it occurs, and the first
declaration that gets no text is the last one asked for. There are two ways to get none: the source
has no such property and the declaration has no default (`LacksProperty`), or the source fails for a
reason of its own (`SourceFails`), which passes through.

To tell what is asked for, a source is run beside the row of names it was asked for. `Source.Notes`
says that one source answers like another and notes some of the names; filling then does the same
with both, and what it notes are the names of its declarations (`Notes.fill_eq_ok_iff`,
`Notes.fill_eq_error_iff`). A source with a trace notes all names.
-/

namespace Phrasebook

variable {σ : Type}

/-! ## Noting names -/

/-- The second source answers like the first, and adds the selected names to a row beside the
state. -/
def Source.Notes (selected : String → Bool) (a : Source σ) (b : Source (σ × List String)) : Prop :=
  ∀ name s names, b name (s, names) = match a name s with
    | .ok text s' => .ok text (s', names ++ [name].filter selected)
    | .error f s' => .error f (s', names ++ [name].filter selected)

theorem Source.notes_traced (source : Source σ) : source.Notes (fun _ => true) source.traced :=
  fun _ _ _ => rfl

namespace Source.Notes

variable {selected : String → Bool} {a : Source σ} {b : Source (σ × List String)} {s s' : σ}

theorem of_ok (h : a.Notes selected b) {name text : String} (ha : a name s = .ok text s')
    (names : List String) : b name (s, names) = .ok text (s', names ++ [name].filter selected) := by
  rw [h name s names, ha]

theorem of_error (h : a.Notes selected b) {name : String} {f : Failure}
    (ha : a name s = .error f s') (names : List String) :
    b name (s, names) = .error f (s', names ++ [name].filter selected) := by
  rw [h name s names, ha]

theorem answer (h : a.Notes selected b) {d : Declaration} {text : String}
    (hd : d.Answer a s text s') (names : List String) :
    d.Answer b (s, names) text (s', names ++ [d.name].filter selected) := by
  cases hd with
  | found ha => exact .found (h.of_ok ha names)
  | default ha hm hd => exact .default (h.of_error ha names) hm hd

/-- A row that is answered has its names noted, in order. -/
theorem answers (h : a.Notes selected b) {ds : List Declaration} {texts : List String}
    (hds : Answers a ds s texts s') (names : List String) :
    Answers b ds (s, names) texts
      (s', names ++ (ds.map Declaration.name).filter selected) := by
  induction hds generalizing names with
  | nil s =>
    rw [List.map_nil, List.filter_nil, List.append_nil]
    exact .nil (s, names)
  | @cons d ds _ _ _ _ _ head _ ih =>
    have hnames : (d :: ds).map Declaration.name = [d.name] ++ ds.map Declaration.name := rfl
    rw [hnames, List.filter_append, ← List.append_assoc]
    exact .cons (h.answer head names) (ih _)

theorem refusal (h : a.Notes selected b) {template : String} {d : Declaration} {f : Failure}
    (hd : d.Refusal template a s f s') (names : List String) :
    d.Refusal template b (s, names) f (s', names ++ [d.name].filter selected) := by
  cases hd with
  | missing ha hm hd => exact .missing (h.of_error ha names) hm hd
  | foreign ha hf => exact .foreign (h.of_error ha names) hf

variable {g : Grammar} {template : String} {names : List String} {t : σ × List String}

theorem fill_of_answers (h : a.Notes selected b) {texts : List String}
    (ha : Answers a (g.declarations template) s texts s') (names : List String) :
    g.fill template b (s, names) = .ok (g.filled template texts)
      (s', names ++ ((g.declarations template).map Declaration.name).filter selected) :=
  Grammar.fill_eq_ok_iff.2 ⟨texts, h.answers ha names, rfl⟩

theorem fill_of_refusal (h : a.Notes selected b) {before after : List Declaration}
    {d : Declaration} {texts : List String} {s₁ : σ} {f : Failure}
    (hds : g.declarations template = before ++ d :: after) (ha : Answers a before s texts s₁)
    (hd : d.Refusal template a s₁ f s') (names : List String) :
    g.fill template b (s, names) = .error f
      (s', names ++ ((before ++ [d]).map Declaration.name).filter selected) := by
  rw [List.map_append, List.filter_append, ← List.append_assoc]
  exact Grammar.fill_of_refusal hds (h.answers ha names) (h.refusal hd _)

/-- **Filling that succeeds asks for every declaration, and notes its names.** -/
theorem fill_eq_ok_iff (h : a.Notes selected b) {result : String} :
    g.fill template b (s, names) = .ok result t ↔
      ∃ texts s', Answers a (g.declarations template) s texts s' ∧
        result = g.filled template texts ∧
        t = (s', names ++ ((g.declarations template).map Declaration.name).filter selected) := by
  constructor
  · intro hfill
    -- what the first source does settles what the second one does
    cases hfirst : g.fill template a s with
    | ok result' s' =>
      obtain ⟨texts, ha, -⟩ := Grammar.fill_eq_ok_iff.1 hfirst
      rw [h.fill_of_answers ha names] at hfill
      cases hfill
      exact ⟨texts, s', ha, rfl, rfl⟩
    | error f s' =>
      obtain ⟨before, d, after, texts, s₁, hds, ha, hd⟩ := Grammar.fill_eq_error hfirst
      rw [h.fill_of_refusal hds ha hd names] at hfill
      cases hfill
  · rintro ⟨texts, s', ha, rfl, rfl⟩
    exact h.fill_of_answers ha names

/-- **Filling that fails asks up to the first declaration that is refused.** -/
theorem fill_eq_error_iff (h : a.Notes selected b) {f : Failure} :
    g.fill template b (s, names) = .error f t ↔
      ∃ before d after texts s₁ s', g.declarations template = before ++ d :: after ∧
        Answers a before s texts s₁ ∧ d.Refusal template a s₁ f s' ∧
        t = (s', names ++ ((before ++ [d]).map Declaration.name).filter selected) := by
  constructor
  · intro hfill
    cases hfirst : g.fill template a s with
    | ok result s' =>
      obtain ⟨texts, ha, -⟩ := Grammar.fill_eq_ok_iff.1 hfirst
      rw [h.fill_of_answers ha names] at hfill
      cases hfill
    | error f' s' =>
      obtain ⟨before, d, after, texts, s₁, hds, ha, hd⟩ := Grammar.fill_eq_error hfirst
      rw [h.fill_of_refusal hds ha hd names] at hfill
      cases hfill
      exact ⟨before, d, after, texts, s₁, s', hds, ha, hd, rfl⟩
  · rintro ⟨before, d, after, texts, s₁, s', hds, ha, hd, rfl⟩
    exact h.fill_of_refusal hds ha hd names

end Source.Notes

/-! ## Where filling stops -/

/-- A source without a property has not failed to interpolate. -/
theorem isInterpolation_of_isPropertyNotFound {f : Fault} (h : f.isPropertyNotFound = true) :
    f.isInterpolation = false := by
  cases f with
  | propertyNotFound => rfl
  | _ => cases h

/-- The names asked for, the failure and the state left behind when a declaration without a default
names a property that the source does not have, all declarations before it being answered. The
failure names the template and the property, gives the source's reason, and arose from the
source's failure. -/
inductive LacksProperty (template : String) (source : Source σ) (s : σ) :
    List String → Failure → σ → Prop
  | intro {before after : List Declaration} {d : Declaration} {texts : List String} {s₁ s' : σ}
    {name message : String} {causes : List Fault}
    (hds : Grammar.standard.declarations template = before ++ d :: after)
    (answered : Answers source before s texts s₁)
    (missed : source d.name s₁ = .error ⟨.propertyNotFound name message, causes⟩ s')
    (hd : d.default? = none) :
    LacksProperty template source s ((before ++ [d]).map Declaration.name)
      ⟨.interpolation template d.name message, .propertyNotFound name message :: causes⟩ s'

/-- The names asked for, the failure and the state left behind when the source fails for a reason of
its own, whether the declaration that is asked for has a default or not. -/
inductive SourceFails (template : String) (source : Source σ) (s : σ) :
    List String → Failure → σ → Prop
  | intro {before after : List Declaration} {d : Declaration} {texts : List String} {s₁ s' : σ}
    {f : Failure} (hds : Grammar.standard.declarations template = before ++ d :: after)
    (answered : Answers source before s texts s₁) (failed : source d.name s₁ = .error f s')
    (hf : f.fault.isPropertyNotFound = false) :
    SourceFails template source s ((before ++ [d]).map Declaration.name) f s'

section Stops

variable {template : String} {source : Source σ} {s s' : σ} {names : List String} {f : Failure}

theorem LacksProperty.isInterpolation (h : LacksProperty template source s names f s') :
    f.fault.isInterpolation = true := by
  cases h
  rfl

/-- A refusal stops filling in one of the two ways. -/
theorem stops_of_refusal {before after : List Declaration} {d : Declaration} {texts : List String}
    {s₁ : σ} (hds : Grammar.standard.declarations template = before ++ d :: after)
    (ha : Answers source before s texts s₁) (hd : d.Refusal template source s₁ f s') :
    LacksProperty template source s ((before ++ [d]).map Declaration.name) f s' ∨
      SourceFails template source s ((before ++ [d]).map Declaration.name) f s' := by
  cases hd with
  | @missing miss s' hm hk hdefault =>
    obtain ⟨fault, causes⟩ := miss
    cases fault with
    | propertyNotFound name message => exact Or.inl (.intro hds ha hm hdefault)
    | _ => cases hk
  | foreign hm hk => exact Or.inr (.intro hds ha hm hk)

/-- Both ways to stop are refusals of the last declaration that is asked for. -/
theorem refusal_of_stops
    (h : LacksProperty template source s names f s' ∨ SourceFails template source s names f s') :
    ∃ before d after texts s₁, Grammar.standard.declarations template = before ++ d :: after ∧
      Answers source before s texts s₁ ∧ d.Refusal template source s₁ f s' ∧
      names = (before ++ [d]).map Declaration.name := by
  rcases h with ⟨hds, ha, hm, hd⟩ | ⟨hds, ha, hm, hf⟩
  · exact ⟨_, _, _, _, _, hds, ha, .missing hm rfl hd, rfl⟩
  · exact ⟨_, _, _, _, _, hds, ha, .foreign hm hf, rfl⟩

end Stops

section Traced

variable {template : String} {source : Source σ} {s : σ} {asked : List String} {log : List Record}
  {w' : World (σ × List String)}

/-- Interpolating returns if every declaration is answered, and has asked for all of them. -/
theorem interpolate_traced_eq_ok_iff {result : String} :
    Interpolator.standard.interpolate template source.traced ⟨(s, asked), log⟩ = .ok result w' ↔
      ∃ texts s', Answers source (Grammar.standard.declarations template) s texts s' ∧
        result = Grammar.standard.filled template texts ∧
        w' = ⟨(s', asked ++ (Grammar.standard.declarations template).map Declaration.name),
          log⟩ := by
  constructor
  · intro h
    obtain ⟨hfill, hlog⟩ := act_eq_ok h
    obtain ⟨texts, s', ha, hresult, hcaller⟩ := source.notes_traced.fill_eq_ok_iff.1 hfill
    rw [List.filter_true] at hcaller
    cases w'
    cases hcaller
    cases hlog
    exact ⟨texts, s', ha, hresult, rfl⟩
  · rintro ⟨texts, s', ha, rfl, rfl⟩
    have hfill := source.notes_traced.fill_of_answers ha asked
    rw [List.filter_true] at hfill
    exact act_of_ok hfill

/-- Interpolating fails if it stops in one of the two ways, and has asked for nothing more. -/
theorem interpolate_traced_eq_error_iff {f : Failure} :
    Interpolator.standard.interpolate template source.traced ⟨(s, asked), log⟩ = .error f w' ↔
      ∃ names s', (LacksProperty template source s names f s' ∨
        SourceFails template source s names f s') ∧ w' = ⟨(s', asked ++ names), log⟩ := by
  constructor
  · intro h
    obtain ⟨hfill, hlog⟩ := act_eq_error h
    obtain ⟨before, d, after, texts, s₁, s', hds, ha, hd, hcaller⟩ :=
      source.notes_traced.fill_eq_error_iff.1 hfill
    rw [List.filter_true] at hcaller
    cases w'
    cases hcaller
    cases hlog
    exact ⟨_, s', stops_of_refusal hds ha hd, rfl⟩
  · rintro ⟨names, s', hstops, rfl⟩
    obtain ⟨before, d, after, texts, s₁, hds, ha, hd, rfl⟩ := refusal_of_stops hstops
    have hfill := source.notes_traced.fill_of_refusal hds ha hd asked
    rw [List.filter_true] at hfill
    exact act_of_error hfill

end Traced

/--
**What interpolating asks for, and how it fails.** It asks for the declared names in order, each
time they occur. It returns if every declaration is answered, by the source or by its default. It
fails if one is not, and then that one was the last that was asked for: either it has no default and
the source lacks the property, or the source failed for a reason of its own, and that is the
failure. A failure to interpolate that is not the source's own means that a property was lacking;
and a source that only lacks properties never makes declarations with defaults fail.
-/
theorem interpolate_standard_stops (template : String) (source : Source σ) (s : σ)
    (asked : List String) (log : List Record) :
    (∀ result w', Interpolator.standard.interpolate template source.traced ⟨(s, asked), log⟩
        = .ok result w' ↔
      ∃ texts s', Answers source (Grammar.standard.declarations template) s texts s' ∧
        result = Grammar.standard.filled template texts ∧
        w' = ⟨(s', asked ++ (Grammar.standard.declarations template).map Declaration.name), log⟩) ∧
    (∀ f w', Interpolator.standard.interpolate template source.traced ⟨(s, asked), log⟩
        = .error f w' ↔
      ∃ names s', (LacksProperty template source s names f s' ∨
        SourceFails template source s names f s') ∧ w' = ⟨(s', asked ++ names), log⟩) ∧
    ((∀ name t f t', source name t = .error f t' → f.fault.isInterpolation = false) →
      ∀ f w', Interpolator.standard.interpolate template source.traced ⟨(s, asked), log⟩
          = .error f w' →
        (f.fault.isInterpolation = true ↔ ∃ names s', LacksProperty template source s names f s')) ∧
    (source.OnlyMisses → (∀ d ∈ Grammar.standard.declarations template, d.default?.isSome) →
      ∃ result w', Interpolator.standard.interpolate template source.traced ⟨(s, asked), log⟩
        = .ok result w') := by
  refine ⟨fun _ _ => interpolate_traced_eq_ok_iff, fun _ _ => interpolate_traced_eq_error_iff,
    ?_, ?_⟩
  · intro hown f w' h
    obtain ⟨names, s', hlacks | hfails, -⟩ := interpolate_traced_eq_error_iff.1 h
    · exact ⟨fun _ => ⟨names, s', hlacks⟩, fun _ => hlacks.isInterpolation⟩
    · obtain ⟨-, -, hfailed, -⟩ := hfails
      rw [hown _ _ _ _ hfailed]
      refine ⟨nofun, ?_⟩
      rintro ⟨_, _, hlacks⟩
      rw [← hown _ _ _ _ hfailed, hlacks.isInterpolation]
  · intro hmisses hdefaults
    cases h : Interpolator.standard.interpolate template source.traced ⟨(s, asked), log⟩ with
    | ok result w' => exact ⟨result, w', rfl⟩
    | error f w' =>
      obtain ⟨names, s', ⟨hds, -, -, hd⟩ | ⟨-, -, hfailed, hf⟩, -⟩ :=
        interpolate_traced_eq_error_iff.1 h
      · have hsome := hdefaults _ (by rw [hds]; exact List.mem_append_right _ List.mem_cons_self)
        rw [hd] at hsome
        cases hsome
      · rw [hmisses _ _ _ _ hfailed] at hf
        cases hf

/-- A template whose second property has an empty default, and whose third and fourth have none. -/
def halfKnown : String :=
  "%\x7ba\x7d%\x7bb|\x7d%\x7ba\x7d%\x7bc\x7d%\x7bd\x7d"

/-- The empty default will do, the property after it is asked for again, and the last declaration is
not asked for. -/
theorem interpolate_standard_stops_halfKnown :
    Interpolator.standard.interpolate halfKnown numberedSource.traced ⟨(0, []), []⟩
      = .error ⟨.interpolation halfKnown "c" Fault.noPropertyText,
          [.propertyNotFound "c" Fault.noPropertyText]⟩ ⟨(4, ["a", "b", "a", "c"]), []⟩ ∧
    (∀ f w', Interpolator.standard.interpolate halfKnown numberedSource.traced ⟨(0, []), []⟩
      = .error f w' → f.fault.isInterpolation = true →
      ∃ names s', LacksProperty halfKnown numberedSource 0 names f s') ∧
    ∃ result w', Interpolator.standard.interpolate "%\x7bb|\x7d" numberedSource.traced
      ⟨(0, []), []⟩ = .ok result w' := by
  have hown : ∀ name t f t', numberedSource name t = .error f t' →
      f.fault.isInterpolation = false := fun name t f t' h =>
    isInterpolation_of_isPropertyNotFound (onlyMisses_numberedSource name t f t' h)
  have hds : Grammar.standard.declarations halfKnown
      = [⟨"%\x7ba\x7d", "a", none⟩, ⟨"%\x7bb|\x7d", "b", some ""⟩, ⟨"%\x7ba\x7d", "a", none⟩]
        ++ ⟨"%\x7bc\x7d", "c", none⟩ :: [⟨"%\x7bd\x7d", "d", none⟩] := by
    decide +kernel
  -- the first lookup and the third are found, the second one is a miss
  have hlacks : LacksProperty halfKnown numberedSource 0 _ _ 4 := .intro hds
    (.cons (.found rfl) (.cons (.default rfl rfl rfl) (.cons (.found rfl) (.nil 3)))) rfl rfl
  obtain ⟨-, hstops, hlacking, -⟩ := interpolate_standard_stops halfKnown numberedSource 0 [] []
  obtain ⟨-, -, -, hreturns⟩ := interpolate_standard_stops "%\x7bb|\x7d" numberedSource 0 [] []
  exact ⟨(hstops _ _).2 ⟨_, 4, Or.inl hlacks, rfl⟩, fun f w' h => (hlacking hown f w' h).1,
    hreturns onlyMisses_numberedSource (by decide +kernel)⟩

end Phrasebook
