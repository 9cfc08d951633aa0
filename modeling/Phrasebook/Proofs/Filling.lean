import Phrasebook.Proofs.Gaps
import Phrasebook.Proofs.Lookups

/-!
# Filling a template

Filling goes over the declarations once to get their texts and once more to put them in; in between,
the texts lie in a table under the literals. `fill_eq_ok_iff` says what comes out of both passes
together: the gaps as they are, and in the place of each declaration the text that was obtained
where its literal stands first. Nothing that is put in is looked at again.
-/

namespace Phrasebook

variable {σ : Type}

/-! ## What declarations show -/

/-- The text that a declaration shows: the one obtained where its literal stands first. -/
def shownText (ds : List Declaration) (texts : List String) (d : Declaration) : String :=
  texts[ds.findIdx fun e => e.literal == d.literal]?.getD ""

/-- Every declaration of a row shows the text obtained where its literal stands first. -/
structure ShowsFirst (ds : List Declaration) (texts shown : List String) : Prop where
  length_eq : shown.length = ds.length
  first : ∀ (i : Nat) (d : Declaration), ds[i]? = some d → ∃ j ≤ i,
    (∃ e : Declaration, ds[j]? = some e ∧ e.literal = d.literal) ∧
    (∀ k < j, ∀ e : Declaration, ds[k]? = some e → e.literal ≠ d.literal) ∧
    ∃ text : String, texts[j]? = some text ∧ shown[i]? = some text

theorem showsFirst_map {ds : List Declaration} {texts : List String}
    (h : texts.length = ds.length) : ShowsFirst ds texts (ds.map (shownText ds texts)) where
  length_eq := by simp
  first := by
    intro i d hd
    obtain ⟨hi, hdi⟩ := List.getElem?_eq_some_iff.mp hd
    have hmem : ∃ x ∈ ds, (x.literal == d.literal) = true :=
      ⟨d, List.mem_of_getElem? hd, beq_self_eq_true _⟩
    have hlt : (ds.findIdx fun e => e.literal == d.literal) < ds.length :=
      List.findIdx_lt_length.mpr hmem
    -- the place where the text was obtained is the first one with this literal
    refine ⟨ds.findIdx fun e => e.literal == d.literal, ?_,
      ⟨_, List.getElem?_eq_getElem hlt, ?_⟩, ?_, _, List.getElem?_eq_getElem (h ▸ hlt), ?_⟩
    · refine Nat.le_of_not_lt fun hlt' => ?_
      have := List.not_of_lt_findIdx hlt'
      simp [hdi] at this
    · simpa using List.findIdx_getElem (w := hlt)
    · intro k hk e he hlit
      obtain ⟨hk', rfl⟩ := List.getElem?_eq_some_iff.mp he
      have := List.not_of_lt_findIdx hk
      simp [hlit] at this
    · rw [List.getElem?_map, hd, Option.map_some, shownText,
        List.getElem?_eq_getElem (h ▸ hlt), Option.getD_some]

/-! ## Both passes -/

namespace Grammar

/-- A template with texts in the place of its declarations. -/
def filled (g : Grammar) (template : String) (texts : List String) : String :=
  String.ofList (weave (gaps (g.segments template))
    ((g.declarations template).map fun d =>
      (shownText (g.declarations template) texts d).toList))

/-- **Filling succeeds exactly when every declaration is answered, and then shows the answers.** -/
theorem fill_eq_ok_iff {g : Grammar} {template result : String} {source : Source σ} {s s' : σ} :
    g.fill template source s = .ok result s' ↔
      ∃ texts, Answers source (g.declarations template) s texts s' ∧
        result = g.filled template texts := by
  -- with a text for every declaration, the table never misses a literal
  have htable : ∀ texts : List String, texts.length = (g.declarations template).length →
      String.ofList (fillSegments (fun d => ((valueUnder? d.literal
        (tableOf [] (g.declarations template) texts)).getD "").toList) (g.segments template))
        = g.filled template texts := by
    intro texts hlen
    rw [fillSegments_eq_weave]
    simp only [valueUnder?_tableOf _ _ _ _ hlen, valueUnder?, Option.none_or]
    rfl
  constructor
  · intro h
    obtain ⟨table, s₁, ht, hr⟩ := bind_eq_ok h
    obtain ⟨texts, ha, rfl⟩ := resolveAll_eq_ok_iff.1 ht
    cases hr
    exact ⟨texts, ha, htable texts ha.length_eq⟩
  · rintro ⟨texts, ha, rfl⟩
    rw [← htable texts ha.length_eq]
    exact bind_of_ok (resolveAll_eq_ok_iff.2 ⟨texts, ha, rfl⟩)

/-- Filling fails only where a declaration is refused. -/
theorem fill_eq_error {g : Grammar} {template : String} {source : Source σ} {s s' : σ}
    {f : Failure} (h : g.fill template source s = .error f s') :
    ∃ before d after texts s₁, g.declarations template = before ++ d :: after ∧
      Answers source before s texts s₁ ∧ d.Refusal template source s₁ f s' := by
  rcases bind_eq_error h with ht | ⟨_, _, _, hr⟩
  · exact resolveAll_eq_error ht
  · cases hr

/-- Filling fails where a declaration is refused. -/
theorem fill_of_refusal {g : Grammar} {template : String} {source : Source σ}
    {before after : List Declaration} {d : Declaration} {texts : List String} {s s₁ s' : σ}
    {f : Failure} (hds : g.declarations template = before ++ d :: after)
    (ha : Answers source before s texts s₁) (hd : d.Refusal template source s₁ f s') :
    g.fill template source s = .error f s' := by
  rw [fill, hds]
  exact bind_of_error (resolveAll_of_refusal ha hd [])

end Grammar

/-! ## The standard grammar -/

theorem standard_opening_ne_nil : Grammar.standard.opening ≠ [] := by decide

/-- A template without declarations is filled as it is, and nothing is asked. -/
theorem fill_of_declarations_eq_nil {template : String}
    (h : Grammar.standard.declarations template = []) (source : Source σ) (s : σ) :
    Grammar.standard.fill template source s = .ok template s := by
  rw [Grammar.fill_eq_ok_iff, h]
  refine ⟨[], .nil s, ?_⟩
  rw [Grammar.filled, h, List.map_nil]
  have hw := Grammar.toList_eq_weave standard_opening_ne_nil template
  rw [h, List.map_nil] at hw
  rw [← hw, String.ofList_toList]

/--
What interpolating shows when it takes the world `w` to `w'`: the declarations were answered in
order, the template is its declarations woven between its gaps, one more than there are
declarations, and the result is the same gaps with the answers between them, each declaration
showing the one of its literal's first place.
-/
def Shows (source : Source σ) (template result : String) (w w' : World σ) : Prop :=
  ∃ texts shown : List String,
    Answers source (Grammar.standard.declarations template) w.caller texts w'.caller ∧
    w'.log = w.log ∧
    ShowsFirst (Grammar.standard.declarations template) texts shown ∧
    (gaps (Grammar.standard.segments template)).length
      = (Grammar.standard.declarations template).length + 1 ∧
    template.toList = weave (gaps (Grammar.standard.segments template))
      ((Grammar.standard.declarations template).map fun d => d.literal.toList) ∧
    result.toList = weave (gaps (Grammar.standard.segments template)) (shown.map String.toList)

/--
**What a filled template shows.** Whenever interpolating returns, it shows the answers, and it does
return when every declaration is answered. Without declarations the template itself comes back, and
the source is not asked.
-/
theorem interpolate_standard_shows (template : String) (source : Source σ) (w : World σ) :
    (∀ result w', Interpolator.standard.interpolate template source w = .ok result w' →
      Shows source template result w w') ∧
    (∀ texts s, Answers source (Grammar.standard.declarations template) w.caller texts s →
      ∃ result, Interpolator.standard.interpolate template source w
        = .ok result { w with caller := s }) ∧
    (Grammar.standard.declarations template = [] →
      Interpolator.standard.interpolate template source w = .ok template w) := by
  refine ⟨?_, ?_, ?_⟩
  · intro result w' h
    obtain ⟨hf, hlog⟩ := act_eq_ok h
    obtain ⟨texts, ha, rfl⟩ := Grammar.fill_eq_ok_iff.1 hf
    refine ⟨texts, (Grammar.standard.declarations template).map
      (shownText (Grammar.standard.declarations template) texts), ha, hlog,
      showsFirst_map ha.length_eq, length_gaps _,
      Grammar.toList_eq_weave standard_opening_ne_nil template, ?_⟩
    rw [Grammar.filled, String.toList_ofList, List.map_map]
    rfl
  · intro texts s ha
    exact ⟨_, act_of_ok (Grammar.fill_eq_ok_iff.2 ⟨texts, ha, rfl⟩)⟩
  · intro h
    exact act_of_ok (fill_of_declarations_eq_nil h source w.caller)

/-- A source with one property, which it answers with a declaration and the number of the lookup. -/
def numberedSource : Source Nat := fun name n =>
  if name = "a" then .ok ("%\x7ba\x7d" ++ toString n) (n + 1)
  else .error ⟨.propertyNotFound name Fault.noPropertyText, []⟩ (n + 1)

theorem onlyMisses_numberedSource : numberedSource.OnlyMisses := by
  intro name s f s' h
  unfold numberedSource at h
  split at h
  · cases h
  · cases h
    rfl

/-- Four lookups fill four places, and the third answer is not shown. -/
theorem interpolate_standard_shows_numbered :
    Shows numberedSource "%\x7ba\x7d-%\x7bb|x\x7d-%\x7ba\x7d-%\x7bb|y\x7d"
      "%\x7ba\x7d0-x-%\x7ba\x7d0-y" ⟨0, []⟩ ⟨4, []⟩ ∧
    (∃ result, Interpolator.standard.interpolate "%\x7ba\x7d" numberedSource ⟨5, []⟩
      = .ok result ⟨6, []⟩) ∧
    Interpolator.standard.interpolate "100%" numberedSource ⟨0, []⟩ = .ok "100%" ⟨0, []⟩ :=
  ⟨(interpolate_standard_shows _ numberedSource ⟨0, []⟩).1 _ ⟨4, []⟩ rfl,
    (interpolate_standard_shows _ numberedSource ⟨5, []⟩).2.1 ["%\x7ba\x7d5"] 6
      (.cons (.found rfl) (.nil 6)),
    (interpolate_standard_shows _ numberedSource ⟨0, []⟩).2.2 rfl⟩

end Phrasebook
