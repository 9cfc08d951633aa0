import Phrasebook.Proofs.Strictness

/-!
# What a translation asks for

A source may keep a state, so it matters which names it is asked for, how often and in which order.
`Translator.Requests` says which they are, layer by layer:

* phrases ask for nothing, whether they find the key or not
* a fallback asks for what the translator inside it asks for, whether it is used or not
* a layer of interpolation lets the translator inside it ask first; if that returns a template, the
  names that the template declares follow, in order, up to the first one that is refused

A source with a trace keeps every name that it is asked for. `translate_requests` says that what a
translation leaves in the trace is this row of names.
-/

namespace Phrasebook

variable {σ : Type}

/-! ## The trace of lookups -/

section Trace

variable {source : Source σ} {s s' : σ × List String}

/-- A lookup leaves its name in the trace, whether it is answered or not. -/
theorem stateAfter_traced (source : Source σ) (name : String) (s : σ × List String) :
    (stateAfter (source.traced name s)).2 = s.2 ++ [name] := by
  unfold Source.traced
  cases source name s.1 with
  | ok text s₁ => rfl
  | error f s₁ => rfl

theorem trace_of_ok {name text : String} (h : source.traced name s = .ok text s') :
    s'.2 = s.2 ++ [name] := by
  have hafter := stateAfter_traced source name s
  rw [h] at hafter
  exact hafter

theorem trace_of_error {name : String} {f : Failure} (h : source.traced name s = .error f s') :
    s'.2 = s.2 ++ [name] := by
  have hafter := stateAfter_traced source name s
  rw [h] at hafter
  exact hafter

theorem Declaration.Answer.trace_eq {d : Declaration} {text : String}
    (h : d.Answer source.traced s text s') : s'.2 = s.2 ++ [d.name] := by
  cases h with
  | found h => exact trace_of_ok h
  | default h => exact trace_of_error h

theorem Declaration.Refusal.trace_eq {template : String} {d : Declaration} {f : Failure}
    (h : d.Refusal template source.traced s f s') : s'.2 = s.2 ++ [d.name] := by
  cases h with
  | missing h => exact trace_of_error h
  | foreign h => exact trace_of_error h

/-- A row of declarations that is answered leaves its names in the trace, in order. -/
theorem Answers.trace_eq {ds : List Declaration} {texts : List String}
    (h : Answers source.traced ds s texts s') : s'.2 = s.2 ++ ds.map Declaration.name := by
  induction h with
  | nil s => simp
  | cons head _ ih =>
    rw [ih, head.trace_eq, List.map_cons, List.append_assoc, List.singleton_append]

end Trace

/-- A handler that leaves the caller's state alone does not show in it. -/
theorem caller_handling {kind : Fault → Bool} {x : Action σ String}
    {handler : Failure → Action σ String}
    (hhandler : ∀ f w, (stateAfter (handler f w)).caller = w.caller) (w : World σ) :
    (stateAfter (handling kind x handler w)).caller = (stateAfter (x w)).caller := by
  cases hx : x w with
  | ok a w' =>
    rw [handling_ok hx]
  | error f w' =>
    rw [handling_error hx]
    split
    · exact hhandler f w'
    · rfl

/-! ## Interpolators -/

namespace Interpolator

/-- An interpolator of placeholders, in any grammar, made lenient any number of times. -/
def FillsPlaceholders : Interpolator σ → Prop
  | placeholder _ => True
  | lenient inner => inner.FillsPlaceholders
  | function _ => False

/--
The names that filling a template asks for, the caller being in a state.

* `all`: every declaration is answered, and its name was asked for
* `upTo`: a declaration is refused, and its name was the last
* `lenient`: giving the raw template back asks for nothing more
-/
inductive Asks (template : String) (source : Source σ) (s : σ) :
    Interpolator σ → List String → Prop
  | all {g : Grammar} {texts : List String} {s' : σ}
    (h : Answers source (g.declarations template) s texts s') :
    Asks template source s (.placeholder g) ((g.declarations template).map Declaration.name)
  | upTo {g : Grammar} {before after : List Declaration} {d : Declaration} {texts : List String}
    {f : Failure} {s₁ s' : σ} (hds : g.declarations template = before ++ d :: after)
    (ha : Answers source before s texts s₁) (hd : d.Refusal template source s₁ f s') :
    Asks template source s (.placeholder g) ((before ++ [d]).map Declaration.name)
  | lenient {i : Interpolator σ} {names : List String} (h : Asks template source s i names) :
    Asks template source s (.lenient i) names

theorem exists_asks {i : Interpolator σ} (hi : i.FillsPlaceholders) (template : String)
    (source : Source σ) (s : σ) : ∃ names, i.Asks template source s names := by
  induction i with
  | placeholder g =>
    cases h : g.fill template source s with
    | ok result s' =>
      obtain ⟨texts, ha, -⟩ := Grammar.fill_eq_ok_iff.1 h
      exact ⟨_, .all ha⟩
    | error f s' =>
      obtain ⟨before, d, after, texts, s₁, hds, ha, hd⟩ := Grammar.fill_eq_error h
      exact ⟨_, .upTo hds ha hd⟩
  | lenient inner ih =>
    obtain ⟨names, h⟩ := ih hi
    exact ⟨names, .lenient h⟩
  | function f => exact hi.elim

/-- **Filling a template leaves the names that it asks for in the trace.** -/
theorem Asks.trace_eq {i : Interpolator (σ × List String)} {template : String}
    {source : Source σ} {w : World (σ × List String)} {names : List String}
    (h : i.Asks template source.traced w.caller names) :
    (stateAfter (i.interpolate template source.traced w)).caller.2 = w.caller.2 ++ names := by
  induction h with
  | @all g texts s' ha =>
    have hfill := Grammar.fill_eq_ok_iff.2 ⟨texts, ha, rfl⟩
    have hact : (placeholder g).interpolate template source.traced w = _ := act_of_ok hfill
    rw [hact]
    exact ha.trace_eq
  | @upTo g before after d texts f s₁ s' hds ha hd =>
    have hact : (placeholder g).interpolate template source.traced w = _ :=
      act_of_error (Grammar.fill_of_refusal hds ha hd)
    rw [hact]
    show s'.2 = _
    rw [hd.trace_eq, ha.trace_eq, List.map_append, List.append_assoc]
    rfl
  | @lenient inner names h ih =>
    rw [← ih]
    exact congrArg Prod.snd (caller_handling (fun _ _ => rfl) w)

end Interpolator

/-! ## Translators -/

namespace Translator

/-- Put together from phrases by fallbacks and by interpolation of placeholders. -/
def Layered : Translator σ → Prop
  | phrases _ => True
  | function _ => False
  | withDefault _ inner => inner.Layered
  | keyAsDefault inner => inner.Layered
  | interpolated inner i => inner.Layered ∧ i.FillsPlaceholders

/--
The names that translating a key asks for, from a world on.

* `phrases`: a tree asks for nothing
* `withDefault` and `keyAsDefault`: a fallback asks for nothing of its own
* `filled`: what the inner translator returned is filled, in the world that it left behind
* `notFilled`: where the inner translator fails there is nothing to fill
-/
inductive Requests (key : String) (source : Source σ) (w : World σ) :
    Translator σ → List String → Prop
  | phrases (p : Phrases) : Requests key source w (.phrases p) []
  | withDefault (text : String) {t : Translator σ} {names : List String}
    (h : Requests key source w t names) : Requests key source w (.withDefault text t) names
  | keyAsDefault {t : Translator σ} {names : List String} (h : Requests key source w t names) :
    Requests key source w (.keyAsDefault t) names
  | filled {t : Translator σ} {i : Interpolator σ} {template : String} {w' : World σ}
    {names more : List String} (h : Requests key source w t names)
    (returned : t.translate key source w = .ok template w')
    (hi : i.Asks template source w'.caller more) :
    Requests key source w (.interpolated t i) (names ++ more)
  | notFilled {t : Translator σ} {i : Interpolator σ} {f : Failure} {w' : World σ}
    {names : List String} (h : Requests key source w t names)
    (failed : t.translate key source w = .error f w') :
    Requests key source w (.interpolated t i) names

theorem exists_requests {t : Translator σ} (ht : t.Layered) (key : String) (source : Source σ)
    (w : World σ) : ∃ names, t.Requests key source w names := by
  induction t with
  | phrases p => exact ⟨[], .phrases p⟩
  | function f => exact ht.elim
  | withDefault text inner ih =>
    obtain ⟨names, h⟩ := ih ht
    exact ⟨names, .withDefault text h⟩
  | keyAsDefault inner ih =>
    obtain ⟨names, h⟩ := ih ht
    exact ⟨names, .keyAsDefault h⟩
  | interpolated inner i ih =>
    obtain ⟨names, h⟩ := ih ht.1
    cases hinner : inner.translate key source w with
    | ok template w' =>
      obtain ⟨more, hmore⟩ := Interpolator.exists_asks ht.2 template source w'.caller
      exact ⟨names ++ more, .filled h hinner hmore⟩
    | error f w' => exact ⟨names, .notFilled h hinner⟩

/-- Phrases leave the caller's state alone. -/
theorem caller_phrases (p : Phrases) (key : String) (w : World σ) :
    (stateAfter (p.translate key w)).caller = w.caller := by
  by_cases hleaf : ∃ text, p.follow key = .node (.leaf text)
  · obtain ⟨text, htext⟩ := hleaf
    rw [Phrases.translate_of_leaf htext]
    rfl
  · obtain ⟨reason, message, herror⟩ :=
      Phrases.translate_of_not_leaf (fun text htext => hleaf ⟨text, htext⟩) w
    rw [herror]
    rfl

/-- **A translation leaves the names that it asks for in the trace.** -/
theorem Requests.trace_eq {t : Translator (σ × List String)} {key : String} {source : Source σ}
    {w : World (σ × List String)} {names : List String}
    (h : t.Requests key source.traced w names) :
    (stateAfter (t.translate key source.traced w)).caller.2 = w.caller.2 ++ names := by
  induction h with
  | phrases p =>
    rw [List.append_nil]
    exact congrArg Prod.snd (caller_phrases p key w)
  | @withDefault text t names h ih =>
    rw [← ih]
    exact congrArg Prod.snd (caller_handling (fun _ _ => rfl) w)
  | @keyAsDefault t names h ih =>
    rw [← ih]
    exact congrArg Prod.snd (caller_handling (fun _ _ => rfl) w)
  | @filled t i template w' names more h returned hi ih =>
    rw [returned] at ih
    -- the interpolator goes on in the world that the inner translator left behind
    have hinner : w'.caller.2 = w.caller.2 ++ names := ih
    rw [interpolated_of_ok returned, ← List.append_assoc, ← hinner, ← hi.trace_eq]
    exact congrArg Prod.snd (caller_handling (fun _ _ => rfl) w')
  | @notFilled t i f w' names h failed ih =>
    rw [failed] at ih
    rw [interpolated_of_error failed]
    exact ih

/--
**A translation asks for the names of its layers, and for nothing else.** Whatever the source
answers and keeps, the trace of a translation is the row of names that its layers ask for, and there
always is such a row.
-/
theorem translate_requests {t : Translator (σ × List String)} (ht : t.Layered) (key : String)
    (source : Source σ) (w : World (σ × List String)) :
    (∃ names, t.Requests key source.traced w names) ∧
    ∀ names, t.Requests key source.traced w names ↔
      (stateAfter (t.translate key source.traced w)).caller.2 = w.caller.2 ++ names := by
  obtain ⟨asked, hasked⟩ := exists_requests ht key source.traced w
  refine ⟨⟨asked, hasked⟩, fun names => ⟨Requests.trace_eq, fun htrace => ?_⟩⟩
  rw [hasked.trace_eq] at htrace
  rw [← List.append_cancel_left htrace]
  exact hasked

/-- A text with two declarations, the second of which fails; a fallback around it with one
declaration, which fails as well; and a lenient layer around both. -/
def twiceFilled : Translator (Nat × List String) :=
  interpolated
    (withDefault "lost %\x7bc\x7d"
      (interpolated (phrases ⟨.mk [("k", .leaf "%\x7ba\x7d %\x7bb\x7d %\x7ba\x7d")], "."⟩)
        .standard))
    (.lenient .standard)

/-- The third declaration of the text is not asked for; that of the fallback is. -/
theorem translate_requests_twiceFilled :
    twiceFilled.Layered ∧
    twiceFilled.Requests "k" numberedSource.traced ⟨(0, []), []⟩ ["a", "b", "c"] := by
  have hlayered : twiceFilled.Layered := ⟨⟨trivial, trivial⟩, trivial⟩
  refine ⟨hlayered, ?_⟩
  refine ((translate_requests hlayered "k" numberedSource ⟨(0, []), []⟩).2 _).2 ?_
  decide +kernel

end Translator

end Phrasebook
