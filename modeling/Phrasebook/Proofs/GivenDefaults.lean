import Phrasebook.Proofs.Leftmost

/-!
# Defaults for all declarations

A text for the properties that a source misses can be given in two places: to the source, or to
every declaration of the template. `interpolate_given` says that both fill the template alike, and
that the defaults that are written in it do not count then.

The second place changes the template, and what is read from it must be shown to change in nothing
else. Its gaps may hold what almost starts a declaration, such as an opening without a name or one
that is never closed, and what follows decides whether it does. It decides little, though: whether
a percent sign starts a declaration depends on the two characters behind it and on a closing brace
later (`Opens`). However a declaration is written, it starts with the same character and has a
closing brace. So the gaps stay gaps (`Leftmost.withDefault`), whatever the given text looks like,
as long as it does not close a declaration.
-/

namespace Phrasebook

variable {σ : Type}

/-! ## Where declarations start -/

/-- Behind a percent sign, the text makes it the start of a declaration. -/
def Opens (s : List Char) : Prop :=
  ∃ c rest, s = '\x7b' :: c :: rest ∧ c ≠ '\x7d' ∧ c ≠ '|' ∧ '\x7d' ∈ rest

theorem Opens.append {s : List Char} (h : Opens s) (after : List Char) : Opens (s ++ after) := by
  obtain ⟨c, rest, rfl, hc, hmark, hclosing⟩ := h
  exact ⟨c, rest ++ after, rfl, hc, hmark, List.mem_append_left after hclosing⟩

theorem Placeholder.literal_eq_opening (p : Placeholder) :
    ∃ body, p.literal.toList = '%' :: body ∧ Opens body := by
  obtain ⟨c, name, hname⟩ := List.exists_cons_of_ne_nil p.name_toList_ne_nil
  have hc : c ≠ '\x7d' ∧ c ≠ '|' := by
    apply p.name_chars
    rw [hname]
    exact List.mem_cons_self
  cases hd : p.default? with
  | none =>
    refine ⟨'\x7b' :: c :: (name ++ ['\x7d']), ?_, c, _, rfl, hc.1, hc.2, by simp⟩
    simp [literal, hd, hname]
  | some text =>
    refine ⟨'\x7b' :: c :: (name ++ '|' :: (text.toList ++ ['\x7d'])), ?_, c, _, rfl, hc.1, hc.2,
      by simp⟩
    simp [literal, hd, hname]

theorem chars_of_not_mem {name : List Char} (hclosing : '\x7d' ∉ name) (hmark : '|' ∉ name) :
    ∀ c ∈ (String.ofList name).toList, c ≠ '\x7d' ∧ c ≠ '|' := by
  intro c hc
  rw [String.toList_ofList] at hc
  constructor
  · rintro rfl
    exact hclosing hc
  · rintro rfl
    exact hmark hc

/-- Something that is written like a declaration is told by its opening, the first character of its
name and its closing. -/
theorem exists_literal_prefix_iff {c : Char} {s : List Char} :
    (∃ p : Placeholder, p.literal.toList <+: c :: s) ↔ c = '%' ∧ Opens s := by
  constructor
  · rintro ⟨p, after, h⟩
    obtain ⟨body, hbody, hopens⟩ := p.literal_eq_opening
    rw [hbody] at h
    obtain ⟨rfl, rfl⟩ := List.cons.inj h
    exact ⟨rfl, hopens.append after⟩
  · rintro ⟨rfl, c, rest, rfl, hc, hmark, hclosing⟩
    obtain ⟨inner, after, rfl, hinner⟩ := List.eq_append_cons_of_mem hclosing
    -- what stands before the closing is a name, or a name, a mark and a default
    by_cases hbar : '|' ∈ inner
    · obtain ⟨name, text, rfl, hname⟩ := List.eq_append_cons_of_mem hbar
      simp only [List.mem_append, List.mem_cons, not_or] at hinner
      have hchars : ∀ x ∈ (String.ofList (c :: name)).toList, x ≠ '\x7d' ∧ x ≠ '|' :=
        chars_of_not_mem (by simp [hc.symm, hinner.1]) (by simp [hmark.symm, hname])
      refine ⟨⟨String.ofList (c :: name), some (String.ofList text), by simp, hchars, ?_⟩,
        after, ?_⟩
      · simpa using hinner.2.2
      · simp [Placeholder.literal]
    · have hchars : ∀ x ∈ (String.ofList (c :: inner)).toList, x ≠ '\x7d' ∧ x ≠ '|' :=
        chars_of_not_mem (by simp [hc.symm, hinner]) (by simp [hmark.symm, hbar])
      refine ⟨⟨String.ofList (c :: inner), none, by simp, hchars, by simp⟩, after, ?_⟩
      simp [Placeholder.literal]

/-! ## Other fillings in the same gaps -/

section Weaving

variable {gap : List Char} {gaps fillings others : List (List Char)}

/-- Every text starts with a percent sign and holds a closing brace. -/
def LikeDeclarations (fillings : List (List Char)) : Prop :=
  ∀ filling ∈ fillings, ∃ body, filling = '%' :: body ∧ '\x7d' ∈ body

theorem likeDeclarations_literals (ps : List Placeholder) : LikeDeclarations (literals ps) := by
  intro filling h
  obtain ⟨p, -, rfl⟩ := List.mem_map.1 h
  obtain ⟨body, hbody, c, rest, rfl, -, -, hclosing⟩ := p.literal_eq_opening
  refine ⟨_, hbody, ?_⟩
  simp [hclosing]

theorem closing_mem_weave (hlength : fillings.length = others.length)
    (hothers : LikeDeclarations others) (h : '\x7d' ∈ weave (gap :: gaps) fillings) :
    '\x7d' ∈ weave (gap :: gaps) others := by
  cases others with
  | nil =>
    obtain rfl : fillings = [] := List.length_eq_zero_iff.1 hlength
    exact h
  | cons other others =>
    obtain ⟨body, rfl, hclosing⟩ := hothers other List.mem_cons_self
    simp [weave, hclosing]

/-- Whether woven texts make a percent sign the start of a declaration does not depend on what they
are filled with. -/
theorem Opens.weave_congr (hlength : fillings.length = others.length)
    (hfillings : LikeDeclarations fillings) (hothers : LikeDeclarations others)
    (h : Opens (weave (gap :: gaps) fillings)) : Opens (weave (gap :: gaps) others) := by
  obtain ⟨c, rest, hs, hc, hmark, hclosing⟩ := h
  match gap with
  | [] =>
    cases fillings with
    | nil => cases hs
    | cons filling fillings =>
      obtain ⟨body, rfl, -⟩ := hfillings filling List.mem_cons_self
      cases hs
  | [b] =>
    cases fillings with
    | nil => cases hs
    | cons filling fillings =>
      obtain ⟨other, others, rfl⟩ := List.exists_cons_of_length_pos
        (hlength ▸ Nat.zero_lt_succ _ : 0 < others.length)
      obtain ⟨body, rfl, hbody⟩ := hothers other List.mem_cons_self
      obtain ⟨rfl, -⟩ := List.cons.inj hs
      refine ⟨'%', body ++ weave gaps others, rfl, by decide, by decide, ?_⟩
      exact List.mem_append_left _ hbody
  | b :: b' :: gap =>
    have hweave : ∀ texts, weave ((b :: b' :: gap) :: gaps) texts
        = b :: b' :: weave (gap :: gaps) texts := by
      intro texts
      cases texts <;> rfl
    rw [hweave] at hs ⊢
    cases hs
    exact ⟨c, _, rfl, hc, hmark, closing_mem_weave hlength hothers hclosing⟩

end Weaving

/-! ## Other defaults -/

/-- A declaration of the same name that has the default. -/
def Placeholder.withDefault (p : Placeholder) (text : String) (h : '\x7d' ∉ text.toList) :
    Placeholder where
  name := p.name
  default? := some text
  name_ne_empty := p.name_ne_empty
  name_chars := p.name_chars
  default_chars := by
    rintro _ ⟨⟩
    exact h

/-- **With another default for every declaration, the same declarations are found between the same
gaps.** -/
theorem Leftmost.withDefault {text : String} (h : '\x7d' ∉ text.toList) :
    ∀ {s : List Char} {gs : List (List Char)} {ps : List Placeholder}, Leftmost s gs ps →
      Leftmost (weave gs (literals (ps.map (·.withDefault text h)))) gs
        (ps.map (·.withDefault text h))
  | _, [], _, hleft => absurd hleft.length_eq (Nat.succ_ne_zero _).symm
  | _, [[]], [], _ => .nil
  | _, [] :: _ :: _, [], hleft => absurd (Nat.succ.inj hleft.length_eq) (Nat.succ_ne_zero _)
  | _, [] :: _, p :: _, hleft => by
    obtain ⟨rest, -, hrest⟩ := hleft.of_slot
    exact (hrest.withDefault h).slot (p.withDefault text h)
  | s, (c :: gap) :: gs, ps, hleft => by
    obtain ⟨hnone, rest, rfl, hrest⟩ := hleft.of_char
    have hweave := weave_consFirst c (List.cons_ne_nil gap gs)
      (literals (ps.map (·.withDefault text h)))
    show Leftmost (weave (Text.consFirst c (gap :: gs)) _) _ _
    rw [hweave]
    refine (hrest.withDefault h).char fun q hq => ?_
    -- a declaration that would start in the new text would start in the old one
    obtain ⟨rfl, hopens⟩ := exists_literal_prefix_iff.1 ⟨q, hq⟩
    have hold := hopens.weave_congr (by simp [literals]) (likeDeclarations_literals _)
      (likeDeclarations_literals ps)
    rw [hrest.woven] at hold
    obtain ⟨p, hp⟩ := exists_literal_prefix_iff.2 ⟨rfl, hold⟩
    exact hnone p hp

/-- The declaration with another default, or with one if it had none, and how it is written then. -/
def Declaration.withDefault (text : String) (d : Declaration) : Declaration :=
  ⟨"%\x7b" ++ d.name ++ "|" ++ text ++ "\x7d", d.name, some text⟩

/-- The template with the default for every declaration, and the text between them as it is. -/
def withDefaults (text template : String) : String :=
  String.ofList (fillSegments (fun d => (d.withDefault text).literal.toList)
    (Grammar.standard.segments template))

/-- **Giving the declarations of a template a default changes nothing else.** -/
theorem declarations_withDefaults {text : String} (h : '\x7d' ∉ text.toList) (template : String) :
    gaps (Grammar.standard.segments (withDefaults text template))
        = gaps (Grammar.standard.segments template) ∧
      Grammar.standard.declarations (withDefaults text template)
        = (Grammar.standard.declarations template).map (·.withDefault text) := by
  obtain ⟨ps, hps, hleft⟩ : ∃ ps : List Placeholder,
      Grammar.standard.declarations template = ps.map Placeholder.declaration ∧
      Leftmost template.toList (gaps (Grammar.standard.segments template)) ps :=
    leftmost_segmentsFrom template.toList
  have htext : (withDefaults text template).toList
      = weave (gaps (Grammar.standard.segments template))
        (literals (ps.map (·.withDefault text h))) := by
    rw [withDefaults, String.toList_ofList, fillSegments_eq_weave, ← Grammar.declarations, hps,
      literals, List.map_map, List.map_map]
    rfl
  have hnew := hleft.withDefault h
  rw [← htext] at hnew
  obtain ⟨hgaps, hdeclarations⟩ := hnew.found
  refine ⟨hgaps, ?_⟩
  rw [hps, List.map_map]
  refine Eq.trans hdeclarations ?_
  rw [List.map_map]
  rfl

/-! ## Filling from a source that always answers alike -/

/-- Declarations of one template with the same literal are the same declaration. -/
theorem eq_of_literal_eq {template : String} {d e : Declaration}
    (hd : d ∈ Grammar.standard.declarations template)
    (he : e ∈ Grammar.standard.declarations template) (h : e.literal = d.literal) : e = d := by
  obtain ⟨ps, hps, -⟩ := leftmost_segmentsFrom template.toList
  have hds : Grammar.standard.declarations template = ps.map Placeholder.declaration := hps
  rw [hds] at hd he
  obtain ⟨p, -, rfl⟩ := List.mem_map.1 hd
  obtain ⟨q, -, rfl⟩ := List.mem_map.1 he
  exact Placeholder.declaration_eq_of_literal h

/-- If all declarations have a value, filling shows the values in their places. -/
theorem fill_fixed {answer : String → Except Failure String} {template : String}
    {value : Declaration → String}
    (h : ∀ d ∈ Grammar.standard.declarations template, d.value? answer = some (value d)) (s : σ) :
    Grammar.standard.fill template (Source.fixed answer) s
      = .ok (String.ofList (weave (gaps (Grammar.standard.segments template))
          ((Grammar.standard.declarations template).map fun d => (value d).toList))) s := by
  have hvalues : (Grammar.standard.declarations template).map (Declaration.value? answer)
      = ((Grammar.standard.declarations template).map value).map some := by
    rw [List.map_map]
    exact List.map_congr_left h
  rw [Grammar.fill_eq_ok_iff]
  refine ⟨_, answers_fixed_iff.2 ⟨hvalues, rfl⟩, ?_⟩
  have hshown : ∀ d ∈ Grammar.standard.declarations template, (value d).toList
      = (shownText (Grammar.standard.declarations template)
        ((Grammar.standard.declarations template).map value) d).toList := by
    intro d hd
    have hvalue := value?_eq_shownText hvalues (fun _ hd _ he => eq_of_literal_eq hd he) hd
    rw [h d hd] at hvalue
    rw [← Option.some.inj hvalue]
  rw [Grammar.filled, List.map_congr_left hshown]

/-! ## The two places for a default -/

/-- The answer to a name, or the text where there is none. -/
def given (answer : String → Except Failure String) (text name : String) : String :=
  match answer name with
  | .ok found => found
  | .error _ => text

section Given

variable {answer : String → Except Failure String}

/-- A source that has the text for what it misses always answers. -/
theorem lookup_defaulted
    (hanswer : ∀ name f, answer name = .error f → f.fault.isPropertyNotFound = true)
    (text : String) : DefaultedSource.lookup ⟨(Source.fixed answer : Source σ), text⟩
      = Source.fixed fun name => .ok (given answer text name) := by
  funext name s
  cases h : answer name with
  | ok found =>
    have hfixed : (Source.fixed answer : Source σ) name s = .ok found s :=
      fixed_eq_ok_iff.2 ⟨h, rfl⟩
    have hlookup : DefaultedSource.lookup ⟨Source.fixed answer, text⟩ name s = .ok found s :=
      handling_ok hfixed
    rw [hlookup]
    simp [Source.fixed, given, h]
  | error f =>
    have hfixed : (Source.fixed answer : Source σ) name s = .error f s :=
      fixed_eq_error_iff.2 ⟨h, rfl⟩
    have hlookup : DefaultedSource.lookup ⟨Source.fixed answer, text⟩ name s = .ok text s :=
      handling_of_kind hfixed (hanswer name f h)
    rw [hlookup]
    simp [Source.fixed, given, h]

/-- A declaration that has the text as its default always has a value. -/
theorem value?_withDefault
    (hanswer : ∀ name f, answer name = .error f → f.fault.isPropertyNotFound = true)
    (text : String) (d : Declaration) :
    (d.withDefault text).value? answer = some (given answer text d.name) := by
  cases h : answer d.name with
  | ok found => simp [Declaration.value?, Declaration.withDefault, given, h]
  | error f => simp [Declaration.value?, Declaration.withDefault, given, h, hanswer _ _ h]

/--
**A default for all declarations.** Let a source always answer alike and fail only by missing
properties, and let a text close no declaration.

* Giving the text to every declaration of a template as its default leaves the names and their order
  as they are, and the gaps too.
* The template is filled from the source that has the text for what it misses. What comes out are
  the gaps with the answers between them, and the text where there is none; a default that is
  written in the template does not occur in this.
* The same comes out if the template with the given defaults is filled from the source itself.
-/
theorem interpolate_given
    (hanswer : ∀ name f, answer name = .error f → f.fault.isPropertyNotFound = true)
    {text : String} (htext : '\x7d' ∉ text.toList) (template : String) (w : World σ) :
    (gaps (Grammar.standard.segments (withDefaults text template))
        = gaps (Grammar.standard.segments template) ∧
      Grammar.standard.declarations (withDefaults text template)
        = (Grammar.standard.declarations template).map (·.withDefault text)) ∧
    ∃ result, result.toList = weave (gaps (Grammar.standard.segments template))
        ((Grammar.standard.declarations template).map fun d =>
          (given answer text d.name).toList) ∧
      Interpolator.standard.interpolate template
        (DefaultedSource.lookup ⟨Source.fixed answer, text⟩) w = .ok result w ∧
      Interpolator.standard.interpolate (withDefaults text template) (Source.fixed answer) w
        = .ok result w := by
  obtain ⟨hgaps, hdeclarations⟩ := declarations_withDefaults htext template
  have hsource := @fill_fixed σ (fun name => .ok (given answer text name)) template
    (fun d => given answer text d.name) (fun d _ => rfl) w.caller
  have htemplate := @fill_fixed σ answer (withDefaults text template)
    (fun d => given answer text d.name) (by
      intro d hd
      rw [hdeclarations] at hd
      obtain ⟨e, -, rfl⟩ := List.mem_map.1 hd
      exact value?_withDefault hanswer text e) w.caller
  rw [hgaps, hdeclarations, List.map_map] at htemplate
  refine ⟨⟨hgaps, hdeclarations⟩, _, String.toList_ofList, ?_, act_of_ok htemplate⟩
  rw [lookup_defaulted hanswer]
  exact act_of_ok hsource

/-- Answers to one name. -/
def answerOne (name : String) : Except Failure String :=
  if name = "a" then .ok "1" else .error ⟨.propertyNotFound name "unknown", []⟩

theorem isPropertyNotFound_answerOne (name : String) (f : Failure)
    (h : answerOne name = .error f) : f.fault.isPropertyNotFound = true := by
  unfold answerOne at h
  split at h
  · cases h
  · cases h
    rfl

/-- A template with an opening that has no name and one that has no closing. -/
def halfOpened : String := "%\x7b\x7d%\x7ba\x7d-%\x7bb|x\x7d%\x7bc|"

/-- The openings stay in their gaps, though the given text looks like the start of a declaration. -/
theorem interpolate_given_openings :
    withDefaults "%\x7ba|" halfOpened
      = "%\x7b\x7d%\x7ba|%\x7ba|\x7d-%\x7bb|%\x7ba|\x7d%\x7bc|" ∧
    ∃ result : String, result.toList = "%\x7b\x7d1-%\x7ba|%\x7bc|".toList ∧
      Interpolator.standard.interpolate halfOpened
        (DefaultedSource.lookup ⟨Source.fixed answerOne, "%\x7ba|"⟩) ⟨(), []⟩
        = .ok result ⟨(), []⟩ ∧
      Interpolator.standard.interpolate (withDefaults "%\x7ba|" halfOpened)
        (Source.fixed answerOne) ⟨(), []⟩ = .ok result ⟨(), []⟩ := by
  have htext : '\x7d' ∉ "%\x7ba|".toList := by decide
  obtain ⟨-, result, hresult, hfilled⟩ :=
    interpolate_given isPropertyNotFound_answerOne htext halfOpened (⟨(), []⟩ : World Unit)
  exact ⟨by decide +kernel, result, hresult.trans (by decide +kernel), hfilled⟩

end Given

end Phrasebook
