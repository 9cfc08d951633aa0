import Phrasebook.Proofs.Written

/-!
# The two passes over a template

Filling a template goes over it twice: the first pass lists the declarations, so that they can be
resolved, and the second pass puts their texts in. In between lies a table, and the second pass
fails if it meets a declaration whose literal is not in the table.

A `Pattern` finds declarations in any way at all, as long as none of them is empty. Both passes are
loops around one search for the next declaration (`occurrencesFrom`, `substituteFrom`), and both go
on behind what they found. So the second pass meets exactly what the first one listed, at the same
places (`substituteFrom_eq_mapM`, by induction along the text), whatever it puts in, and the table
has an entry for all of it.

A `Grammar` is such a pattern, and filling by its pieces is filling in two passes.
-/

namespace Phrasebook

variable {σ ω : Type}

/-! ## Patterns -/

/-- A way to find declarations: the declaration that starts at a place, if one does, told from the
text before the place and the text from there on. It is not empty, and it is what stands there. -/
structure Pattern where
  declaration? : List Char → List Char → Option Declaration
  literal_ne_nil {before after : List Char} {d : Declaration}
    (h : declaration? before after = some d) : d.literal.toList ≠ []
  literal_isPrefix {before after : List Char} {d : Declaration}
    (h : declaration? before after = some d) : d.literal.toList <+: after

/-- A declaration at a place of a template. -/
structure Occurrence where
  place : Nat
  declaration : Declaration
deriving Repr, DecidableEq

/-- The place behind a declaration. -/
def Occurrence.stop (o : Occurrence) : Nat := o.place + o.declaration.literal.toList.length

/-- What a search finds: the next declaration, the gap before it and the rest behind it. -/
structure Found where
  gap : List Char
  declaration : Declaration
  rest : List Char

namespace Found

/-- The text up to the end of what is found. -/
def passed (f : Found) (before : List Char) : List Char :=
  before ++ f.gap ++ f.declaration.literal.toList

/-- What is found, with its place. -/
def occurrence (f : Found) (before : List Char) : Occurrence :=
  ⟨(before ++ f.gap).length, f.declaration⟩

theorem stop_occurrence (f : Found) (before : List Char) :
    (f.occurrence before).stop = (f.passed before).length := by
  rw [passed, List.length_append]
  rfl

end Found

namespace Pattern

variable {p : Pattern} {before after : List Char} {f : Found}

/-- Searches for the next declaration, place by place. There is none at the very end, as it would be
empty. -/
def search (p : Pattern) : List Char → List Char → Option Found
  | _, [] => none
  | before, c :: rest =>
    match p.declaration? before (c :: rest) with
    | some d => some ⟨[], d, (c :: rest).drop d.literal.toList.length⟩
    | none => (p.search (before ++ [c]) rest).map fun f => { f with gap := c :: f.gap }

/-- A search loses nothing, and what it finds is not empty. -/
theorem search_eq_some (h : p.search before after = some f) :
    after = f.gap ++ f.declaration.literal.toList ++ f.rest ∧
      f.declaration.literal.toList ≠ [] := by
  induction after generalizing before f with
  | nil => cases h
  | cons c rest ih =>
    rw [search] at h
    cases hd : p.declaration? before (c :: rest) with
    | some d =>
      rw [hd] at h
      cases h
      obtain ⟨tail, htail⟩ := p.literal_isPrefix hd
      refine ⟨?_, p.literal_ne_nil hd⟩
      rw [← htail, List.drop_left, List.nil_append]
    | none =>
      rw [hd] at h
      obtain ⟨inner, hinner, rfl⟩ := Option.map_eq_some_iff.1 h
      obtain ⟨hrest, hne⟩ := ih hinner
      exact ⟨congrArg (c :: ·) hrest, hne⟩

/-- What is found starts where it is found. -/
theorem declaration?_of_search (h : p.search before after = some f) :
    p.declaration? (before ++ f.gap) (f.declaration.literal.toList ++ f.rest)
      = some f.declaration := by
  induction after generalizing before f with
  | nil => cases h
  | cons c rest ih =>
    rw [search] at h
    cases hd : p.declaration? before (c :: rest) with
    | some d =>
      rw [hd] at h
      cases h
      obtain ⟨tail, htail⟩ := p.literal_isPrefix hd
      rw [List.append_nil, ← htail, List.drop_left, htail, hd]
    | none =>
      rw [hd] at h
      obtain ⟨inner, hinner, rfl⟩ := Option.map_eq_some_iff.1 h
      rw [← ih hinner, List.append_assoc]
      rfl

theorem length_rest_lt (h : p.search before after = some f) : f.rest.length < after.length := by
  obtain ⟨hafter, hne⟩ := search_eq_some h
  have hpos : 0 < f.declaration.literal.toList.length := List.length_pos_iff.2 hne
  rw [hafter, List.length_append, List.length_append]
  omega

/-- The whole text, seen from behind what is found. -/
theorem passed_append_rest (h : p.search before after = some f) :
    before ++ after = f.passed before ++ f.rest := by
  rw [(search_eq_some h).1, Found.passed]
  simp only [List.append_assoc]

/-! ## The first pass -/

/-- The declarations from a place on, one behind the other. -/
def occurrencesFrom (p : Pattern) (before after : List Char) : List Occurrence :=
  match _h : p.search before after with
  | none => []
  | some f => f.occurrence before :: p.occurrencesFrom (f.passed before) f.rest
termination_by after.length
decreasing_by exact length_rest_lt _h

/-- The declarations of a template with their places. -/
def occurrences (p : Pattern) (template : String) : List Occurrence :=
  p.occurrencesFrom [] template.toList

/-- The declarations of a template, in order. -/
def declarations (p : Pattern) (template : String) : List Declaration :=
  (p.occurrences template).map Occurrence.declaration

/-! ## The second pass -/

/-- The text from a place on, with every declaration that is met replaced. -/
def substituteFrom (p : Pattern) (replace : Occurrence → Effect ω (List Char))
    (before after : List Char) : Effect ω (List Char) :=
  match _h : p.search before after with
  | none => pure after
  | some f => do
    let text ← replace (f.occurrence before)
    let rest ← p.substituteFrom replace (f.passed before) f.rest
    return f.gap ++ text ++ rest
termination_by after.length
decreasing_by exact length_rest_lt _h

/-- The template with every declaration replaced. -/
def substitute (p : Pattern) (replace : Occurrence → Effect ω (List Char)) (template : String) :
    Effect ω String :=
  String.ofList <$> p.substituteFrom replace [] template.toList

section Substitute

variable {replace : Occurrence → Effect ω (List Char)}

theorem substituteFrom_of_none (h : p.search before after = none) :
    p.substituteFrom replace before after = pure after := by
  rw [substituteFrom]
  split
  · rfl
  · next f hf => rw [h] at hf; cases hf

theorem substituteFrom_of_some (h : p.search before after = some f) :
    p.substituteFrom replace before after = (do
      let text ← replace (f.occurrence before)
      let rest ← p.substituteFrom replace (f.passed before) f.rest
      return f.gap ++ text ++ rest) := by
  rw [substituteFrom]
  split
  · next hnone => rw [h] at hnone; cases hnone
  · next g hg =>
    rw [h] at hg
    cases hg
    rfl

end Substitute

/-! ## Both passes -/

/-- The text between declarations, from a place on, cut out by the places alone. -/
def between (text : List Char) : Nat → List Occurrence → List (List Char)
  | start, [] => [text.drop start]
  | start, o :: rest => text.extract start o.place :: between text o.stop rest

theorem length_between (text : List Char) (start : Nat) (occurrences : List Occurrence) :
    (between text start occurrences).length = occurrences.length + 1 := by
  induction occurrences generalizing start with
  | nil => rfl
  | cons o rest ih => rw [between, List.length_cons, ih, List.length_cons]

/-- The text before what is found is the gap, and the others lie behind it. -/
theorem between_cons (h : p.search before after = some f) (others : List Occurrence) :
    between (before ++ after) before.length (f.occurrence before :: others)
      = f.gap :: between (f.passed before ++ f.rest) (f.passed before).length others := by
  have hgap : (before ++ after).extract before.length (f.occurrence before).place = f.gap := by
    rw [(search_eq_some h).1, Found.occurrence, List.extract, List.drop_left, List.length_append,
      Nat.add_sub_cancel_left, List.append_assoc, List.take_left]
  rw [between, hgap, Found.stop_occurrence, passed_append_rest h]

/-- **The second pass meets what the first one listed**, in the same order and at the same places,
and leaves the text between as it is. -/
theorem substituteFrom_eq_mapM (p : Pattern) (replace : Occurrence → Effect ω (List Char))
    (before after : List Char) :
    p.substituteFrom replace before after
      = (p.occurrencesFrom before after).mapM replace >>= fun texts =>
        pure (weave (between (before ++ after) before.length (p.occurrencesFrom before after))
          texts) := by
  fun_induction p.occurrencesFrom before after with
  | case1 before after h =>
    rw [substituteFrom_of_none h, List.mapM_nil, pure_bind, between, List.drop_left]
    rfl
  | case2 before after f h ih =>
    rw [substituteFrom_of_some h, between_cons h, List.mapM_cons, ih]
    simp only [bind_assoc, pure_bind, weave]

/-- The literals between the gaps are the text. -/
theorem weave_between (p : Pattern) (before after : List Char) :
    weave (between (before ++ after) before.length (p.occurrencesFrom before after))
      ((p.occurrencesFrom before after).map fun o => o.declaration.literal.toList) = after := by
  fun_induction p.occurrencesFrom before after with
  | case1 before after h =>
    rw [between, List.drop_left]
    rfl
  | case2 before after f h ih =>
    rw [between_cons h, List.map_cons, weave, ih]
    exact (search_eq_some h).1.symm

/-- Every declaration that is listed stands at its place. -/
theorem declaration?_of_mem_occurrencesFrom {o : Occurrence}
    (h : o ∈ p.occurrencesFrom before after) :
    p.declaration? ((before ++ after).take o.place) ((before ++ after).drop o.place)
      = some o.declaration := by
  fun_induction p.occurrencesFrom before after with
  | case1 before after hf => cases h
  | case2 before after f hf ih =>
    rcases List.mem_cons.1 h with rfl | h
    · have htext : before ++ after
          = (before ++ f.gap) ++ (f.declaration.literal.toList ++ f.rest) := by
        rw [(search_eq_some hf).1]
        simp only [List.append_assoc]
      rw [htext, Found.occurrence, List.take_left, List.drop_left]
      exact declaration?_of_search hf
    · rw [passed_append_rest hf]
      exact ih h

/-! ## The table in between -/

/-- The texts between the declarations of a template, cut out by their places. -/
def gaps (p : Pattern) (template : String) : List (List Char) :=
  between template.toList 0 (p.occurrences template)

theorem substitute_eq (p : Pattern) (replace : Occurrence → Effect ω (List Char))
    (template : String) :
    p.substitute replace template
      = (p.occurrences template).mapM replace >>= fun texts =>
        pure (String.ofList (weave (p.gaps template) texts)) := by
  rw [substitute, substituteFrom_eq_mapM, map_bind]
  simp only [map_pure]
  rfl

/-- What the table holds for a declaration. A literal that it does not hold is a fault of its own
kind. -/
def entryOf (table : List (String × String)) (o : Occurrence) : Effect ω (List Char) :=
  match valueUnder? o.declaration.literal table with
  | some text => pure text.toList
  | none => failWith (.mishap (.noEntry (Text.quote o.declaration.literal)))

/-- Fills a template in two passes. -/
def fill (p : Pattern) (template : String) (source : Source σ) : Effect σ String := do
  let table ← resolveAll template source [] (p.declarations template)
  p.substitute (entryOf table) template

/-- Declarations that are all in the table are replaced without a fault. -/
theorem mapM_entryOf {table : List (String × String)} {value : Declaration → String} :
    ∀ {os : List Occurrence},
      (∀ o ∈ os, valueUnder? o.declaration.literal table = some (value o.declaration)) →
      os.mapM (entryOf (ω := ω) table) = pure (os.map fun o => (value o.declaration).toList)
  | [], _ => rfl
  | o :: os, h => by
    have ho : entryOf (ω := ω) table o = pure (value o.declaration).toList := by
      rw [entryOf, h o List.mem_cons_self]
    rw [List.mapM_cons, ho, mapM_entryOf fun o ho => h o (List.mem_cons_of_mem _ ho)]
    rfl

section Fill

variable {template : String} {source : Source σ} {table : List (String × String)} {s s' : σ}

/-- **The table has an entry for everything that is listed**: the text that was obtained where the
literal stands first. -/
theorem valueUnder?_of_resolveAll {ds : List Declaration}
    (h : resolveAll template source [] ds s = .ok table s') :
    ∃ texts, Answers source ds s texts s' ∧
      ∀ d ∈ ds, valueUnder? d.literal table = some (shownText ds texts d) := by
  obtain ⟨texts, hanswers, rfl⟩ := resolveAll_eq_ok_iff.1 h
  refine ⟨texts, hanswers, fun d hd => ?_⟩
  have hlt : (ds.findIdx fun e => e.literal == d.literal) < texts.length := by
    rw [hanswers.length_eq]
    exact List.findIdx_lt_length.2 ⟨d, hd, beq_self_eq_true _⟩
  rw [valueUnder?_tableOf _ _ _ _ hanswers.length_eq, valueUnder?, Option.none_or, shownText,
    List.getElem?_eq_getElem hlt, Option.getD_some]

/-- The second pass does not fail. -/
theorem fill_of_resolveAll (h : resolveAll template source [] (p.declarations template) s
      = .ok table s') {value : Declaration → String}
    (hvalue : ∀ d ∈ p.declarations template, valueUnder? d.literal table = some (value d)) :
    p.fill template source s = .ok (String.ofList (weave (p.gaps template)
      ((p.declarations template).map fun d => (value d).toList))) s' := by
  have hentries := mapM_entryOf (ω := σ) fun o ho =>
    hvalue o.declaration (List.mem_map_of_mem ho)
  have hsecond : p.substitute (entryOf (ω := σ) table) template
      = pure (String.ofList (weave (p.gaps template)
        ((p.declarations template).map fun d => (value d).toList))) := by
    rw [substitute_eq, hentries, pure_bind, declarations, List.map_map]
    rfl
  rw [fill, bind_of_ok h, hsecond]
  rfl

/-- Filling fails in the first pass only. -/
theorem resolveAll_of_fill_eq_error {f : Failure} (h : p.fill template source s = .error f s') :
    resolveAll template source [] (p.declarations template) s = .error f s' := by
  rcases bind_eq_error h with hfirst | ⟨table, s₁, hfirst, hsecond⟩
  · exact hfirst
  · obtain ⟨texts, -, hvalue⟩ := valueUnder?_of_resolveAll hfirst
    have hfill := fill_of_resolveAll hfirst hvalue
    rw [h] at hfill
    cases hfill

end Fill

/--
The two passes over a template agree. What the second one replaces is what the first one lists, in
the same order and at the same places, and what lies between is copied. If the first pass succeeds,
then its table holds what is shown for every declaration, and the second pass puts just this in; so
filling fails in the first pass only.
-/
structure PassesAgree (p : Pattern) (template : String) : Prop where
  stands : ∀ o ∈ p.occurrences template,
    p.declaration? (template.toList.take o.place) (template.toList.drop o.place)
      = some o.declaration
  cut : template.toList = weave (p.gaps template)
    ((p.occurrences template).map fun o => o.declaration.literal.toList)
  length_gaps : (p.gaps template).length = (p.occurrences template).length + 1
  replaced : ∀ {ω : Type} (replace : Occurrence → Effect ω (List Char)),
    p.substitute replace template
      = (p.occurrences template).mapM replace >>= fun texts =>
        pure (String.ofList (weave (p.gaps template) texts))
  filled : ∀ {σ : Type} {source : Source σ} {table : List (String × String)} {s s' : σ},
    resolveAll template source [] (p.declarations template) s = .ok table s' →
    ∃ texts shown, Answers source (p.declarations template) s texts s' ∧
      ShowsFirst (p.declarations template) texts shown ∧
      ((p.declarations template).map fun d => valueUnder? d.literal table) = shown.map some ∧
      p.fill template source s
        = .ok (String.ofList (weave (p.gaps template) (shown.map String.toList))) s'
  failed : ∀ {σ : Type} {source : Source σ} {f : Failure} {s s' : σ},
    p.fill template source s = .error f s' →
    resolveAll template source [] (p.declarations template) s = .error f s'

theorem passesAgree (p : Pattern) (template : String) : p.PassesAgree template where
  stands _ ho := declaration?_of_mem_occurrencesFrom ho
  cut := (weave_between p [] template.toList).symm
  length_gaps := length_between _ _ _
  replaced replace := p.substitute_eq replace template
  filled := by
    intro σ source table s s' h
    obtain ⟨texts, hanswers, hvalue⟩ := valueUnder?_of_resolveAll h
    refine ⟨texts, (p.declarations template).map (shownText (p.declarations template) texts),
      hanswers, showsFirst_map hanswers.length_eq, ?_, ?_⟩
    · rw [List.map_map]
      exact List.map_congr_left hvalue
    · rw [fill_of_resolveAll h hvalue, List.map_map]
      rfl
  failed h := resolveAll_of_fill_eq_error h

end Pattern

/-! ## Grammars as patterns -/

namespace Grammar

variable {g : Grammar}

/-- A grammar whose declarations are never empty. -/
def NeverEmpty (g : Grammar) : Prop :=
  ∀ s d, g.declaration? s = some d → d.literal.toList ≠ []

theorem neverEmpty_of_opening (h : g.opening ≠ []) : g.NeverEmpty :=
  fun _ _ => literal_ne_nil h

/-- The pattern of a grammar does not look back. -/
def pattern (g : Grammar) (h : g.NeverEmpty) : Pattern where
  declaration? _ after := g.declaration? after
  literal_ne_nil := h _ _
  literal_isPrefix := literal_isPrefix

section Segments

variable {h : g.NeverEmpty} {before after : List Char}

theorem declaration?_pattern : (g.pattern h).declaration? before after = g.declaration? after :=
  rfl

/-- Where nothing more is found, there are only characters. -/
theorem segmentsFrom_of_search_eq_none (hf : (g.pattern h).search before after = none) :
    g.segmentsFrom 0 after = after.map .char := by
  induction after generalizing before with
  | nil => rfl
  | cons c rest ih =>
    rw [Pattern.search, declaration?_pattern] at hf
    cases hd : g.declaration? (c :: rest) with
    | some d =>
      rw [hd] at hf
      cases hf
    | none =>
      rw [hd] at hf
      rw [segmentsFrom, hd, ih (Option.map_eq_none_iff.1 hf)]
      rfl

/-- Where something is found, there are the characters before it, it, and what lies behind it. -/
theorem segmentsFrom_of_search_eq_some {f : Found}
    (hf : (g.pattern h).search before after = some f) :
    g.segmentsFrom 0 after
      = f.gap.map .char ++ .slot f.declaration :: g.segmentsFrom 0 f.rest := by
  induction after generalizing before f with
  | nil => cases hf
  | cons c rest ih =>
    rw [Pattern.search, declaration?_pattern] at hf
    cases hd : g.declaration? (c :: rest) with
    | some d =>
      have hpos : 0 < d.literal.toList.length := List.length_pos_iff.2 (h _ _ hd)
      rw [hd] at hf
      cases hf
      have hlength : d.literal.toList.length = d.literal.length - 1 + 1 := by
        rw [← String.length_toList]
        omega
      simp only [segmentsFrom, hd, List.map_nil, List.nil_append]
      rw [segmentsFrom_eq_drop, hlength, List.drop_succ_cons]
    | none =>
      rw [hd] at hf
      obtain ⟨inner, hinner, rfl⟩ := Option.map_eq_some_iff.1 hf
      rw [segmentsFrom, hd, ih hinner]
      rfl

theorem filterMap_segmentsFrom (h : g.NeverEmpty) (before after : List Char) :
    (g.segmentsFrom 0 after).filterMap Segment.declaration?
      = ((g.pattern h).occurrencesFrom before after).map Occurrence.declaration := by
  fun_induction (g.pattern h).occurrencesFrom before after with
  | case1 before after hf =>
    rw [segmentsFrom_of_search_eq_none hf, filterMap_declaration?_map_char]
    rfl
  | case2 before after f hf ih =>
    rw [segmentsFrom_of_search_eq_some hf, List.filterMap_append, filterMap_declaration?_map_char,
      List.nil_append, List.filterMap_cons, ih]
    rfl

/-- Filling pieces weaves the values between the gaps that the places cut out. -/
theorem fillSegments_segmentsFrom (h : g.NeverEmpty) (value : Declaration → List Char)
    (before after : List Char) :
    fillSegments value (g.segmentsFrom 0 after)
      = weave (Pattern.between (before ++ after) before.length
          ((g.pattern h).occurrencesFrom before after))
        (((g.pattern h).occurrencesFrom before after).map fun o => value o.declaration) := by
  fun_induction (g.pattern h).occurrencesFrom before after with
  | case1 before after hf =>
    rw [segmentsFrom_of_search_eq_none hf, fillSegments_map_char, Pattern.between, List.drop_left]
    rfl
  | case2 before after f hf ih =>
    rw [segmentsFrom_of_search_eq_some hf, fillSegments_append, fillSegments_map_char,
      Pattern.between_cons hf, List.map_cons, weave, ← ih, List.append_assoc]
    rfl

end Segments

theorem declarations_pattern (h : g.NeverEmpty) (template : String) :
    (g.pattern h).declarations template = g.declarations template :=
  (filterMap_segmentsFrom h [] template.toList).symm

/-- **Filling by pieces is filling in two passes.** -/
theorem fill_pattern (h : g.NeverEmpty) (template : String) (source : Source σ) :
    (g.pattern h).fill template source = g.fill template source := by
  funext s
  cases hfirst : resolveAll template source [] ((g.pattern h).declarations template) s with
  | error f s' =>
    rw [Pattern.fill, bind_of_error hfirst, fill]
    rw [declarations_pattern] at hfirst
    rw [bind_of_error hfirst]
  | ok table s' =>
    have hvalue : ∀ d ∈ (g.pattern h).declarations template,
        valueUnder? d.literal table = some ((valueUnder? d.literal table).getD "") := by
      intro d hd
      obtain ⟨texts, -, hshown⟩ := Pattern.valueUnder?_of_resolveAll hfirst
      rw [hshown d hd, Option.getD_some]
    have hpieces := fillSegments_segmentsFrom h
      (fun d => ((valueUnder? d.literal table).getD "").toList) [] template.toList
    rw [Pattern.fill_of_resolveAll hfirst hvalue, fill]
    rw [declarations_pattern] at hfirst
    rw [bind_of_ok hfirst, segments, hpieces, Pattern.declarations, List.map_map]
    rfl

/-! ## Ways to write declarations -/

/-- Double braces around the name, a bar before the default. -/
def mustache : Grammar where
  opening := ['\x7b', '\x7b']
  isNameChar c := c != '\x7b' && c != '\x7d' && c != '|'
  emptyName := false
  mark := '|'
  keepsMark := false
  isDefaultChar c := c != '\x7b' && c != '\x7d'
  defaultClosing := ['\x7d', '\x7d']
  plainClosing := ['\x7d', '\x7d']

/-- A small letter from a to z. -/
def isSmall (c : Char) : Bool := 'a' ≤ c && c ≤ 'z'

/-- A dollar sign before the name, the default between a colon and a semicolon. -/
def dollar : Grammar where
  opening := ['$']
  isNameChar := isSmall
  emptyName := false
  mark := ':'
  keepsMark := false
  isDefaultChar := isSmall
  defaultClosing := [';']
  plainClosing := []

/-- Angle brackets around a name that may be empty, the default with its equality sign. -/
def angle : Grammar where
  opening := ['<']
  isNameChar c := c != '<' && c != '>' && c != '='
  emptyName := true
  mark := '='
  keepsMark := true
  isDefaultChar c := c != '<' && c != '>'
  defaultClosing := ['>']
  plainClosing := ['>']

theorem neverEmpty_of_mem {g : Grammar} (h : g ∈ [standard, mustache, dollar, angle]) :
    g.NeverEmpty := by
  refine neverEmpty_of_opening ?_
  simp only [List.mem_cons, List.not_mem_nil, or_false] at h
  rcases h with rfl | rfl | rfl | rfl <;> exact List.cons_ne_nil _ _

end Grammar

/--
**The two passes agree**, for every pattern that never finds an empty declaration and for every
template. A grammar without empty declarations is such a pattern, and interpolating by it is filling
in two passes.
-/
theorem Pattern.passes_agree :
    (∀ (p : Pattern) (template : String), p.PassesAgree template) ∧
    (∀ (g : Grammar) (h : g.NeverEmpty) (template : String),
      (g.pattern h).declarations template = g.declarations template ∧
      ∀ {σ : Type} (source : Source σ),
        (Interpolator.placeholder g).interpolate template source
          = Effect.act ((g.pattern h).fill template source)) ∧
    (∀ g ∈ [Grammar.standard, Grammar.mustache, Grammar.dollar, Grammar.angle],
      g.NeverEmpty) := by
  refine ⟨passesAgree, fun g h template => ⟨g.declarations_pattern h template, ?_⟩,
    fun g => Grammar.neverEmpty_of_mem⟩
  intro σ source
  rw [Grammar.fill_pattern h]
  rfl

/-- A template with one literal three times and one default that is not closed. Four lookups fill
the four places, and three of them show the first answer. -/
theorem Pattern.passes_agree_dollar :
    ∃ h : Grammar.dollar.NeverEmpty,
      (Interpolator.placeholder Grammar.dollar).interpolate "$a:b$a;$a:x;$a" numberedSource
          ⟨0, []⟩ = .ok "%\x7ba\x7d0:b%\x7ba\x7d0;%\x7ba\x7d2%\x7ba\x7d0" ⟨4, []⟩ ∧
      (Grammar.dollar.pattern h).fill "$a:b$a;$a:x;$a" numberedSource 0
        = .ok "%\x7ba\x7d0:b%\x7ba\x7d0;%\x7ba\x7d2%\x7ba\x7d0" 4 ∧
      weave ((Grammar.dollar.pattern h).gaps "$a:b$a;$a:x;$a") (["%\x7ba\x7d0", "%\x7ba\x7d0",
          "%\x7ba\x7d2", "%\x7ba\x7d0"].map String.toList)
        = "%\x7ba\x7d0:b%\x7ba\x7d0;%\x7ba\x7d2%\x7ba\x7d0".toList := by
  obtain ⟨hagree, hgrammar, hknown⟩ := Pattern.passes_agree
  have h : Grammar.dollar.NeverEmpty := hknown _ (by simp)
  obtain ⟨hds, hinterpolate⟩ := hgrammar Grammar.dollar h "$a:b$a;$a:x;$a"
  have hresult : (Interpolator.placeholder Grammar.dollar).interpolate "$a:b$a;$a:x;$a"
      numberedSource ⟨0, []⟩
        = .ok "%\x7ba\x7d0:b%\x7ba\x7d0;%\x7ba\x7d2%\x7ba\x7d0" ⟨4, []⟩ := rfl
  have hfirst : resolveAll "$a:b$a;$a:x;$a" numberedSource []
      ((Grammar.dollar.pattern h).declarations "$a:b$a;$a:x;$a") 0
      = .ok [("$a", "%\x7ba\x7d0"), ("$a:x;", "%\x7ba\x7d2")] 4 := by
    rw [hds]
    rfl
  obtain ⟨_, shown, -, -, hshown, hfill⟩ := (hagree _ "$a:b$a;$a:x;$a").filled hfirst
  rw [hds] at hshown
  have hvalues : shown = ["%\x7ba\x7d0", "%\x7ba\x7d0", "%\x7ba\x7d2", "%\x7ba\x7d0"] :=
    ((List.map_inj_right fun _ _ => Option.some.inj).1 hshown).symm
  have hresult' := hresult
  rw [hinterpolate numberedSource] at hresult'
  obtain ⟨hfill', -⟩ := act_eq_ok hresult'
  rw [hvalues, hfill'] at hfill
  injection hfill with hwoven
  exact ⟨h, hresult, hfill', by rw [hwoven, String.toList_ofList]⟩

end Phrasebook
