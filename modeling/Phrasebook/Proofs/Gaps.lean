import Phrasebook.Template
import Phrasebook.Text.Split

/-!
# Gaps of a template

Cutting a template loses nothing: the pieces, put together again, are the template. Between the
declarations lie the gaps, one more than there are declarations, and filling a template means to
weave new texts between the same gaps.

`flatMap_source_segments` holds for every grammar whose declarations open with something.
-/

namespace Phrasebook

/-! ## Weaving -/

/-- The texts around the declarations of a row of pieces. -/
def gaps : List Segment → List (List Char)
  | [] => [[]]
  | .char c :: rest => Text.consFirst c (gaps rest)
  | .slot _ :: rest => [] :: gaps rest

/-- Gaps with fillings between them. -/
def weave : List (List Char) → List (List Char) → List Char
  | gap :: gaps, filling :: fillings => gap ++ filling ++ weave gaps fillings
  | gap :: _, [] => gap
  | [], _ => []

theorem gaps_ne_nil : ∀ segments : List Segment, gaps segments ≠ []
  | [] => by simp [gaps]
  | .char c :: rest => by
    rw [gaps]
    cases gaps rest <;> simp [Text.consFirst]
  | .slot _ :: _ => by simp [gaps]

theorem length_gaps : ∀ segments : List Segment,
    (gaps segments).length = (segments.filterMap Segment.declaration?).length + 1
  | [] => rfl
  | .char c :: rest => by
    show (gaps (.char c :: rest)).length = (rest.filterMap Segment.declaration?).length + 1
    rw [gaps, ← length_gaps rest]
    cases h : gaps rest with
    | nil => exact absurd h (gaps_ne_nil rest)
    | cons => rfl
  | .slot d :: rest => by simp [gaps, Segment.declaration?, length_gaps rest]

theorem weave_consFirst (c : Char) {gaps : List (List Char)} (h : gaps ≠ [])
    (fillings : List (List Char)) :
    weave (Text.consFirst c gaps) fillings = c :: weave gaps fillings := by
  match gaps, fillings, h with
  | [], _, h => exact absurd rfl h
  | _ :: _, [], _ => rfl
  | _ :: _, _ :: _, _ => rfl

/-- Filling pieces weaves the values of the declarations between the gaps. -/
theorem fillSegments_eq_weave (value : Declaration → List Char) : ∀ segments : List Segment,
    fillSegments value segments
      = weave (gaps segments) ((segments.filterMap Segment.declaration?).map value)
  | [] => rfl
  | .char c :: rest => by
    have ih := fillSegments_eq_weave value rest
    rw [gaps, weave_consFirst c (gaps_ne_nil rest)]
    exact congrArg (c :: ·) ih
  | .slot d :: rest => by
    have ih := fillSegments_eq_weave value rest
    exact congrArg (value d ++ ·) ih

/-! ## Nothing is lost -/

namespace Grammar

variable {g : Grammar}

/-- A declaration is the start of the text that it was found in, with the opening and more. -/
theorem literal_eq_take {s : List Char} {d : Declaration} (h : g.declaration? s = some d) :
    g.opening <+: s ∧ ∃ n, g.opening.length ≤ n ∧ d.literal.toList = s.take n := by
  simp only [declaration?] at h
  split at h
  · next ho =>
    refine ⟨List.isPrefixOf_iff_prefix.1 ho, ?_⟩
    split at h
    · cases h
    · split at h
      · cases h
        exact ⟨_, by omega, String.toList_ofList⟩
      · split at h
        · cases h
          exact ⟨_, by omega, String.toList_ofList⟩
        · cases h
  · cases h

theorem literal_isPrefix {s : List Char} {d : Declaration} (h : g.declaration? s = some d) :
    d.literal.toList <+: s := by
  obtain ⟨-, n, -, htake⟩ := literal_eq_take h
  rw [htake]
  exact List.take_prefix n s

/-- A declaration that opens with something is not empty. -/
theorem literal_ne_nil (hg : g.opening ≠ []) {s : List Char} {d : Declaration}
    (h : g.declaration? s = some d) : d.literal.toList ≠ [] := by
  obtain ⟨hopening, n, hn, htake⟩ := literal_eq_take h
  have hpos : 0 < g.opening.length := List.length_pos_iff.mpr hg
  have hs : s ≠ [] := by
    rintro rfl
    exact hg (List.prefix_nil.1 hopening)
  rw [htake, ne_eq, List.take_eq_nil_iff, not_or]
  exact ⟨by omega, hs⟩

theorem flatMap_source_segmentsFrom (hg : g.opening ≠ []) (skip : Nat) (s : List Char) :
    (g.segmentsFrom skip s).flatMap Segment.source = s.drop skip := by
  fun_induction segmentsFrom g skip s with
  | case1 => simp
  | case2 _ _ _ ih => simpa using ih
  | case3 c rest d hd ih =>
    obtain ⟨after, hafter⟩ := literal_isPrefix hd
    -- the literal starts with the character at hand, the counter passes over the others
    cases hl : d.literal.toList with
    | nil => exact absurd hl (literal_ne_nil hg hd)
    | cons x body =>
      rw [hl] at hafter
      obtain ⟨rfl, rfl⟩ := List.cons.inj hafter
      have hlen : d.literal.length - 1 = body.length := by
        rw [← String.length_toList, hl, List.length_cons, Nat.add_sub_cancel]
      rw [List.flatMap_cons, ih, hlen]
      simp [Segment.source, hl]
  | case4 c rest hd ih => simpa [Segment.source] using ih

/-- **The pieces of a template put together are the template.** -/
theorem flatMap_source_segments (hg : g.opening ≠ []) (template : String) :
    (g.segments template).flatMap Segment.source = template.toList := by
  rw [segments, flatMap_source_segmentsFrom hg, List.drop_zero]

/-- A template is its declarations woven between its gaps. -/
theorem toList_eq_weave (hg : g.opening ≠ []) (template : String) :
    template.toList = weave (gaps (g.segments template))
      ((g.declarations template).map fun d => d.literal.toList) := by
  have hsource : fillSegments (fun d => d.literal.toList) (g.segments template)
      = (g.segments template).flatMap Segment.source := rfl
  rw [declarations, ← fillSegments_eq_weave, hsource, flatMap_source_segments hg]

end Grammar

end Phrasebook
