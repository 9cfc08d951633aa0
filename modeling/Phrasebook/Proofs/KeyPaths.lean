import Mathlib.Data.List.Infix
import Phrasebook.Translator

/-!
# Keys and paths

A key writes a path: its segments, joined with the separator. Splitting a key always gives a path
that writes it. The other way round, a path comes back from the key that it writes exactly if the
separator is found in the key where it was put, and nowhere before.

That no segment holds the separator is too little for this, as soon as the separator has two
characters: the end of a segment and the start of the separator behind it may spell the separator
together. What counts is each segment with the separator behind it (`Text.EndsFirst`). An occurrence
that starts inside a segment ends, at the latest, inside the separator behind it, so no longer
stretch of the key needs to be looked at.

`Text.split_join_iff` is the law for rows of characters. It rests on what the first piece of a split
text is: all of the text, where the separator does not occur, and else what stands before its first
occurrence.
-/

namespace Phrasebook

variable {σ : Type}

namespace Text

/-! ## Joining what was split -/

theorem join_eq_intercalate (sep : List Char) (pieces : List (List Char)) :
    join sep pieces = sep.intercalate pieces := by
  induction pieces with
  | nil => rfl
  | cons piece rest ih =>
    cases rest with
    | nil => rw [join, List.intercalate_singleton]
    | cons next rest => rw [join, List.intercalate_cons_cons, ih]

theorem split_eq_splitFrom {sep : List Char} (hsep : sep ≠ []) (s : List Char) :
    split sep s = splitFrom sep 0 s := by
  rw [split, if_neg (by simpa using hsep)]

/-- What is left of an occurrence is passed over, and everything else is in the pieces. -/
theorem join_splitFrom {sep : List Char} (hsep : sep ≠ []) (skip : Nat) (s : List Char) :
    join sep (splitFrom sep skip s) = s.drop skip := by
  fun_induction splitFrom sep skip s with
  | case1 => simp [join]
  | case2 _ _ _ ih => simpa using ih
  | case3 c rest hstarts ih =>
    obtain ⟨after, hafter⟩ := List.isPrefixOf_iff_prefix.1 hstarts
    cases sep with
    | nil => exact absurd rfl hsep
    | cons x body =>
      obtain ⟨rfl, rfl⟩ := List.cons.inj hafter
      rw [join_nil_cons (splitFrom_ne_nil _ _ _), ih]
      simp
  | case4 c rest _ ih =>
    rw [join_consFirst c (splitFrom_ne_nil _ _ _), ih]
    rfl

/-- **The pieces of a text, joined again, are the text.** -/
theorem join_split {sep : List Char} (hsep : sep ≠ []) (s : List Char) :
    join sep (split sep s) = s := by
  rw [split_eq_splitFrom hsep, join_splitFrom hsep, List.drop_zero]

/-! ## Where the separator occurs first -/

/-- In the piece with the separator behind it, the separator starts nowhere before the end of the
piece. -/
def EndsFirst (sep piece : List Char) : Prop :=
  ∀ i < piece.length, ¬sep <+: (piece ++ sep).drop i

theorem endsFirst_nil (sep : List Char) : EndsFirst sep [] :=
  fun _ hi => absurd hi (Nat.not_lt_zero _)

instance (sep piece : List Char) : Decidable (EndsFirst sep piece) :=
  inferInstanceAs (Decidable (∀ i < piece.length, ¬sep <+: (piece ++ sep).drop i))

/-- An occurrence at the start lies in the piece and the separator, whatever stands behind them. -/
theorem endsFirst_cons_iff {sep : List Char} (c : Char) (piece after : List Char) :
    EndsFirst sep (c :: piece) ↔
      ¬sep <+: c :: (piece ++ sep ++ after) ∧ EndsFirst sep piece := by
  have hwithin : sep <+: c :: (piece ++ sep ++ after) ↔ sep <+: c :: (piece ++ sep) := by
    have hsplit : c :: (piece ++ sep ++ after) = c :: (piece ++ sep) ++ after := rfl
    rw [hsplit]
    constructor
    · intro h
      have hlength : sep.length ≤ (c :: (piece ++ sep)).length := by
        simp only [List.length_cons, List.length_append]
        omega
      exact List.prefix_of_prefix_length_le h (List.prefix_append _ _) hlength
    · intro h
      exact h.trans (List.prefix_append _ _)
  rw [hwithin]
  constructor
  · intro h
    exact ⟨h 0 (Nat.zero_lt_succ _), fun i hi => h (i + 1) (Nat.succ_lt_succ hi)⟩
  · rintro ⟨hfirst, hrest⟩ i hi
    cases i with
    | zero => exact hfirst
    | succ i => exact hrest i (Nat.lt_of_succ_lt_succ hi)

/-- The separator does not occur, or it occurs somewhere first. -/
theorem not_infix_or_exists_endsFirst (sep s : List Char) :
    ¬sep <:+: s ∨ ∃ piece after, s = piece ++ sep ++ after ∧ EndsFirst sep piece := by
  induction s with
  | nil =>
    by_cases hsep : sep = []
    · subst hsep
      exact Or.inr ⟨[], [], rfl, endsFirst_nil []⟩
    · exact Or.inl fun h => hsep (List.infix_nil.1 h)
  | cons c s ih =>
    by_cases hstarts : sep <+: c :: s
    · obtain ⟨after, hafter⟩ := hstarts
      exact Or.inr ⟨[], after, hafter.symm, endsFirst_nil sep⟩
    · rcases ih with hnone | ⟨piece, after, rfl, hpiece⟩
      · exact Or.inl fun h => (List.infix_cons_iff.1 h).elim hstarts hnone
      · exact Or.inr ⟨c :: piece, after, rfl, (endsFirst_cons_iff c piece after).2
          ⟨hstarts, hpiece⟩⟩

/-! ## The first piece -/

theorem splitFrom_eq_drop (sep : List Char) (skip : Nat) (s : List Char) :
    splitFrom sep skip s = splitFrom sep 0 (s.drop skip) := by
  induction s generalizing skip with
  | nil => cases skip <;> rfl
  | cons c rest ih =>
    cases skip with
    | zero => rfl
    | succ n => rw [splitFrom, ih n, List.drop_succ_cons]

theorem splitFrom_sep_append {sep : List Char} (hsep : sep ≠ []) (after : List Char) :
    splitFrom sep 0 (sep ++ after) = [] :: splitFrom sep 0 after := by
  cases sep with
  | nil => exact absurd rfl hsep
  | cons x body =>
    have hstarts : (x :: body).isPrefixOf (x :: (body ++ after)) = true :=
      List.isPrefixOf_iff_prefix.2 (List.prefix_append _ _)
    rw [List.cons_append, splitFrom, if_pos hstarts, splitFrom_eq_drop]
    simp

theorem splitFrom_cons_of_not_starts {sep : List Char} {c : Char} {s : List Char}
    (h : ¬sep <+: c :: s) : splitFrom sep 0 (c :: s) = consFirst c (splitFrom sep 0 s) := by
  rw [splitFrom, if_neg fun hstarts => h (List.isPrefixOf_iff_prefix.1 hstarts)]

/-- A text without the separator is one piece. -/
theorem splitFrom_of_not_contains {sep s : List Char} (h : ¬sep <:+: s) :
    splitFrom sep 0 s = [s] := by
  induction s with
  | nil => rfl
  | cons c s ih =>
    rw [splitFrom_cons_of_not_starts fun hstarts => h hstarts.isInfix,
      ih fun hs => h (List.infix_cons hs)]
    rfl

/-- The first piece is what stands before the first occurrence of the separator. -/
theorem splitFrom_append {sep : List Char} (hsep : sep ≠ []) {piece : List Char}
    (h : EndsFirst sep piece) (after : List Char) :
    splitFrom sep 0 (piece ++ sep ++ after) = piece :: splitFrom sep 0 after := by
  induction piece with
  | nil => exact splitFrom_sep_append hsep after
  | cons c piece ih =>
    obtain ⟨hfirst, hrest⟩ := (endsFirst_cons_iff c piece after).1 h
    have hcons : c :: piece ++ sep ++ after = c :: (piece ++ sep ++ after) := rfl
    rw [hcons, splitFrom_cons_of_not_starts hfirst, ih hrest]
    rfl

/-! ## Splitting what was joined -/

/-- The separator occurs in the joined pieces first where it was put, each time. -/
structure Uncut (sep : List Char) (pieces : List (List Char)) : Prop where
  followed : ∀ piece ∈ pieces.dropLast, EndsFirst sep piece
  last : ∀ piece ∈ pieces.getLast?, ¬sep <:+: piece

theorem uncut_singleton_iff {sep piece : List Char} : Uncut sep [piece] ↔ ¬sep <:+: piece := by
  constructor
  · intro h
    exact h.last piece rfl
  · intro h
    refine ⟨fun _ hmem => absurd hmem List.not_mem_nil, ?_⟩
    rintro _ ⟨⟩
    exact h

theorem uncut_cons_cons_iff {sep piece next : List Char} {rest : List (List Char)} :
    Uncut sep (piece :: next :: rest) ↔ EndsFirst sep piece ∧ Uncut sep (next :: rest) := by
  constructor
  · intro h
    exact ⟨h.followed piece (by simp),
      fun p hp => h.followed p (by simp [hp]), fun p hp => h.last p (by simpa using hp)⟩
  · rintro ⟨hpiece, hrest⟩
    refine ⟨fun p hp => ?_, fun p hp => hrest.last p (by simpa using hp)⟩
    rw [List.dropLast_cons_cons] at hp
    rcases List.mem_cons.1 hp with rfl | hp
    · exact hpiece
    · exact hrest.followed p hp

/-- One piece comes back if the separator does not occur in it. -/
theorem splitFrom_eq_singleton_iff {sep : List Char} (hsep : sep ≠ []) {piece : List Char} :
    splitFrom sep 0 piece = [piece] ↔ ¬sep <:+: piece := by
  refine ⟨fun h => ?_, splitFrom_of_not_contains⟩
  rcases not_infix_or_exists_endsFirst sep piece with hnone | ⟨first, after, rfl, hfirst⟩
  · exact hnone
  · rw [splitFrom_append hsep hfirst] at h
    exact absurd (List.cons.inj h).2 (splitFrom_ne_nil sep 0 after)

/-- A first piece and the pieces after it come back one by one. -/
theorem splitFrom_append_eq_cons_iff {sep : List Char} (hsep : sep ≠ []) {piece after : List Char}
    {pieces : List (List Char)} :
    splitFrom sep 0 (piece ++ sep ++ after) = piece :: pieces ↔
      EndsFirst sep piece ∧ splitFrom sep 0 after = pieces := by
  constructor
  · intro h
    rcases not_infix_or_exists_endsFirst sep (piece ++ sep ++ after) with
      hnone | ⟨first, others, hsplit, hfirst⟩
    · exact absurd ⟨piece, after, rfl⟩ hnone
    · rw [hsplit, splitFrom_append hsep hfirst] at h
      obtain ⟨rfl, hpieces⟩ := List.cons.inj h
      rw [List.append_cancel_left hsplit]
      exact ⟨hfirst, hpieces⟩
  · rintro ⟨hpiece, rfl⟩
    exact splitFrom_append hsep hpiece after

/-- **Pieces come back from the text that they are joined to exactly if they are uncut.** -/
theorem split_join_iff {sep : List Char} (hsep : sep ≠ []) {pieces : List (List Char)}
    (hpieces : pieces ≠ []) : split sep (join sep pieces) = pieces ↔ Uncut sep pieces := by
  rw [split_eq_splitFrom hsep]
  induction pieces with
  | nil => exact absurd rfl hpieces
  | cons piece rest ih =>
    cases rest with
    | nil => rw [join, splitFrom_eq_singleton_iff hsep, uncut_singleton_iff]
    | cons next rest =>
      rw [join, splitFrom_append_eq_cons_iff hsep, uncut_cons_cons_iff,
        ih (List.cons_ne_nil next rest)]

/-! ## Separators of one character -/

theorem endsFirst_char_iff {c : Char} {piece : List Char} : EndsFirst [c] piece ↔ c ∉ piece := by
  induction piece with
  | nil => simp [endsFirst_nil]
  | cons d piece ih =>
    rw [endsFirst_cons_iff d piece [], ih, List.mem_cons, not_or]
    simp

/-- A separator of one character must not occur in any piece, and that is enough. -/
theorem uncut_char_iff {c : Char} {pieces : List (List Char)} :
    Uncut [c] pieces ↔ ∀ piece ∈ pieces, c ∉ piece := by
  induction pieces with
  | nil => exact ⟨fun _ _ h => absurd h List.not_mem_nil, fun _ => ⟨nofun, nofun⟩⟩
  | cons piece rest ih =>
    rw [List.forall_mem_cons]
    cases rest with
    | nil => simp [uncut_singleton_iff, List.singleton_infix_iff]
    | cons next rest => rw [uncut_cons_cons_iff, endsFirst_char_iff, ih]

end Text

/-! ## Keys -/

theorem map_ofList_eq_iff {pieces : List (List Char)} {path : List String} :
    pieces.map String.ofList = path ↔ pieces = path.map String.toList := by
  constructor
  · rintro rfl
    simp [List.map_map, Function.comp_def]
  · rintro rfl
    simp [List.map_map, Function.comp_def]

namespace Phrases

variable {p : Phrases}

/-- **The segments of a key, joined again, are the key.** -/
theorem intercalate_splitKey (hsep : p.separator ≠ "") (key : String) :
    p.separator.intercalate (p.splitKey key) = key := by
  have hsep' : p.separator.toList ≠ [] := by simpa using hsep
  rw [← String.toList_inj, String.toList_intercalate, splitKey, ← map_ofList_eq_iff.1 rfl,
    ← Text.join_eq_intercalate, Text.join_split hsep']

/-- **A path comes back from the key that it writes exactly if it is uncut.** -/
theorem splitKey_intercalate_iff (hsep : p.separator ≠ "") {path : List String}
    (hpath : path ≠ []) : p.splitKey (p.separator.intercalate path) = path ↔
      Text.Uncut p.separator.toList (path.map String.toList) := by
  have hsep' : p.separator.toList ≠ [] := by simpa using hsep
  rw [splitKey, map_ofList_eq_iff, String.toList_intercalate, ← Text.join_eq_intercalate,
    Text.split_join_iff hsep' (by simpa using hpath)]

end Phrases

/-- What looking up two keys has in common: both lead to the same text and leave the world as it
was, or both lead to none for the same reason, each with a log record of its own. -/
inductive SameLookup (key key' : String) (w : World σ) :
    EStateM.Result Failure (World σ) String → EStateM.Result Failure (World σ) String → Prop
  | found (text : String) : SameLookup key key' w (.ok text w) (.ok text w)
  | missed (reason message message' : String) : SameLookup key key' w
    (.error ⟨.keyNotFound key reason, []⟩ { w with log := w.log ++ [⟨.debug, .lookup, message⟩] })
    (.error ⟨.keyNotFound key' reason, []⟩ { w with log := w.log ++ [⟨.debug, .lookup, message'⟩] })

/-- Keys that lead to the same place are translated alike. -/
theorem sameLookup_of_follow {a b : Phrases} {key key' : String}
    (h : a.follow key = b.follow key') (w : World σ) :
    SameLookup key key' w (a.translate key w) (b.translate key' w) := by
  unfold Phrases.translate
  rw [h]
  cases b.follow key' with
  | node n =>
    cases n with
    | leaf text => exact .found text
    | branch children => exact .missed _ _ _
  | missing segment => exact .missed _ _ _
  | pastLeaf depth => exact .missed _ _ _

/--
**Splitting keys and joining segments undo each other.** With a separator that is not empty, every
key is the one that its segments write, and a path that is not empty comes back from the key that it
writes exactly if it is uncut. For a separator of one character this means that no segment holds it.
So a path that is uncut for two separators is translated alike, written with the one or the other.
-/
theorem splitKey_inverts {separator : String} (hsep : separator ≠ "") (tree : Tree) :
    (∀ key, separator.intercalate ((Phrases.mk tree separator).splitKey key) = key) ∧
    (∀ path, path ≠ [] →
      ((Phrases.mk tree separator).splitKey (separator.intercalate path) = path ↔
        Text.Uncut separator.toList (path.map String.toList))) ∧
    (∀ c, separator.toList = [c] → ∀ path : List String,
      (Text.Uncut separator.toList (path.map String.toList) ↔
        ∀ segment ∈ path, c ∉ segment.toList)) ∧
    (∀ other, other ≠ "" → ∀ path, path ≠ [] →
      Text.Uncut separator.toList (path.map String.toList) →
      Text.Uncut other.toList (path.map String.toList) → ∀ w : World σ,
      SameLookup (separator.intercalate path) (other.intercalate path) w
        ((Phrases.mk tree separator).translate (separator.intercalate path) w)
        ((Phrases.mk tree other).translate (other.intercalate path) w)) := by
  refine ⟨Phrases.intercalate_splitKey (p := ⟨tree, separator⟩) hsep,
    fun path => Phrases.splitKey_intercalate_iff (p := ⟨tree, separator⟩) hsep, ?_, ?_⟩
  · intro c hc path
    rw [hc, Text.uncut_char_iff, List.forall_mem_map]
  · intro other hother path hpath huncut huncut' w
    refine sameLookup_of_follow ?_ w
    have hsplit := (Phrases.splitKey_intercalate_iff (p := ⟨tree, separator⟩) hsep hpath).2 huncut
    have hsplit' := (Phrases.splitKey_intercalate_iff (p := ⟨tree, other⟩) hother hpath).2 huncut'
    rw [Phrases.follow, Phrases.follow, hsplit, hsplit']

/-- A tree with one text, two segments deep, the first of them empty. -/
def underEmpty : Tree := .mk [("", .branch [("ya", .leaf "hello")])]

/-- With two characters, the separator may start in a segment that does not hold it; a segment that
only starts like the separator, and an empty one, do no harm. -/
theorem splitKey_inverts_overlapping :
    (Phrases.mk underEmpty "aa").splitKey "xaaay" ≠ ["xa", "y"] ∧
    (Phrases.mk underEmpty "aa").splitKey "aaya" = ["", "ya"] ∧
    ('.' ∉ "ya".toList ∧ '.' ∉ "".toList) ∧
    SameLookup "aaya" ".ya" (⟨(), []⟩ : World Unit)
      ((Phrases.mk underEmpty "aa").translate "aaya" ⟨(), []⟩)
      ((Phrases.mk underEmpty ".").translate ".ya" ⟨(), []⟩) := by
  have hcut : ¬Text.Uncut "aa".toList (["xa", "y"].map String.toList) := by
    intro h
    exact h.followed "xa".toList (by simp) 1 (by decide) (by decide)
  have huncut : Text.Uncut "aa".toList (["", "ya"].map String.toList) :=
    Text.uncut_cons_cons_iff.2 ⟨by decide, Text.uncut_singleton_iff.2 (by decide)⟩
  have huncut' : Text.Uncut ".".toList (["", "ya"].map String.toList) :=
    Text.uncut_cons_cons_iff.2 ⟨by decide, Text.uncut_singleton_iff.2 (by decide)⟩
  have htwo : "aa" ≠ "" := by decide
  have hone : "." ≠ "" := by decide
  obtain ⟨-, hback, -, hsame⟩ := splitKey_inverts (σ := Unit) htwo underEmpty
  obtain ⟨-, -, hchar, -⟩ := splitKey_inverts (σ := Unit) hone underEmpty
  have hfree := (hchar '.' rfl ["", "ya"]).1 huncut'
  refine ⟨fun h => hcut ((hback ["xa", "y"] (by simp)).1 h),
    (hback ["", "ya"] (by simp)).2 huncut, ⟨hfree "ya" (by simp), hfree "" (by simp)⟩, ?_⟩
  exact hsame "." hone ["", "ya"] (by simp) huncut huncut' ⟨(), []⟩

end Phrasebook
