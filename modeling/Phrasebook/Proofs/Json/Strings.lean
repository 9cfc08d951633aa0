import Phrasebook.Proofs.Json.Text

/-!
# Strings of JSON in a document

A JSON string is a quoted scalar of the document, and is read as the characters that it denotes
(`readQuoted_source`). Reading takes blanks in runs and everything else piece by piece; `Quotes`
says of a cursor how reading ends from there, for as much fuel as is enough, so that the pieces can
be put in front one after the other.
-/

namespace Phrasebook.Yaml

/-! ## Moving on -/

namespace Cursor

variable {c : Cursor}

theorem advance_add (m n : Nat) (c : Cursor) : c.advance (m + n) = (c.advance m).advance n := by
  fun_induction advance m c with
  | case1 c => rw [Nat.zero_add]
  | case2 m p =>
    have hend : ∀ k, advance k ⟨[], p⟩ = ⟨[], p⟩ := fun k => by cases k <;> rfl
    rw [hend, hend]
  | case3 m ch rest p ih =>
    rw [Nat.succ_add]
    exact ih

theorem advance_one {ch : Char} {rest : List Char} (hc : c.rest = ch :: rest) :
    c.advance 1 = ⟨rest, c.position.after ch rest.head?⟩ := by
  obtain ⟨_, p⟩ := c
  cases hc
  rfl

theorem index_after (p : Position) (ch : Char) (next? : Option Char) :
    (p.after ch next?).index = p.index + 1 := by
  unfold Position.after
  split
  · rfl
  · split <;> rfl

theorem line_after (p : Position) {ch : Char} (next? : Option Char) (h : isBreak ch = false) :
    (p.after ch next?).line = p.line := by
  unfold Position.after
  rw [h, Bool.false_and, if_neg Bool.false_ne_true]
  split <;> rfl

theorem index_advance {part rest : List Char} (hc : c.rest = part ++ rest) :
    (c.advance part.length).position.index = c.position.index + part.length := by
  induction part generalizing c with
  | nil => rfl
  | cons ch part ih =>
    have hone := advance_one hc
    rw [List.length_cons, Nat.add_comm part.length 1, advance_add, hone, ih rfl]
    dsimp only
    rw [index_after, Nat.add_assoc]

/-- Without line breaks on the way, the line stays the same. -/
theorem line_advance {part rest : List Char} (hc : c.rest = part ++ rest)
    (h : ∀ ch ∈ part, isBreak ch = false) :
    (c.advance part.length).position.line = c.position.line := by
  induction part generalizing c with
  | nil => rfl
  | cons ch part ih =>
    have hone := advance_one hc
    rw [List.forall_mem_cons] at h
    rw [List.length_cons, Nat.add_comm part.length 1, advance_add, hone, ih rfl h.2]
    exact line_after _ _ h.1

theorem rest_advance_append (part : List Char) {rest : List Char} (hc : c.rest = part ++ rest) :
    (c.advance part.length).rest = rest := by
  rw [rest_advance, hc, List.drop_left]

end Cursor

/-! ## Reading the inside of a string -/

/-- From the cursor on, a string between double quotes has this text and ends there. -/
def Quotes (c : Cursor) (text : List Char) (stop : Cursor) : Prop :=
  ∀ fuel, c.rest.length < fuel → quotedFrom true fuel c = .ok (text, stop)

section Quotes

variable {c stop : Cursor} {ch : Char} {rest text : List Char}

theorem quotes_close (hc : c.rest = '"' :: rest) : Quotes c [] (c.advance 1) := by
  intro fuel hfuel
  obtain ⟨fuel, rfl⟩ := Nat.exists_eq_succ_of_ne_zero (Nat.ne_zero_of_lt hfuel)
  have hgap : isGap '"' = false := by decide
  simp [quotedFrom, hc, hgap]

/-- A part of the string that is read at once is put before what is read behind it. -/
theorem quotes_of_part (part : List Char) {n : Nat} (hpos : 0 < n) (hn : n ≤ c.rest.length)
    (h : Quotes (c.advance n) text stop)
    (hread : ∀ fuel, quotedFrom true (fuel + 1) c = do
      let (text, stop) ← quotedFrom true fuel (c.advance n)
      return (part ++ text, stop)) : Quotes c (part ++ text) stop := by
  intro fuel hfuel
  obtain ⟨fuel, rfl⟩ := Nat.exists_eq_succ_of_ne_zero (Nat.ne_zero_of_lt hfuel)
  have hless : (c.advance n).rest.length < fuel := by
    rw [Cursor.rest_advance, List.length_drop]
    omega
  rw [hread, h fuel hless]
  rfl

theorem quotes_plain (hc : c.rest = ch :: rest) (hgap : isGap ch = false) (hquote : ch ≠ '"')
    (hbackslash : ch ≠ '\\') (h : Quotes (c.advance 1) text stop) :
    Quotes c (ch :: text) stop := by
  have hn : 1 ≤ c.rest.length := by
    rw [hc]
    exact Nat.le_add_left 1 _
  refine quotes_of_part [ch] Nat.one_pos hn h fun fuel => ?_
  simp [quotedFrom, hc, hgap, hquote, hbackslash]

theorem quotes_short (s : Json.Short) (hc : c.rest = '\\' :: s.letter :: rest)
    (h : Quotes (c.advance 2) text stop) : Quotes c (s.char :: text) stop := by
  have hn : 2 ≤ c.rest.length := by
    rw [hc]
    exact Nat.le_add_left 2 _
  have hgap : isGap '\\' = false := by decide
  have hletter : escapeLetter? s.letter = some s.char := by cases s <;> decide
  have hnext : (c.advance 1).rest = s.letter :: rest := by rw [Cursor.rest_advance, hc]; rfl
  have hescape : quotedEscape (c.advance 1) = .ok ([s.char], c.advance 2) := by
    simp only [quotedEscape, hnext, hletter, ← Cursor.advance_add]
  refine quotes_of_part [s.char] Nat.two_pos hn h fun fuel => ?_
  rw [quotedFrom]
  simp only [hc, hgap, Bool.false_eq_true, if_false, decide_true, Bool.and_self, if_true, hescape]
  rfl

theorem hexValue?_char (d : Json.HexDigit) : hexValue? d.char = some d.value.val := by
  obtain ⟨value, capital⟩ := d
  revert value capital
  decide +kernel

theorem codeOf_lt (a b c d : Json.HexDigit) : Json.codeOf a b c d < 0x10000 := by
  have ha := a.value.isLt
  have hb := b.value.isLt
  have hc := c.value.isLt
  have hd := d.value.isLt
  unfold Json.codeOf
  omega

/-- A code of four digits that is not half of a pair is that of a character. -/
theorem charOfCode_codeOf {a b c d : Json.HexDigit}
    (h : Json.isSurrogate (Json.codeOf a b c d) = false) :
    charOfCode (Json.codeOf a b c d) = .ok (Char.ofNat (Json.codeOf a b c d)) := by
  have hlt := codeOf_lt a b c d
  unfold Json.isSurrogate at h
  unfold charOfCode
  rw [if_neg (by omega), if_neg (by omega), h, if_neg Bool.false_ne_true]

theorem quotes_code {w x y z : Json.HexDigit}
    (hcode : Json.isSurrogate (Json.codeOf w x y z) = false)
    (hc : c.rest = '\\' :: 'u' :: w.char :: x.char :: y.char :: z.char :: rest)
    (h : Quotes (c.advance 6) text stop) :
    Quotes c (Char.ofNat (Json.codeOf w x y z) :: text) stop := by
  have hn : 6 ≤ c.rest.length := by
    rw [hc]
    exact Nat.le_add_left 6 _
  have hgap : isGap '\\' = false := by decide
  have hletter : escapeLetter? 'u' = none := by decide
  have hwidth : escapeWidth? 'u' = some 4 := by decide
  have hnext : (c.advance 1).rest = 'u' :: w.char :: x.char :: y.char :: z.char :: rest := by
    rw [Cursor.rest_advance, hc]
    rfl
  have hnumber : hexNumber? 4 0 (w.char :: x.char :: y.char :: z.char :: rest)
      = some (Json.codeOf w x y z) := by
    simp only [hexNumber?, hexValue?_char, Json.codeOf, Nat.zero_mul, Nat.zero_add]
  have hescape : quotedEscape (c.advance 1)
      = .ok ([Char.ofNat (Json.codeOf w x y z)], c.advance 6) := by
    simp only [quotedEscape, hnext, hletter, hwidth, hnumber, charOfCode_codeOf hcode,
      ← Cursor.advance_add]
    rfl
  refine quotes_of_part [Char.ofNat (Json.codeOf w x y z)] (by decide) hn h fun fuel => ?_
  rw [quotedFrom]
  simp only [hc, hgap, Bool.false_eq_true, if_false, decide_true, Bool.and_self, if_true, hescape]
  rfl

/-! ### Gaps -/

/-- A character of a gap that is read as itself may be read apart from the rest of its gap. -/
theorem quotes_gap (hc : c.rest = ch :: rest) (hgap : isGap ch = true)
    (hlast : rest.head?.any isGap = false → quotedGap c = .ok ([ch], c.advance 1))
    (hmore : rest.head?.any isGap = true → quotedGap c = do
      let (gap, stop) ← quotedGap (c.advance 1)
      return (ch :: gap, stop))
    (h : Quotes (c.advance 1) text stop) : Quotes c (ch :: text) stop := by
  have hread : ∀ {c : Cursor} {ch : Char} {rest : List Char} (fuel : Nat), c.rest = ch :: rest →
      isGap ch = true → quotedFrom true (fuel + 1) c = do
        let (gap, c) ← quotedGap c
        let (text, stop) ← quotedFrom true fuel c
        return (gap ++ text, stop) := by
    intro c ch rest fuel hc hgap
    simp only [quotedFrom, hc, hgap, if_true]
  have hnext : (c.advance 1).rest = rest := by rw [Cursor.rest_advance, hc]; rfl
  intro fuel hfuel
  obtain ⟨fuel, rfl⟩ := Nat.exists_eq_succ_of_ne_zero (Nat.ne_zero_of_lt hfuel)
  rw [hc, List.length_cons] at hfuel
  rw [Nat.succ_eq_add_one, hread fuel hc hgap]
  cases hhead : rest.head?.any isGap with
  | false =>
    rw [hlast hhead]
    change (quotedFrom true fuel (c.advance 1) >>= fun part => _) = _
    rw [h fuel (by rw [hnext]; omega)]
    rfl
  | true =>
    -- the rest of the gap is read at once, with this character as without it
    obtain ⟨next, rest', rfl⟩ : ∃ next rest', rest = next :: rest' := by
      cases rest with
      | nil => cases hhead
      | cons next rest' => exact ⟨next, rest', rfl⟩
    have hshort := h (fuel + 1) (by rw [hnext]; omega)
    rw [hread fuel hnext hhead] at hshort
    rw [hmore hhead]
    cases hrest : quotedGap (c.advance 1) with
    | error p =>
      rw [hrest] at hshort
      cases hshort
    | ok part =>
      obtain ⟨gap, c'⟩ := part
      rw [hrest] at hshort
      change (quotedFrom true fuel c' >>= fun part => _) = _ at hshort
      change (quotedFrom true fuel c' >>= fun part => _) = _
      cases hbehind : quotedFrom true fuel c' with
      | error p =>
        rw [hbehind] at hshort
        cases hshort
      | ok part =>
        rw [hbehind] at hshort
        cases hshort
        rfl

/-- Blanks that no line break follows are read as they are. -/
theorem quotedGap_spaces (h : (c.rest.dropWhile isSpace).head?.any isBreak = false) :
    quotedGap c = .ok (c.rest.takeWhile isSpace, c.advance (c.rest.takeWhile isSpace).length) := by
  have hrest : (c.advance (c.rest.takeWhile isSpace).length).rest = c.rest.dropWhile isSpace :=
    Cursor.rest_advance_append _ List.takeWhile_append_dropWhile.symm
  have hnext : (c.advance (c.rest.takeWhile isSpace).length).next?.any isBreak = false := by
    rw [Cursor.next?, hrest, h]
  unfold quotedGap Cursor.takeWhile
  dsimp only
  rw [hnext, if_neg Bool.false_ne_true]

/-- In an unfolded string, the blanks after a blank lead to no line break. -/
theorem dropWhile_unfolded {s : List Char} (tail : List Char) (hspace : isSpace ch = true)
    (h : Json.unfolded (ch :: (s ++ ['"'])) = true) :
    ((s ++ '"' :: tail).dropWhile isSpace).head?.any isBreak = false := by
  induction s generalizing ch with
  | nil => rfl
  | cons next s ih =>
    rw [Json.unfolded, if_pos hspace, Bool.and_eq_true] at h
    have hbreak : isBreak next = false := by simpa using h.1
    rw [List.cons_append, List.dropWhile_cons]
    split
    · next hnext => exact ih hnext h.2
    · exact hbreak

theorem quotes_space {s tail : List Char} (hc : c.rest = ch :: (s ++ '"' :: tail))
    (hspace : isSpace ch = true) (hunfolded : Json.unfolded (ch :: (s ++ ['"'])) = true)
    (h : Quotes (c.advance 1) text stop) : Quotes c (ch :: text) stop := by
  have hgap : isGap ch = true := by rw [isGap, hspace, Bool.true_or]
  have hnext : (c.advance 1).rest = s ++ '"' :: tail := by rw [Cursor.rest_advance, hc]; rfl
  have hbreak := dropWhile_unfolded tail hspace hunfolded
  have hrun : quotedGap c = .ok (ch :: (s ++ '"' :: tail).takeWhile isSpace,
      c.advance (1 + ((s ++ '"' :: tail).takeWhile isSpace).length)) := by
    have hdrop : (c.rest.dropWhile isSpace).head?.any isBreak = false := by
      rw [hc, List.dropWhile_cons_of_pos hspace]
      exact hbreak
    rw [quotedGap_spaces hdrop, hc, List.takeWhile_cons_of_pos hspace, List.length_cons,
      Nat.add_comm]
  refine quotes_gap hc hgap (fun hhead => ?_) (fun _ => ?_) h
  · have hnone : (s ++ '"' :: tail).takeWhile isSpace = [] := by
      cases hs : s ++ '"' :: tail with
      | nil => rfl
      | cons next rest =>
        rw [hs] at hhead
        have hnot : ¬isSpace next = true := by
          intro hspace
          simp [isGap, hspace] at hhead
        exact List.takeWhile_cons_of_neg hnot
    rw [hrun, hnone]
    rfl
  · rw [hrun, quotedGap_spaces (by rw [hnext]; exact hbreak), hnext, Cursor.advance_add]
    rfl

/-- Of breaks that start with a separator, none is left out. -/
theorem foldBreaks_cons {first : Char} (h : first ≠ '\n') (more : List Char) :
    foldBreaks (first :: more) = first :: more := by
  have hne : (first != '\n') = true := bne_iff_ne.2 h
  rw [foldBreaks, if_pos hne, List.singleton_append]

theorem startsWithMark_append {mark : Char} (hmark : mark ≠ '"') (s tail : List Char) :
    startsWithMark mark (s ++ '"' :: tail) = startsWithMark mark (s ++ ['"']) := by
  have hquote : decide ('"' = mark) = false := decide_eq_false hmark.symm
  match s with
  | [] => cases tail with
    | nil => rfl
    | cons a tail => cases tail with
      | nil => rfl
      | cons b tail => simp [startsWithMark, hquote]
  | [a] => cases tail with
    | nil => rfl
    | cons b tail => simp [startsWithMark, hquote]
  | [a, b] => simp [startsWithMark, hquote]
  | [a, b, d] => rfl
  | a :: b :: d :: e :: s => rfl

theorem isDocumentMark_append (s tail : List Char) :
    isDocumentMark (s ++ '"' :: tail) = isDocumentMark (s ++ ['"']) := by
  rw [isDocumentMark, isDocumentMark, startsWithMark_append (by decide : '-' ≠ '"'),
    startsWithMark_append (by decide : '.' ≠ '"')]

/-- A gap that starts with a line break is that break and all behind it, folded. -/
theorem quotedGap_breaks (hc : c.rest = ch :: rest) (hbreak : isBreak ch = true)
    (hspace : isSpace ch = false) : quotedGap c = do
      let (breaks, stop) ← quotedBreaks (ch :: rest) c.position
      return (foldBreaks breaks, stop) := by
  have hnone : c.rest.takeWhile isSpace = [] := by
    rw [hc]
    exact List.takeWhile_cons_of_neg (by rw [hspace]; exact Bool.false_ne_true)
  have hnext : c.next?.any isBreak = true := by
    rw [Cursor.next?, hc]
    exact hbreak
  unfold quotedGap Cursor.takeWhile
  dsimp only
  rw [hnone, List.length_nil, Cursor.advance, hnext, if_pos rfl, hc]

theorem quotedBreaks_stop {l : List Char} (p : Position) (h : l.head?.any isGap = false) :
    quotedBreaks l p = .ok ([], ⟨l, p⟩) := by
  cases l with
  | nil => rfl
  | cons next rest =>
    have hnext : isGap next = false := h
    rw [isGap, Bool.or_eq_false_iff] at hnext
    simp only [quotedBreaks, hnext.1, hnext.2, Bool.false_eq_true, if_false]

/-- What an unfolded string says of a line break in it. -/
theorem separator_of_unfolded {s : List Char} (tail : List Char) (hbreak : isBreak ch = true)
    (h : Json.unfolded (ch :: (s ++ ['"'])) = true) :
    (ch = '\u2028' ∨ ch = '\u2029') ∧ isSpace ch = false ∧
      (s ++ '"' :: tail).head?.any isSpace = false ∧ isDocumentMark (s ++ '"' :: tail) = false ∧
      Json.unfolded (s ++ ['"']) = true := by
  have hspace : isSpace ch = false := by
    unfold isBreak at hbreak
    unfold isSpace
    grind
  rw [Json.unfolded, hspace, if_neg Bool.false_ne_true, if_pos hbreak] at h
  simp only [Bool.and_eq_true, Bool.or_eq_true, decide_eq_true_iff, Bool.not_eq_true'] at h
  obtain ⟨⟨⟨hseparator, hnext⟩, hmark⟩, hrest⟩ := h
  refine ⟨hseparator, hspace, ?_, ?_, hrest⟩
  · cases s with
    | nil => rfl
    | cons next s => exact hnext
  · rw [isDocumentMark_append, hmark]

/-- A line break that stands for itself, with the breaks behind it. -/
theorem quotedBreaks_separator {p : Position} (hseparator : ch = '\u2028' ∨ ch = '\u2029')
    (hmark : isDocumentMark rest = false) :
    quotedBreaks (ch :: rest) p = do
      let (more, stop) ← quotedBreaks rest (p.after ch rest.head?)
      return (ch :: more, stop) := by
  have hspace : isSpace ch = false := by rcases hseparator with rfl | rfl <;> decide
  have hbreak : isBreak ch = true := by rcases hseparator with rfl | rfl <;> decide
  have htext : breakText? ch rest.head? = some ch := by
    have hreturn : ch ≠ '\r' := by rcases hseparator with rfl | rfl <;> decide
    unfold breakText?
    rw [decide_eq_false hreturn, Bool.false_and, if_neg Bool.false_ne_true]
    rcases hseparator with rfl | rfl <;> rfl
  rw [quotedBreaks]
  simp only [hspace, Bool.false_eq_true, if_false, hbreak, if_true, htext, hmark]

/-- A separator of lines or paragraphs is read as itself. -/
theorem quotes_separator {s tail : List Char} (hc : c.rest = ch :: (s ++ '"' :: tail))
    (hbreak : isBreak ch = true) (hunfolded : Json.unfolded (ch :: (s ++ ['"'])) = true)
    (h : Quotes (c.advance 1) text stop) : Quotes c (ch :: text) stop := by
  have hne : ∀ {ch : Char}, ch = '\u2028' ∨ ch = '\u2029' → ch ≠ '\n' := by
    rintro ch (rfl | rfl) <;> decide
  obtain ⟨hseparator, hspace, hnext, hmark, hrest⟩ :=
    separator_of_unfolded tail hbreak hunfolded
  have hone := Cursor.advance_one hc
  have hgap := quotedGap_breaks hc hbreak hspace
  rw [quotedBreaks_separator hseparator hmark] at hgap
  refine quotes_gap hc (by rw [isGap, hbreak, Bool.or_true]) (fun hhead => ?_) (fun hhead => ?_) h
  · rw [hgap, quotedBreaks_stop _ hhead, hone]
    change Except.ok (foldBreaks [ch], _) = _
    rw [foldBreaks_cons (hne hseparator)]
  · cases s with
    | nil => cases hhead
    | cons next s =>
      -- the gap goes on with another separator, and both keep their breaks unfolded
      have hbreak' : isBreak next = true := by
        have hspace' : isSpace next = false := hnext
        have hgap' : isGap next = true := hhead
        rwa [isGap, hspace', Bool.false_or] at hgap'
      obtain ⟨hseparator', hspace', -, hmark', -⟩ :=
        separator_of_unfolded tail hbreak' hrest
      have hgap' : quotedGap (c.advance 1) = _ :=
        quotedGap_breaks (by rw [hone]; exact List.cons_append) hbreak' hspace'
      rw [hgap, hgap', hone, List.cons_append, quotedBreaks_separator hseparator' hmark']
      dsimp only
      cases quotedBreaks (s ++ '"' :: tail) _ with
      | error p => rfl
      | ok part =>
        change Except.ok _ = Except.ok _
        dsimp only
        rw [foldBreaks_cons (hne hseparator), foldBreaks_cons (hne hseparator')]

/-! ### Whole strings -/

theorem isPlain_iff : Json.isPlain ch = true ↔ 0x20 ≤ ch.toNat ∧ ch ≠ '"' ∧ ch ≠ '\\' := by
  simp [Json.isPlain, and_assoc]

/-- A character that stands for itself. -/
theorem quotes_self {s tail : List Char} (hc : c.rest = ch :: (s ++ '"' :: tail))
    (hplain : Json.isPlain ch = true) (hunfolded : Json.unfolded (ch :: (s ++ ['"'])) = true)
    (h : Quotes (c.advance 1) text stop) : Quotes c (ch :: text) stop := by
  obtain ⟨-, hquote, hbackslash⟩ := isPlain_iff.1 hplain
  cases hspace : isSpace ch with
  | true => exact quotes_space hc hspace hunfolded h
  | false =>
    cases hbreak : isBreak ch with
    | true => exact quotes_separator hc hbreak hunfolded h
    | false =>
      have hgap : isGap ch = false := by rw [isGap, hspace, hbreak, Bool.or_self]
      exact quotes_plain hc hgap hquote hbackslash h

theorem unfolded_of_append {part s : List Char} (h : Json.unfolded (part ++ s) = true) :
    Json.unfolded s = true := by
  induction part with
  | nil => exact h
  | cons ch part ih =>
    rw [List.cons_append, Json.unfolded, Bool.and_eq_true] at h
    exact ih h.2

theorem quotes_inside (l : Json.Literal) {tail : List Char} (hc : c.rest = l.inside ++ '"' :: tail)
    (h : Json.unfolded (l.inside ++ ['"']) = true) :
    Quotes c l.chars (c.advance (l.inside.length + 1)) := by
  induction l generalizing c with
  | nil => exact quotes_close hc
  | cons piece l ih =>
    have hinside : Json.Literal.inside (piece :: l) = piece.source ++ Json.Literal.inside l := rfl
    rw [hinside, List.append_assoc] at hc h
    have hrest := ih (Cursor.rest_advance_append _ hc) (unfolded_of_append h)
    rw [← Cursor.advance_add, ← Nat.add_assoc, ← List.length_append, ← hinside] at hrest
    cases piece with
    | plain ch hplain => exact quotes_self hc hplain h hrest
    | short s => exact quotes_short s hc hrest
    | code w x y z hcode => exact quotes_code hcode hc hrest

end Quotes

theorem length_source (l : Json.Literal) :
    (Json.Literal.source l).length = l.inside.length + 2 := by
  rw [Json.Literal.source, List.length_cons, List.length_append, List.length_singleton]

/-- **A string of JSON is read as the characters that it denotes.** -/
theorem readQuoted_source (l : Json.Literal) {c : Cursor} {tail : List Char}
    (hc : c.rest = l.source ++ tail) (h : Json.unfolded (l.inside ++ ['"']) = true) :
    readQuoted true c = .ok (l.chars, c.advance l.source.length) := by
  have hlength : l.source.length = 1 + (l.inside.length + 1) := by
    rw [length_source]
    omega
  have hnext : (c.advance 1).rest = l.inside ++ '"' :: tail := by
    rw [Cursor.rest_advance, hc, Json.Literal.source, List.cons_append, List.append_assoc]
    rfl
  have hread := quotes_inside l hnext h
  rw [← Cursor.advance_add, ← hlength] at hread
  refine hread _ ?_
  rw [Cursor.rest_advance, List.length_drop]
  omega

/-- A string on a single line has no breaks to fold. -/
theorem unfolded_of_oneLine {s : List Char} (h : ∀ ch ∈ s, isBreak ch = false) :
    Json.unfolded s = true := by
  induction s with
  | nil => rfl
  | cons ch s ih =>
    rw [List.forall_mem_cons] at h
    have hnext : s.head?.any isBreak = false := by
      cases s with
      | nil => rfl
      | cons next s => exact h.2 next List.mem_cons_self
    rw [Json.unfolded, h.1, hnext, ih h.2]
    simp

end Phrasebook.Yaml
