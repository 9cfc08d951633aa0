import Phrasebook.Yaml.Token

/-!
# What cannot be read

Every reader of a part of a document goes through its characters from left to right, and ends in an
end of what it was given. A reader that gives up has met a mistake against the format, or one of two
things that follow the format and yet stand for nothing: a version number with too many digits, and
the escape of a code point that does not exist (`Unreadable`).

`Reads` says both of a reader, and goes from readers to what is put together from them.
-/

namespace Phrasebook.Yaml

/-! ## Digits -/

section Digits

variable {c : Char} {digits : List Char}

theorem isAsciiDigit_iff : isAsciiDigit c = true ↔ 48 ≤ c.toNat ∧ c.toNat ≤ 57 := by
  rw [isAsciiDigit, Bool.and_eq_true, decide_eq_true_iff, decide_eq_true_iff]
  rfl

theorem not_isBlank_of_isAsciiDigit (h : isAsciiDigit c = true) : Text.isBlank c = false := by
  obtain ⟨hlow, hhigh⟩ := isAsciiDigit_iff.1 h
  have hspace : c ≠ ' ' := by
    rintro rfl
    exact absurd hlow (by decide)
  have hwide : ∀ n < 58, 48 ≤ n → Text.wideBlanks.contains n = false := by decide
  rw [Text.isBlank, hwide c.toNat (by omega) hlow, decide_eq_false hspace,
    decide_eq_false (by omega : ¬c.toNat ≤ 13)]
  simp

theorem exists_digitValue? (h : isAsciiDigit c = true) : ∃ v, Text.digitValue? c = some v := by
  obtain ⟨hlow, hhigh⟩ := isAsciiDigit_iff.1 h
  refine ⟨c.toNat - 48, ?_⟩
  rw [Text.digitValue?, Text.zeros, List.find?_cons_of_pos]
  · rfl
  · simpa using ⟨hlow, by omega⟩

theorem trim_of_isAsciiDigit (h : ∀ c ∈ digits, isAsciiDigit c = true) :
    Decimal.trim digits = digits := by
  have hdrop : ∀ l : List Char, (∀ c ∈ l, isAsciiDigit c = true) →
      l.dropWhile Text.isBlank = l := by
    intro l hl
    cases l with
    | nil => rfl
    | cons c rest =>
      rw [List.dropWhile_cons_of_neg]
      rw [not_isBlank_of_isAsciiDigit (hl c List.mem_cons_self)]
      exact Bool.false_ne_true
  rw [Decimal.trim, hdrop digits h, hdrop, List.reverse_reverse]
  intro c hc
  exact h c (List.mem_reverse.1 hc)

theorem isSome_digitsFrom? (h : ∀ c ∈ digits, isAsciiDigit c = true) (value : Nat) :
    (Decimal.digitsFrom? 10 value digits).isSome = true := by
  induction digits generalizing value with
  | nil => rfl
  | cons c rest ih =>
    obtain ⟨v, hv⟩ := exists_digitValue? (h c List.mem_cons_self)
    have hbase : Decimal.baseDigit? c = some v := by rw [Decimal.baseDigit?, hv]
    simp only [Decimal.digitsFrom?, hbase, if_pos (Text.digitValue?_lt hv)]
    exact ih (fun d hd => h d (List.mem_cons_of_mem c hd)) _

/-- Digits stand for a number unless they are too many. -/
theorem maxDigits_lt_of_int?_eq_none (hne : digits ≠ [])
    (h : ∀ c ∈ digits, isAsciiDigit c = true) (hnone : Decimal.int? 10 digits = none) :
    Decimal.maxDigits < digits.length := by
  obtain ⟨c, rest, rfl⟩ := List.exists_cons_of_ne_nil hne
  have hc := isAsciiDigit_iff.1 (h c List.mem_cons_self)
  have hsign : Decimal.takeSign (c :: rest) = (false, c :: rest) := by
    have hminus : c ≠ '-' := by rintro rfl; exact absurd hc.1 (by decide)
    have hplus : c ≠ '+' := by rintro rfl; exact absurd hc.1 (by decide)
    simp [Decimal.takeSign, hminus, hplus]
  have hmark : Decimal.dropBaseMark 10 (c :: rest) = c :: rest := by
    unfold Decimal.dropBaseMark
    split <;> simp_all
  simp only [Decimal.int?, trim_of_isAsciiDigit h, hsign, hmark] at hnone
  split at hnone
  · next hlong => simpa using hlong
  · obtain ⟨v, hv⟩ := Option.isSome_iff_exists.1 (isSome_digitsFrom? h 0)
    rw [Decimal.natural?, List.isEmpty_cons, if_neg Bool.false_ne_true, hv] at hnone
    cases hnone

theorem toNat_sub_le {low high : Char} (h : (decide (low ≤ c) && decide (c ≤ high)) = true) :
    c.toNat - low.toNat ≤ high.toNat - low.toNat := by
  rw [Bool.and_eq_true, decide_eq_true_iff, decide_eq_true_iff] at h
  have hhigh : c.toNat ≤ high.toNat := h.2
  omega

theorem hexValue?_lt {d : Nat} (h : hexValue? c = some d) : d < 16 := by
  unfold hexValue? at h
  split at h
  · next hc =>
    cases h
    exact Nat.lt_of_le_of_lt (toNat_sub_le hc) (by decide)
  · split at h
    · next hc =>
      cases h
      exact Nat.lt_of_le_of_lt (Nat.add_le_add_right (toNat_sub_le hc) 10) (by decide)
    · split at h
      · next hc =>
        cases h
        exact Nat.lt_of_le_of_lt (Nat.add_le_add_right (toNat_sub_le hc) 10) (by decide)
      · cases h

theorem hexNumber?_lt {width value n : Nat} {s : List Char}
    (h : hexNumber? width value s = some n) : n < (value + 1) * Nat.pow 16 width := by
  induction width generalizing value s with
  | zero =>
    cases h
    simp
  | succ width ih =>
    cases s with
    | nil => cases h
    | cons c rest =>
      rw [hexNumber?] at h
      split at h
      · next d hd =>
        have hlt := hexValue?_lt hd
        have hpow : Nat.pow 16 (width + 1) = 16 * Nat.pow 16 width := Nat.pow_succ'
        calc n < (value * 16 + d + 1) * Nat.pow 16 width := ih h
          _ ≤ ((value + 1) * 16) * Nat.pow 16 width := Nat.mul_le_mul_right _ (by omega)
          _ = (value + 1) * Nat.pow 16 (width + 1) := by rw [hpow, Nat.mul_assoc]
      · cases h

end Digits

/-! ## Readers -/

/-- What stands in a text, follows the format, and yet stands for nothing.

* `version`: a version number with more digits than a number may have
* `escape`: the escape of a code point that does not exist -/
inductive Unreadable (text : List Char) : Mishap → Prop where
  | version {rest digits : List Char} (hdirective : "%YAML".toList ++ rest <:+ text)
      (hin : digits <:+: rest) (hdigits : ∀ c ∈ digits, isAsciiDigit c = true)
      (hlong : Decimal.maxDigits < digits.length) : Unreadable text .noSuchValue
  | escape {rest : List Char} {n : Nat} {m : Mishap} (hescape : '\\' :: 'U' :: rest <:+ text)
      (hn : hexNumber? 8 0 rest = some n) (hcode : charOfCode n = .error (.mishap m)) :
      Unreadable text m

/-- A reader of a part of the text ends well, meets a mistake, or something unreadable. -/
def Reads {α : Type} (text : List Char) (good : α → Prop) : Except Problem α → Prop
  | .ok a => good a
  | .error .malformed => True
  | .error (.mishap m) => Unreadable text m

/-- The cursor stands in the text. -/
def Cursor.Within (c : Cursor) (text : List Char) : Prop := c.rest <:+ text

section Reads

variable {α β : Type} {text : List Char} {good : α → Prop} {good' : β → Prop}

theorem Reads.bind {x : Except Problem α} {f : α → Except Problem β} (hx : Reads text good x)
    (hf : ∀ a, good a → Reads text good' (f a)) : Reads text good' (x >>= f) := by
  cases x with
  | ok a => exact hf a hx
  | error p =>
    cases p with
    | malformed => trivial
    | mishap m => exact hx

theorem Reads.ite {p : Prop} [Decidable p] {x y : Except Problem α} (hx : p → Reads text good x)
    (hy : Reads text good y) : Reads text good (if p then x else y) := by
  split
  · next h => exact hx h
  · exact hy

/-- What is only there if a condition does not hold. -/
theorem Reads.unless {b : Bool} {rest : Unit → Except Problem α} (h : Reads text good (rest ())) :
    Reads text good
      (if b = true then (throw Problem.malformed : Except Problem Unit) >>= rest else rest ()) := by
  split
  · trivial
  · exact h

end Reads

section Readers

variable {text : List Char} {c : Cursor}

/-! ## Cursors -/

theorem Cursor.Within.advance (h : c.Within text) (n : Nat) : (c.advance n).Within text := by
  rw [Cursor.Within, rest_advance]
  exact (List.drop_suffix n c.rest).trans h

theorem Cursor.Within.skipWhile (h : c.Within text) (p : Char → Bool) :
    (c.skipWhile p).Within text :=
  h.advance _

theorem Cursor.Within.lineBreak (h : c.Within text) : c.lineBreak.2.Within text := by
  unfold Cursor.lineBreak
  split
  · exact h.advance 2
  · split
    · exact h.advance 1
    · exact h
  · exact h

theorem finishLine_reads (h : c.Within text) : Reads text (·.Within text) c.finishLine := by
  have hend : ∀ c : Cursor, c.Within text → Reads text (·.Within text)
      (if breakNext c.next? then .ok c.lineBreak.2 else .error .malformed) := by
    intro c hc
    split
    · exact hc.lineBreak
    · trivial
  unfold Cursor.finishLine
  dsimp only
  split
  · exact hend _ ((h.skipWhile _).skipWhile _)
  · exact hend _ (h.skipWhile _)

/-- Skipping blanks and comments only skips. -/
theorem skipGap_within (comment : Bool) (l : List Char) (p : Position) :
    (skipGap comment l p).1.Within l := by
  fun_induction skipGap comment l p with
  | case1 => exact List.suffix_refl []
  | case2 comment c rest p h ih => exact ih.trans (List.suffix_cons c rest)
  | case3 comment c rest p h h' ih => exact ih.trans (List.suffix_cons c rest)
  | case4 comment rest p h h' ih => exact ih.trans (List.suffix_cons _ rest)
  | case5 => exact List.suffix_refl _

/-! ## Names and tags -/

theorem readName_reads (h : c.Within text) : Reads text (·.2.Within text) (readName c) := by
  unfold readName
  dsimp only [Cursor.takeWhile]
  split
  · trivial
  · exact (h.advance 1).advance _

theorem escapedBytes_reads (h : c.Within text) (fuel : Nat) :
    Reads text (·.2.Within text) (escapedBytes fuel c) := by
  induction fuel generalizing c with
  | zero => exact h
  | succ fuel ih =>
    unfold escapedBytes
    split
    · split
      · trivial
      · exact Reads.bind (ih (h.advance 3)) fun _ hc => hc
    · exact h

theorem tagChars_reads (h : c.Within text) (fuel : Nat) :
    Reads text (·.2.Within text) (tagChars fuel c) := by
  induction fuel generalizing c with
  | zero => exact h
  | succ fuel ih =>
    unfold tagChars
    dsimp only [Cursor.takeWhile]
    split
    · refine Reads.bind (escapedBytes_reads (h.advance _) _) fun a ha => ?_
      split
      · trivial
      · exact Reads.bind (ih ha) fun _ hc => hc
    · exact h.advance _

theorem readTagText_reads (h : c.Within text) : Reads text (·.2.Within text) (readTagText c) := by
  unfold readTagText
  split
  · trivial
  · split
    · exact Reads.bind (tagChars_reads h _) fun _ hc => hc
    · trivial

theorem readHandle_reads (h : c.Within text) : Reads text (·.2.Within text) (readHandle c) := by
  unfold readHandle
  dsimp only [Cursor.takeWhile]
  split
  · trivial
  · have hname := (h.advance 1).advance ((c.advance 1).rest.takeWhile isNameChar).length
    split
    · exact hname
    · split
      · exact hname.advance 1
      · trivial

theorem readTag_reads (h : c.Within text) : Reads text (·.2.Within text) (readTag c) := by
  have hend : ∀ a : TagName × Cursor, a.2.Within text → Reads text (·.2.Within text)
      (if stopNext a.2.next? then pure (a.1, a.2) else throw Problem.malformed) := by
    intro a ha
    split
    · exact ha
    · trivial
  have hsuffix : ∀ a : String × Cursor, a.2.Within text → Reads text (·.2.Within text)
      (readTagText a.2 >>= fun b => if stopNext b.2.next?
        then pure (TagName.mk (some a.1) b.1, b.2) else throw Problem.malformed) :=
    fun a ha => Reads.bind (readTagText_reads ha) fun b hb => hend (⟨some a.1, b.1⟩, b.2) hb
  unfold readTag
  dsimp only
  split
  · exact hend (⟨none, "!"⟩, _) (h.advance 1)
  · split
    · refine Reads.bind (readTagText_reads (h.advance 2)) fun a ha => ?_
      split
      · exact hend (⟨none, a.1⟩, _) (ha.advance 1)
      · trivial
    · split
      · exact hend (⟨none, "!"⟩, _) (h.advance 1)
      · split
        · exact Reads.bind (readHandle_reads h) hsuffix
        · exact hsuffix ("!", _) (h.advance 1)

/-! ## Directives -/

theorem readVersionNumber_reads {rest : List Char} (hdirective : "%YAML".toList ++ rest <:+ text)
    (h : c.Within rest) : Reads text (·.2.Within rest) (readVersionNumber c) := by
  have hdigits : ∀ d ∈ c.rest.takeWhile isAsciiDigit, isAsciiDigit d = true := fun d hd =>
    List.all_eq_true.1 List.all_takeWhile d hd
  unfold readVersionNumber
  dsimp only [Cursor.takeWhile]
  split
  · trivial
  · next hne =>
    split
    · exact h.advance _
    · next hnone =>
      refine .version hdirective ?_ hdigits
        (maxDigits_lt_of_int?_eq_none (by simpa using hne) hdigits hnone)
      exact (List.takeWhile_prefix _).isInfix.trans h.isInfix

theorem readDirective_reads {rest : List Char} (hc : c.rest = '%' :: rest) (h : c.Within text) :
    Reads text (·.2.Within text) (readDirective c) := by
  have hend : ∀ a : Directive × Cursor, a.2.Within text → Reads text (·.2.Within text) (do
      return (a.1, ← a.2.finishLine)) :=
    fun a ha => Reads.bind (finishLine_reads ha) fun _ hb => hb
  have hname := (h.advance 1).advance ((c.advance 1).rest.takeWhile isNameChar).length
  unfold readDirective
  dsimp only [Cursor.takeWhile]
  refine Reads.unless ?_
  split
  · next hyaml =>
    have hdirective : "%YAML".toList ++
        ((c.advance 1).advance ((c.advance 1).rest.takeWhile isNameChar).length).rest <:+ text := by
      have hsplit : "YAML".toList ++
          ((c.advance 1).advance ((c.advance 1).rest.takeWhile isNameChar).length).rest = rest := by
        have hrest : (c.advance 1).rest = rest := by
          rw [Cursor.rest_advance, hc]
          rfl
        rw [← hyaml, Cursor.rest_advance ((c.advance 1).rest.takeWhile isNameChar).length, hrest]
        exact List.prefix_iff_eq_append.1 (List.takeWhile_prefix _)
      rw [Cursor.Within, hc, ← hsplit] at h
      exact h
    refine Reads.bind (readVersionNumber_reads hdirective
      (Cursor.Within.skipWhile (List.suffix_refl _) _)) fun a ha => ?_
    refine Reads.unless ?_
    refine Reads.bind (readVersionNumber_reads hdirective (ha.advance 1)) fun b hb => ?_
    refine Reads.unless ?_
    exact hend (.version a.1 b.1, b.2) (hb.trans hname)
  · split
    · refine Reads.bind (readHandle_reads (hname.skipWhile _)) fun a ha => ?_
      refine Reads.unless ?_
      refine Reads.bind (readTagText_reads (ha.skipWhile _)) fun b hb => ?_
      refine Reads.unless ?_
      exact hend (.tagHandle a.1 b.1, b.2) hb
    · exact hend (.unknown, _) (hname.skipWhile _)

/-! ## Scalars -/

theorem leadingBreaks_within (indent : Nat) (l : List Char) (p : Position) :
    (leadingBreaks indent l p).2.2.Within l := by
  fun_induction leadingBreaks indent l p with
  | case1 => exact List.suffix_refl []
  | case2 indent rest p after ih => exact ih.trans (List.suffix_cons _ rest)
  | case3 indent c rest p after hc hb more n cursor hmore ih =>
    rw [hmore] at ih
    exact ih.trans (List.suffix_cons c rest)
  | case4 => exact List.suffix_refl _

theorem blockBreaks_within (indent : Nat) (l : List Char) (p : Position) :
    (blockBreaks indent l p).2.Within l := by
  fun_induction blockBreaks indent l p with
  | case1 => exact List.suffix_refl []
  | case2 c rest p after hc ih => exact ih.trans (List.suffix_cons c rest)
  | case3 c rest p after hc hb more cursor hmore ih =>
    rw [hmore] at ih
    exact ih.trans (List.suffix_cons c rest)
  | case4 => exact List.suffix_refl _

theorem blockLines_within (folded : Bool) (indent fuel : Nat) (lastBreak breaks : List Char)
    (h : c.Within text) :
    (blockLines folded indent fuel lastBreak breaks c).cursor.Within text := by
  induction fuel generalizing lastBreak breaks c with
  | zero => exact h
  | succ fuel ih =>
    unfold blockLines
    split
    · exact ih _ _ ((blockBreaks_within indent _ _).trans (h.advance _).lineBreak)
    · exact h

theorem readIncrement_reads (h : c.Within text) :
    Reads text (·.2.Within text) (readIncrement c) := by
  unfold readIncrement
  split
  · split
    · trivial
    · split
      · exact h.advance 1
      · exact h
  · exact h

theorem readChomping_within (h : c.Within text) : (readChomping c).2.Within text := by
  unfold readChomping
  split
  · exact h.advance 1
  · exact h

theorem readHeader_reads (h : c.Within text) : Reads text (·.2.Within text) (readHeader c) := by
  have hend : ∀ a : BlockHeader × Cursor, a.2.Within text → Reads text (·.2.Within text)
      (if stopNext a.2.next? then do return (a.1, ← a.2.finishLine)
        else throw Problem.malformed) := by
    intro a ha
    split
    · exact Reads.bind (finishLine_reads ha) fun _ hb => hb
    · trivial
  unfold readHeader
  dsimp only
  split
  · exact Reads.bind (readIncrement_reads (readChomping_within h)) fun a ha =>
      hend (⟨_, a.1⟩, a.2) ha
  · refine Reads.bind (readIncrement_reads h) fun a ha => ?_
    split
    · exact hend (⟨.clip, none⟩, a.2) ha
    · exact hend (⟨_, a.1⟩, _) (readChomping_within ha)

theorem readBlock_reads (folded : Bool) (least : Nat) (h : c.Within text) :
    Reads text (·.2.Within text) (readBlock folded least c) := by
  unfold readBlock
  refine Reads.bind (readHeader_reads (h.advance 1)) fun a ha => ?_
  dsimp only
  split
  · exact blockLines_within _ _ _ _ _ ((blockBreaks_within _ _ _).trans ha)
  · exact blockLines_within _ _ _ _ _ ((leadingBreaks_within _ _ _).trans ha)

theorem quotedBreaks_reads (p : Position) {l : List Char} (h : l <:+ text) :
    Reads text (·.2.Within text) (quotedBreaks l p) := by
  fun_induction quotedBreaks l p with
  | case1 => exact h
  | case2 c rest p after hc ih => exact ih ((List.suffix_cons c rest).trans h)
  | case3 c rest p after hc hb hbreak ih => exact ih ((List.suffix_cons c rest).trans h)
  | case4 => trivial
  | case5 c rest p after hc hb ch hbreak hmark ih =>
    exact Reads.bind (ih ((List.suffix_cons c rest).trans h)) fun _ ha => ha
  | case6 => exact h

theorem quotedGap_reads (h : c.Within text) : Reads text (·.2.Within text) (quotedGap c) := by
  unfold quotedGap
  dsimp only [Cursor.takeWhile]
  split
  · exact Reads.bind (quotedBreaks_reads _ (h.advance _)) fun _ ha => ha
  · exact h.advance _

/-- Only the longest escapes reach beyond the code points. -/
theorem escape_of_charOfCode {letter : Char} {rest : List Char} {width n : Nat} {m : Mishap}
    (hwidth : escapeWidth? letter = some width) (hn : hexNumber? width 0 rest = some n)
    (hcode : charOfCode n = .error (.mishap m)) : letter = 'U' ∧ width = 8 := by
  have hlarge : 0x10FFFF < n := by
    refine Classical.byContradiction fun hsmall => ?_
    rw [charOfCode, if_neg (by omega), if_neg hsmall] at hcode
    split at hcode <;> cases hcode
  have hlt := hexNumber?_lt hn
  unfold escapeWidth? at hwidth
  split at hwidth
  · cases hwidth
    exact absurd (Nat.lt_trans hlarge hlt) (by decide)
  · split at hwidth
    · cases hwidth
      exact absurd (Nat.lt_trans hlarge hlt) (by decide)
    · split at hwidth
      · next hU =>
        cases hwidth
        exact ⟨hU, rfl⟩
      · cases hwidth

theorem quotedEscape_reads (h : '\\' :: c.rest <:+ text) :
    Reads text (·.2.Within text) (quotedEscape c) := by
  have hc : c.Within text := (List.suffix_cons '\\' c.rest).trans h
  unfold quotedEscape
  split
  · trivial
  · next letter rest hrest =>
    split
    · exact hc.advance 1
    · next width _ hwidth =>
      split
      · trivial
      · next n hn =>
        cases hcode : charOfCode n with
        | ok ch => exact hc.advance _
        | error p =>
          cases p with
          | malformed => trivial
          | mishap m =>
            obtain ⟨rfl, rfl⟩ := escape_of_charOfCode hwidth hn hcode
            rw [hrest] at h
            exact .escape h hn hcode
    · split
      · exact Reads.bind (quotedBreaks_reads _ hc) fun _ ha => ha
      · trivial

theorem quotedFrom_reads (double : Bool) (fuel : Nat) (h : c.Within text) :
    Reads text (·.2.Within text) (quotedFrom double fuel c) := by
  induction fuel generalizing c with
  | zero => trivial
  | succ fuel ih =>
    have hgo : ∀ part : List Char × Cursor, part.2.Within text → Reads text (·.2.Within text)
        (quotedFrom double fuel part.2 >>= fun tail => pure (part.1 ++ tail.1, tail.2)) :=
      fun part hpart => Reads.bind (ih hpart) fun _ ha => ha
    unfold quotedFrom
    dsimp only
    split
    · trivial
    · next ch rest hrest =>
      split
      · exact Reads.bind (quotedGap_reads h) hgo
      · split
        · next hbackslash =>
          refine Reads.bind (quotedEscape_reads ?_) hgo
          -- the backslash stands right before what is read
          rw [Bool.and_eq_true, decide_eq_true_iff] at hbackslash
          rw [Cursor.Within, hrest, hbackslash.2] at h
          rw [Cursor.rest_advance, hrest]
          exact h
        · split
          · exact hgo (['\''], _) (h.advance 2)
          · -- the closing quote, or any other character
            exact Reads.ite (fun _ => h.advance 1) (hgo ([ch], _) (h.advance 1))

theorem readQuoted_reads (double : Bool) (h : c.Within text) :
    Reads text (·.2.Within text) (readQuoted double c) :=
  quotedFrom_reads double _ (h.advance 1)

theorem plainBreaks_within (l : List Char) (p : Position) : (plainBreaks l p).2.1.Within l := by
  fun_induction plainBreaks l p with
  | case1 => exact List.suffix_refl []
  | case2 rest p after ih => exact ih.trans (List.suffix_cons _ rest)
  | case3 c rest p after hc hb hbreak ih => exact ih.trans (List.suffix_cons c rest)
  | case4 c rest p after hc hb ch hbreak hmark => exact List.suffix_cons c rest
  | case5 c rest p after hc hb ch hbreak hmark more cursor stopped hmore ih =>
    rw [hmore] at ih
    exact ih.trans (List.suffix_cons c rest)
  | case6 => exact List.suffix_refl _

theorem plainGap_within (h : c.Within text) : (plainGap c).cursor.Within text := by
  unfold plainGap
  dsimp only [Cursor.takeWhile]
  split
  · exact (plainBreaks_within _ _).trans (h.advance _)
  · exact h.advance _

theorem plainFrom_within (inFlow : Bool) (indent fuel : Nat) (gap : List Char) (broken : Bool)
    (h : c.Within text) : (plainFrom inFlow indent fuel gap c broken).cursor.Within text := by
  induction fuel generalizing gap c broken with
  | zero => exact h
  | succ fuel ih =>
    have hgap := plainGap_within (h.advance (plainRun inFlow c.rest).length)
    unfold plainFrom
    dsimp only
    split
    · exact h
    · split
      · exact hgap
      · split
        · exact hgap
        · exact ih _ _ hgap

end Readers

end Phrasebook.Yaml
