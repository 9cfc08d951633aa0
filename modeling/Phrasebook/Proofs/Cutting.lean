import Phrasebook.Proofs.Reading
import Phrasebook.Yaml.TokenStream

/-!
# Cutting a document

The scanner never leaves the document: each token starts where the one before it ended, and all that
is done with candidates and blocks leaves the cursor where it is. So what a reader cannot read
stands in the document (`step_reads` for one token, `scanFrom_reads` for all).
-/

namespace Phrasebook.Yaml

namespace Scanner

/-! ## Steps that leave the cursor where it is -/

variable {text : List Char} {s : Scanner}

/-- The cursor of the scanner stands in the text. -/
def Within (s : Scanner) (text : List Char) : Prop := s.cursor.Within text

@[simp]
theorem cursor_closeBlocks (column : Nat) (s : Scanner) :
    (s.closeBlocks column).cursor = s.cursor := by
  unfold closeBlocks
  split <;> rfl

@[simp]
theorem cursor_closeAllBlocks (s : Scanner) : s.closeAllBlocks.cursor = s.cursor := by
  unfold closeAllBlocks
  split <;> rfl

@[simp]
theorem cursor_openBlock (start : Token) (s : Scanner) :
    (s.openBlock start).cursor = s.cursor := by
  unfold openBlock
  split <;> rfl

theorem dropStale_reads : Reads text (·.cursor = s.cursor) s.dropStale :=
  Reads.ite (fun _ => trivial) rfl

theorem dropCandidate_reads : Reads text (·.cursor = s.cursor) s.dropCandidate := by
  unfold dropCandidate
  split
  · exact Reads.ite (fun _ => trivial) rfl
  · exact rfl

theorem noteCandidate_reads : Reads text (·.cursor = s.cursor) s.noteCandidate := by
  refine Reads.ite (fun _ => Reads.bind dropCandidate_reads fun a ha => ?_) rfl
  exact ha

theorem skipToToken_within (h : s.Within text) : s.skipToToken.Within text := by
  unfold skipToToken
  dsimp only
  refine (skipGap_within _ _ _).trans ?_
  split
  · exact h.advance 1
  · exact h

/-- What is read after a candidate is given up starts where it would have started. -/
theorem bind_reads {x : Except Problem Scanner} {f : Scanner → Except Problem Scanner}
    (hx : Reads text (·.cursor = s.cursor) x) (h : s.Within text)
    (hf : ∀ s', s'.Within text → Reads text (·.Within text) (f s')) :
    Reads text (·.Within text) (x >>= f) :=
  Reads.bind hx fun s' hs' => hf s' (by rwa [Within, hs'])

/-! ## Tokens -/

theorem scanEnd_reads (h : s.Within text) : Reads text (·.Within text) s.scanEnd :=
  bind_reads dropCandidate_reads (by rwa [Within, cursor_closeAllBlocks]) fun _ hs => hs

theorem scanDirective_reads {rest : List Char} (hc : s.cursor.rest = '%' :: rest)
    (h : s.Within text) : Reads text (·.Within text) s.scanDirective := by
  refine Reads.bind dropCandidate_reads fun s' hs' => ?_
  rw [cursor_closeAllBlocks] at hs'
  have hrest : s'.cursor.rest = '%' :: rest := by rw [hs', hc]
  exact Reads.bind (readDirective_reads hrest (by rwa [hs'])) fun _ ha => ha

theorem scanDocumentMark_reads (t : Token) (h : s.Within text) :
    Reads text (·.Within text) (s.scanDocumentMark t) :=
  bind_reads dropCandidate_reads (by rwa [Within, cursor_closeAllBlocks]) fun _ hs => hs.advance 3

theorem scanFlowStart_reads (t : Token) (h : s.Within text) :
    Reads text (·.Within text) (s.scanFlowStart t) :=
  bind_reads noteCandidate_reads h fun _ hs => hs.advance 1

theorem scanFlowEnd_reads (t : Token) (h : s.Within text) :
    Reads text (·.Within text) (s.scanFlowEnd t) :=
  bind_reads dropCandidate_reads h fun _ hs => hs.advance 1

theorem scanFlowEntry_reads (h : s.Within text) : Reads text (·.Within text) s.scanFlowEntry :=
  bind_reads dropCandidate_reads h fun _ hs => hs.advance 1

theorem Within.openBlock (h : s.Within text) (start : Token) :
    (s.openBlock start).Within text := by
  rwa [Within, cursor_openBlock]

theorem scanBlockEntry_reads (h : s.Within text) :
    Reads text (·.Within text) s.scanBlockEntry := by
  unfold scanBlockEntry
  refine Reads.unless ?_
  exact bind_reads dropCandidate_reads (h.openBlock _) fun _ hs => hs.advance 1

theorem scanKey_reads (h : s.Within text) : Reads text (·.Within text) s.scanKey := by
  unfold scanKey
  refine Reads.unless ?_
  exact bind_reads dropCandidate_reads (h.openBlock _) fun _ hs => hs.advance 1

theorem scanValue_reads (h : s.Within text) : Reads text (·.Within text) s.scanValue := by
  unfold scanValue
  split
  · dsimp only
    split
    · exact h.advance 1
    · exact h.advance 1
  · refine Reads.unless ?_
    exact (h.openBlock _).advance 1

theorem scanName_reads (token : String → Token) (h : s.Within text) :
    Reads text (·.Within text) (s.scanName token) :=
  bind_reads noteCandidate_reads h fun _ hs => Reads.bind (readName_reads hs) fun _ ha => ha

theorem scanTag_reads (h : s.Within text) : Reads text (·.Within text) s.scanTag :=
  bind_reads noteCandidate_reads h fun _ hs => Reads.bind (readTag_reads hs) fun _ ha => ha

theorem scanBlock_reads (folded : Bool) (h : s.Within text) :
    Reads text (·.Within text) (s.scanBlock folded) :=
  bind_reads dropCandidate_reads h fun _ hs => Reads.bind (readBlock_reads _ _ hs) fun _ ha => ha

theorem scanQuoted_reads (double : Bool) (h : s.Within text) :
    Reads text (·.Within text) (s.scanQuoted double) :=
  bind_reads noteCandidate_reads h fun _ hs => Reads.bind (readQuoted_reads _ hs) fun _ ha => ha

theorem scanPlain_reads (h : s.Within text) : Reads text (·.Within text) s.scanPlain :=
  bind_reads noteCandidate_reads h fun _ hs => plainFrom_within _ _ _ _ _ hs

theorem scanToken_reads {c : Char} {rest : List Char} (hc : s.cursor.rest = c :: rest)
    (h : s.Within text) : Reads text (·.Within text) (s.scanToken c rest) := by
  unfold scanToken
  dsimp only
  refine Reads.ite (fun hpercent => ?_) ?_
  · rw [Bool.and_eq_true, decide_eq_true_iff, decide_eq_true_iff] at hpercent
    rw [hpercent.2] at hc
    exact scanDirective_reads hc h
  refine Reads.ite (fun _ => scanDocumentMark_reads _ h) ?_
  refine Reads.ite (fun _ => scanDocumentMark_reads _ h) ?_
  refine Reads.ite (fun _ => scanFlowStart_reads _ h) ?_
  refine Reads.ite (fun _ => scanFlowStart_reads _ h) ?_
  refine Reads.ite (fun _ => scanFlowEnd_reads _ h) ?_
  refine Reads.ite (fun _ => scanFlowEnd_reads _ h) ?_
  refine Reads.ite (fun _ => scanFlowEntry_reads h) ?_
  refine Reads.ite (fun _ => scanBlockEntry_reads h) ?_
  refine Reads.ite (fun _ => scanKey_reads h) ?_
  refine Reads.ite (fun _ => scanValue_reads h) ?_
  refine Reads.ite (fun _ => scanName_reads _ h) ?_
  refine Reads.ite (fun _ => scanName_reads _ h) ?_
  refine Reads.ite (fun _ => scanTag_reads h) ?_
  refine Reads.ite (fun _ => scanBlock_reads _ h) ?_
  refine Reads.ite (fun _ => scanBlock_reads _ h) ?_
  refine Reads.ite (fun _ => scanQuoted_reads _ h) ?_
  refine Reads.ite (fun _ => scanQuoted_reads _ h) ?_
  exact Reads.ite (fun _ => scanPlain_reads h) trivial

/-- **One token.** -/
theorem step_reads (h : s.Within text) : Reads text (·.Within text) s.step := by
  refine bind_reads dropStale_reads (skipToToken_within h) fun s' hs' => ?_
  have hclosed : (s'.closeBlocks s'.column).Within text := by rwa [Within, cursor_closeBlocks]
  dsimp only
  split
  · exact scanEnd_reads hclosed
  · next hrest => exact scanToken_reads hrest hclosed

/-- **All tokens.** What ends the tokens, if not the end or a mistake, stands in the text. -/
theorem scanFrom_reads {m : Mishap} {fuel : Nat} (h : s.Within text)
    (hm : (TokenStream.scanFrom fuel s).problem? = some (.mishap m)) : Unreadable text m := by
  induction fuel generalizing s with
  | zero => cases hm
  | succ fuel ih =>
    have hstep := step_reads h
    rw [TokenStream.scanFrom] at hm
    -- the tokens end where a step fails, and go on where it does not
    cases hs : s.step with
    | error p =>
      simp only [hs, Option.some.injEq] at hm
      rw [hs, hm] at hstep
      exact hstep
    | ok s' =>
      rw [hs] at hstep hm
      dsimp only at hm
      split at hm
      · cases hm
      · exact ih hstep hm

end Scanner

/-- **The tokens of a document end at nothing else than its end, a mistake, or something
unreadable.** -/
theorem scan_reads {text : List Char} {m : Mishap}
    (hm : (TokenStream.scan text).problem? = some (.mishap m)) : Unreadable text m :=
  Scanner.scanFrom_reads (s := { cursor := ⟨text, {}⟩ }) (List.suffix_refl text) hm

end Phrasebook.Yaml
