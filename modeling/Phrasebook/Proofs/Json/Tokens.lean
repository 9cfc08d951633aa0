import Mathlib.Logic.Relation
import Phrasebook.Proofs.Json.Strings

/-!
# Tokens of a JSON text

A JSON text that fits is cut into the tokens of the node that is written in it, in flow style
(`scan_source`): how it is laid out and which escapes it uses leaves no trace. Tokens do not know of
keys that come twice, so the node that is written has all members of an object.

Of the state of the scanner only a part matters on the way (`Scanner.At`). No block is open, and the
candidates for keys are of no concern, since none of them is required; the one exception is the
string before a colon, which has to be the innermost candidate still when the colon comes.
-/

namespace Phrasebook

open Yaml

/-! ## Nodes in flow style -/

/-- The comma before every entry of a flow mapping but the first. -/
def separator (first : Bool) : List Token := if first then [] else [.flowEntry]

mutual

/-- The tokens of a node in flow style, all texts quoted. -/
def Node.flowTokens : Node → List Token
  | .leaf text => [.scalar text false]
  | .branch children => .flowMappingStart :: Node.childTokens true children

/-- The tokens of children in a flow mapping, up to its end. -/
def Node.childTokens (first : Bool) : List (String × Node) → List Token
  | [] => [.flowMappingEnd]
  | (key, n) :: rest =>
    separator first ++ (.key :: .scalar key false :: .value ::
      (n.flowTokens ++ Node.childTokens false rest))

end

mutual

/-- The node with all that is written. -/
def Json.written : Json → Node
  | .string l => .leaf l.text
  | .object _ members => .branch (Json.writtenChildren members)

/-- The nodes of all members, each under its key. -/
def Json.writtenChildren : List (Json.Member Json) → List (String × Node)
  | [] => []
  | ⟨_, key, _, _, value, _⟩ :: rest => (key.text, value.written) :: Json.writtenChildren rest

end

namespace Yaml

/-! ## Gaps -/

/-- What comes next is neither part of a gap nor a comment or a byte order mark. -/
def StandsOut (rest : List Char) : Prop :=
  ∀ ch ∈ rest.head?, isBreak ch = false ∧ ch ≠ ' ' ∧ ch ≠ '#' ∧ ch ≠ byteOrderMark

/-- No blank but the tab is a token. -/
theorem blank_of_fits {b : Json.Blank} (h : b ≠ .tab) :
    (isBreak b.char = true ∨ b.char = ' ') ∧ b.char ≠ byteOrderMark := by
  cases b with
  | tab => exact absurd rfl h
  | space | lineFeed | carriageReturn => decide

theorem skipGap_gap {g : Json.Gap} (hg : g.fits = true) {c : Cursor} {rest : List Char}
    (hc : c.rest = g.chars ++ rest) (hrest : StandsOut rest) :
    (skipGap false c.rest c.position).1 = c.advance g.length := by
  induction g generalizing c with
  | nil =>
    obtain ⟨_, p⟩ := c
    cases hc
    cases rest with
    | nil => rfl
    | cons ch rest =>
      obtain ⟨hbreak, hspace, hcomment, -⟩ := hrest ch rfl
      simp [skipGap, hbreak, hspace, hcomment, Cursor.advance]
  | cons b g ih =>
    rw [Json.Gap.fits, List.all_cons, Bool.and_eq_true, decide_eq_true_iff] at hg
    have hrest' : c.rest = b.char :: (Json.Gap.chars g ++ rest) := hc
    have hnext := ih hg.2 (Cursor.rest_advance_append [b.char] hrest')
    rw [List.length_singleton, Cursor.advance_one hrest'] at hnext
    rw [List.length_cons, Nat.add_comm, Cursor.advance_add, Cursor.advance_one hrest', ← hnext,
      hrest', skipGap]
    rcases (blank_of_fits hg.1).1 with hbreak | hspace
    · rw [if_pos hbreak]
    · have hbreak : isBreak b.char = false := by rw [hspace]; decide
      rw [hbreak, if_neg Bool.false_ne_true, hspace, if_pos (by decide)]

namespace Scanner

/-! ## The state between two tokens -/

/--
What matters of the state of a scanner in a JSON text.

* `rest_eq`, `tokens_eq`: what is still to be read, and the tokens so far, latest first
* `depth_eq`: how many objects are open
* `free`: giving up a candidate is no mistake
-/
structure At (s : Scanner) (rest : List Char) (tokens : List Token) (depth : Nat) : Prop where
  rest_eq : s.cursor.rest = rest
  tokens_eq : s.tokens = tokens
  depth_eq : s.candidates.length = depth + 1
  free : ∀ c? ∈ s.candidates, ∀ c ∈ c?, c.required = false
  indents_eq : s.indents = []
  finished_eq : s.finished = false

/-- The candidate of the innermost collection. -/
def innermost? (s : Scanner) : Option Candidate := s.candidates.head?.join

variable {s : Scanner} {g : Json.Gap} {rest : List Char} {tokens : List Token} {depth : Nat}
  {c : Candidate}

theorem At.inFlow (h : s.At rest tokens (depth + 1)) : s.inFlow = true := by
  rw [Scanner.inFlow, h.depth_eq, decide_eq_true_iff]
  omega

/-- Candidates that are not required may be given up. -/
theorem At.candidates (h : s.At rest tokens depth) {candidates : List (Option Candidate)}
    (hlength : candidates.length = s.candidates.length)
    (hfree : ∀ c? ∈ candidates, ∀ c ∈ c?, c.required = false) :
    { s with candidates }.At rest tokens depth :=
  { h with depth_eq := by rw [hlength, h.depth_eq], free := hfree }

theorem free_none_cons {outer : List (Option Candidate)}
    (h : ∀ c? ∈ outer, ∀ c ∈ c?, c.required = false) :
    ∀ c? ∈ none :: outer, ∀ c ∈ c?, c.required = false := by
  rw [List.forall_mem_cons]
  exact ⟨fun c hc => (nomatch hc), h⟩

theorem dropCandidate_at (h : s.At rest tokens depth) :
    ∃ s', s.dropCandidate = .ok s' ∧ s'.At rest tokens depth ∧ s'.cursor = s.cursor := by
  unfold dropCandidate
  split
  · next c outer hcandidates =>
    have hfree := h.free
    rw [hcandidates, List.forall_mem_cons] at hfree
    rw [hfree.1 c rfl, if_neg Bool.false_ne_true]
    exact ⟨_, rfl, h.candidates (by rw [hcandidates]; rfl) (free_none_cons hfree.2), rfl⟩
  · exact ⟨s, rfl, h, rfl⟩

/-- The next token may be noted as a candidate; where a key is allowed, it is. -/
theorem noteCandidate_at (h : s.At rest tokens depth) :
    ∃ s', s.noteCandidate = .ok s' ∧ s'.At rest tokens depth ∧ s'.cursor = s.cursor ∧
      (s.keyAllowed = true → s'.innermost? = some ⟨tokens.length, false, s.cursor.position⟩) := by
  unfold noteCandidate
  cases hallowed : s.keyAllowed with
  | false => exact ⟨s, rfl, h, rfl, fun h => (nomatch h)⟩
  | true =>
    rw [if_pos rfl]
    obtain ⟨s', hdrop, hs', hcursor⟩ := dropCandidate_at h
    rw [hdrop]
    have hrequired : decide (s'.indents.head? = some s'.column) = false := by
      rw [hs'.indents_eq]
      rfl
    refine ⟨_, rfl, hs'.candidates ?_ ?_, hcursor, fun _ => ?_⟩
    · rw [List.length_cons, List.length_drop, hs'.depth_eq]
      omega
    · rw [List.forall_mem_cons]
      refine ⟨fun c hc => ?_, fun c? hc => hs'.free c? (List.mem_of_mem_drop hc)⟩
      cases hc
      rw [hrequired, Bool.and_false]
    · change some (Candidate.mk s'.tokens.length _ s'.cursor.position) = _
      rw [hrequired, Bool.and_false, hs'.tokens_eq, hcursor]

/-! ## Up to the next token -/

theorem skipToToken_at (hg : g.fits = true) (hrest : StandsOut rest)
    (h : s.At (g.chars ++ rest) tokens depth) :
    s.skipToToken.At rest tokens depth ∧ s.skipToToken.cursor = s.cursor.advance g.length ∧
      s.skipToToken.candidates = s.candidates ∧
      (s.keyAllowed = true → s.skipToToken.keyAllowed = true) := by
  have hmark : s.cursor.next? ≠ some byteOrderMark := by
    rw [Cursor.next?, h.rest_eq]
    intro hnext
    cases g with
    | nil => exact (hrest _ hnext).2.2.2 rfl
    | cons b g =>
      rw [Json.Gap.fits, List.all_cons, Bool.and_eq_true, decide_eq_true_iff] at hg
      exact (blank_of_fits hg.1).2 (Option.some.inj hnext)
  have hcursor : s.skipToToken.cursor = s.cursor.advance g.length := by
    rw [← skipGap_gap hg h.rest_eq hrest]
    unfold skipToToken
    dsimp only
    rw [decide_eq_false hmark, Bool.and_false, if_neg Bool.false_ne_true]
  have hlength : g.chars.length = g.length := List.length_map ..
  refine ⟨{ h with rest_eq := ?_ }, hcursor, rfl, fun hallowed => ?_⟩
  · rw [hcursor, ← hlength]
    exact Cursor.rest_advance_append _ h.rest_eq
  · unfold skipToToken
    dsimp only
    rw [hallowed, Bool.true_or]

theorem dropStale_at (h : s.At rest tokens depth) :
    ∃ s' : Scanner, s.dropStale = .ok s' ∧ s'.At rest tokens depth ∧ s'.cursor = s.cursor ∧
      s'.keyAllowed = s.keyAllowed ∧
      ∀ c, s.innermost? = some c → isStale s.cursor.position c = false →
        s'.innermost? = some c := by
  let stale (c? : Option Candidate) : Bool := c?.any (isStale s.cursor.position)
  have hnone : (s.candidates.any fun c? => stale c? && c?.any (·.required)) = false := by
    refine List.any_eq_false.2 fun c? hc => ?_
    cases c? with
    | none => exact Bool.false_ne_true
    | some c =>
      have hfree : c.required = false := h.free (some c) hc c rfl
      simp [hfree]
  refine ⟨{ s with candidates := s.candidates.map fun c? => if stale c? then none else c? },
    if_neg (by rw [hnone]; exact Bool.false_ne_true),
    h.candidates (List.length_map ..) fun c? hc => ?_, rfl, rfl, fun c hc hfresh => ?_⟩
  · obtain ⟨old?, hold, rfl⟩ := List.mem_map.1 hc
    split
    · exact fun c hc => (nomatch hc)
    · exact h.free old? hold
  · cases hcandidates : s.candidates with
    | nil =>
      rw [innermost?, hcandidates] at hc
      cases hc
    | cons c? outer =>
      rw [innermost?, hcandidates] at hc
      change c? = some c at hc
      subst hc
      change (if stale (some c) then none else some c) = some c
      rw [show stale (some c) = false from hfresh, if_neg Bool.false_ne_true]

theorem closeBlocks_of_nil (h : s.indents = []) (column : Nat) : s.closeBlocks column = s := by
  unfold closeBlocks
  split
  · rfl
  · obtain ⟨⟩ := s
    cases h
    rfl

/-- What is done where a token may start. -/
def scanNext (s : Scanner) : List Char → Except Problem Scanner
  | [] => s.scanEnd
  | ch :: rest => s.scanToken ch rest

/-- A gap is skipped. Candidates may be lost on the way, but not one that is still fresh. -/
theorem step_at (hg : g.fits = true) (hrest : StandsOut rest)
    (h : s.At (g.chars ++ rest) tokens depth) :
    ∃ s' : Scanner, s'.At rest tokens depth ∧ s'.cursor = s.cursor.advance g.length ∧
      (s.keyAllowed = true → s'.keyAllowed = true) ∧
      (∀ c, s.innermost? = some c → isStale s'.cursor.position c = false →
        s'.innermost? = some c) ∧
      s.step = s'.scanNext rest := by
  obtain ⟨hskip, hcursor, hcandidates, hallowed⟩ := skipToToken_at hg hrest h
  obtain ⟨s', hstale, hs', hcursor', hallowed', hfresh⟩ := dropStale_at hskip
  refine ⟨s', hs', hcursor'.trans hcursor, fun hkey => hallowed'.trans (hallowed hkey),
    fun c hc => ?_, ?_⟩
  · rw [hcursor']
    refine hfresh c ?_
    rw [innermost?, hcandidates]
    exact hc
  · rw [step, hstale]
    change (s'.closeBlocks s'.column).scanNext (s'.closeBlocks s'.column).cursor.rest = _
    rw [closeBlocks_of_nil hs'.indents_eq, hs'.rest_eq]

/-! ## Single tokens -/

theorem startsWithMark_of_ne {mark ch : Char} (h : ch ≠ mark) (rest : List Char) :
    startsWithMark mark (ch :: rest) = false := by
  unfold startsWithMark
  split
  · next heq =>
    cases heq
    rw [decide_eq_false h, Bool.false_and, Bool.false_and, Bool.false_and]
  · rfl

/-- The tokens of JSON are told apart by their first character. -/
theorem scanToken_eq {ch : Char} (h : ch = '\x7b' ∨ ch = '\x7d' ∨ ch = ',' ∨ ch = '"')
    (s : Scanner) (rest : List Char) :
    s.scanToken ch rest =
      if ch = '\x7b' then s.scanFlowStart .flowMappingStart
      else if ch = '\x7d' then s.scanFlowEnd .flowMappingEnd
      else if ch = ',' then s.scanFlowEntry
      else s.scanQuoted true := by
  have hminus : startsWithMark '-' (ch :: rest) = false :=
    startsWithMark_of_ne (by rcases h with rfl | rfl | rfl | rfl <;> decide) rest
  have hdot : startsWithMark '.' (ch :: rest) = false :=
    startsWithMark_of_ne (by rcases h with rfl | rfl | rfl | rfl <;> decide) rest
  unfold scanToken
  dsimp only
  rw [hminus, hdot]
  rcases h with rfl | rfl | rfl | rfl <;> simp

theorem scanToken_colon (h : s.At (':' :: rest) tokens (depth + 1)) :
    s.scanToken ':' rest = s.scanValue := by
  have hminus := startsWithMark_of_ne (by decide : ':' ≠ '-') rest
  have hdot := startsWithMark_of_ne (by decide : ':' ≠ '.') rest
  unfold scanToken
  simp [hminus, hdot, h.inFlow]

theorem At.rest_advance (part : List Char) (h : s.At (part ++ rest) tokens depth) :
    (s.cursor.advance part.length).rest = rest :=
  Cursor.rest_advance_append part h.rest_eq

/-- A token is read that is this part of the text. -/
theorem At.pushOver (t : Token) (part : List Char) (h : s.At (part ++ rest) tokens depth) :
    (s.pushOver t part.length).At rest (t :: tokens) depth :=
  { h with rest_eq := h.rest_advance part, tokens_eq := congrArg (t :: ·) h.tokens_eq }

/-- The brace that opens an object. -/
theorem scanOpen_at (h : s.At ('\x7b' :: rest) tokens depth) :
    ∃ s' : Scanner, s.scanNext ('\x7b' :: rest) = .ok s' ∧
      s'.At rest (.flowMappingStart :: tokens) (depth + 1) ∧ s'.keyAllowed = true := by
  obtain ⟨s₁, hnote, hs₁, -⟩ := noteCandidate_at h
  rw [scanNext, scanToken_eq (Or.inl rfl), if_pos rfl, scanFlowStart, hnote]
  refine ⟨_, rfl, { hs₁.pushOver .flowMappingStart ['\x7b'] with
    depth_eq := ?_, free := free_none_cons hs₁.free }, rfl⟩
  change s₁.candidates.length + 1 = _
  rw [hs₁.depth_eq]

/-- The brace that closes an object. -/
theorem scanClose_at (h : s.At ('\x7d' :: rest) tokens (depth + 1)) :
    ∃ s' : Scanner, s.scanNext ('\x7d' :: rest) = .ok s' ∧
      s'.At rest (.flowMappingEnd :: tokens) depth := by
  obtain ⟨s₁, hdrop, hs₁, -⟩ := dropCandidate_at h
  rw [scanNext, scanToken_eq (by simp), if_neg (by decide), if_pos rfl, scanFlowEnd, hdrop]
  have houter : (if s₁.inFlow then s₁.candidates.drop 1 else s₁.candidates)
      = s₁.candidates.drop 1 := by rw [hs₁.inFlow, if_pos rfl]
  refine ⟨_, rfl, { hs₁.pushOver .flowMappingEnd ['\x7d'] with depth_eq := ?_, free := ?_ }⟩
  · change List.length (if s₁.inFlow then _ else _) = _
    rw [houter, List.length_drop, hs₁.depth_eq]
    rfl
  · change ∀ c? ∈ (if s₁.inFlow then s₁.candidates.drop 1 else s₁.candidates), _
    rw [houter]
    exact fun c? hc => hs₁.free c? (List.mem_of_mem_drop hc)

/-- The comma between two members. -/
theorem scanComma_at (h : s.At (',' :: rest) tokens depth) :
    ∃ s' : Scanner, s.scanNext (',' :: rest) = .ok s' ∧
      s'.At rest (.flowEntry :: tokens) depth ∧ s'.keyAllowed = true := by
  obtain ⟨s₁, hdrop, hs₁, -⟩ := dropCandidate_at h
  rw [scanNext, scanToken_eq (by simp), if_neg (by decide), if_neg (by decide), if_pos rfl,
    scanFlowEntry, hdrop]
  exact ⟨_, rfl, { hs₁.pushOver .flowEntry [','] with }, rfl⟩

/-- A string, which becomes a candidate where a key is allowed. -/
theorem scanString_at (l : Json.Literal) (hl : Json.unfolded (l.inside ++ ['"']) = true)
    (h : s.At (l.source ++ rest) tokens depth) :
    ∃ s' : Scanner, s.scanNext (l.source ++ rest) = .ok s' ∧
      s'.At rest (.scalar l.text false :: tokens) depth ∧
      s'.cursor = s.cursor.advance l.source.length ∧
      (s.keyAllowed = true → s'.innermost? = some ⟨tokens.length, false, s.cursor.position⟩) := by
  obtain ⟨s₁, hnote, hs₁, hcursor, hinnermost⟩ := noteCandidate_at h
  have hread := readQuoted_source l hs₁.rest_eq hl
  have hscan : s.scanNext (l.source ++ rest) = s.scanQuoted true :=
    (scanToken_eq (by simp) s _).trans rfl
  rw [hscan, scanQuoted, hnote]
  change ∃ s', (readQuoted true s₁.cursor >>= fun part => _) = .ok s' ∧ _
  rw [hread]
  refine ⟨_, rfl, { hs₁ with rest_eq := hs₁.rest_advance _, tokens_eq := ?_ }, ?_, hinnermost⟩
  · change Token.scalar l.text false :: s₁.tokens = _
    rw [hs₁.tokens_eq]
  · change s₁.cursor.advance _ = _
    rw [hcursor]

/-- The colon behind a key. The mark of a key goes before the string that is the candidate. -/
theorem scanColon_at {t : Token} (h : s.At (':' :: rest) (t :: tokens) (depth + 1))
    (hc : s.innermost? = some c) (hnumber : c.number = tokens.length) :
    ∃ s' : Scanner, s.scanNext (':' :: rest) = .ok s' ∧
      s'.At rest (.value :: t :: .key :: tokens) (depth + 1) := by
  rw [scanNext, scanToken_colon h, scanValue]
  have hfree := h.free
  cases hcandidates : s.candidates with
  | nil =>
    rw [innermost?, hcandidates] at hc
    cases hc
  | cons c? outer =>
    rw [innermost?, hcandidates] at hc
    change c? = some c at hc
    subst hc
    rw [hcandidates, List.forall_mem_cons] at hfree
    have hgiven := h.candidates (by rw [hcandidates]; rfl) (free_none_cons hfree.2)
    have hmarked : ({ s with candidates := none :: outer }.insertAt c.number .key).At
        (':' :: rest) (t :: .key :: tokens) (depth + 1) := by
      refine { hgiven with tokens_eq := ?_ }
      change s.tokens.insertIdx (s.tokens.length - c.number) .key = _
      rw [h.tokens_eq, hnumber, List.length_cons, Nat.add_sub_cancel_left]
      rfl
    dsimp only
    rw [hmarked.inFlow, Bool.true_or, if_pos rfl]
    exact ⟨_, rfl, { hmarked.pushOver .value [':'] with }⟩

/-- The end of the text. -/
theorem scanEnd_at (h : s.At [] tokens depth) :
    ∃ s' : Scanner, s.scanNext [] = .ok s' ∧ s'.tokens = .streamEnd :: tokens ∧
      s'.finished = true := by
  have hclose : s.closeAllBlocks = s := by
    unfold closeAllBlocks
    split
    · rfl
    · obtain ⟨⟩ := s
      cases h.indents_eq
      rfl
  obtain ⟨s₁, hdrop, hs₁, -⟩ := dropCandidate_at h
  rw [scanNext, scanEnd, hclose, hdrop]
  refine ⟨_, rfl, ?_, rfl⟩
  change Token.streamEnd :: s₁.tokens = _
  rw [hs₁.tokens_eq]

/-! ## Runs -/

/-- One token is read that does not end the document. -/
structure Steps (s s' : Scanner) : Prop where
  step_eq : s.step = .ok s'
  unfinished : s'.finished = false
  shorter : s'.cursor.rest.length < s.cursor.rest.length

/-- Some tokens are read, one after the other. -/
abbrev Leads : Scanner → Scanner → Prop := Relation.ReflTransGen Steps

/-- What is left of the fuel is enough for what is left of the text. -/
theorem Leads.scanFrom_eq {s s' : Scanner} (h : Leads s s') (fuel : Nat)
    (hfuel : s.cursor.rest.length < fuel) : ∃ fuel', s'.cursor.rest.length < fuel' ∧
      TokenStream.scanFrom fuel s = TokenStream.scanFrom fuel' s' := by
  induction h with
  | refl => exact ⟨fuel, hfuel, rfl⟩
  | tail _ hstep ih =>
    obtain ⟨fuel', hfuel', heq⟩ := ih
    obtain ⟨n, rfl⟩ := Nat.exists_eq_succ_of_ne_zero (Nat.ne_zero_of_lt hfuel')
    refine ⟨n, by have := hstep.shorter; omega, heq.trans ?_⟩
    rw [TokenStream.scanFrom, hstep.step_eq]
    dsimp only
    rw [hstep.unfinished, if_neg Bool.false_ne_true]

/-- A gap and the token behind it. -/
theorem steps_of_scanNext {s₁ s₂ : Scanner} {rest' : List Char} {tokens' : List Token}
    {depth' : Nat} (h : s.At (g.chars ++ rest) tokens depth) (hstep : s.step = s₁.scanNext rest)
    (hscan : s₁.scanNext rest = .ok s₂) (hs₂ : s₂.At rest' tokens' depth')
    (hless : rest'.length < rest.length) : Steps s s₂ where
  step_eq := hstep.trans hscan
  unfinished := hs₂.finished_eq
  shorter := by
    rw [h.rest_eq, hs₂.rest_eq, List.length_append]
    omega

theorem gap_append (g g' : Json.Gap) : (g ++ g').chars = g.chars ++ g'.chars := List.map_append

theorem fits_append {g g' : Json.Gap} (hg : g.fits = true) (hg' : g'.fits = true) :
    (g ++ g').fits = true := by
  rw [Json.Gap.fits, List.all_append, Bool.and_eq_true]
  exact ⟨hg, hg'⟩

theorem standsOut_cons {ch : Char}
    (h : ch = '\x7b' ∨ ch = '\x7d' ∨ ch = ',' ∨ ch = '"' ∨ ch = ':') (rest : List Char) :
    StandsOut (ch :: rest) := by
  intro other hother
  cases hother
  rcases h with rfl | rfl | rfl | rfl | rfl <;> decide

/-- The comma before a member, if there is one. Before a member a key is allowed. -/
theorem leads_separator (first : Bool) {before : Json.Gap} (hg : g.fits = true)
    (hbefore : before.fits = true)
    (h : s.At (g.chars ++ (Json.comma first ++ (before.chars ++ rest))) tokens depth)
    (hallowed : first = true → s.keyAllowed = true) :
    ∃ (s' : Scanner) (g' : Json.Gap), Leads s s' ∧ g'.fits = true ∧
      s'.At (g'.chars ++ rest) ((separator first).reverse ++ tokens) depth ∧
      s'.keyAllowed = true := by
  cases first with
  | true =>
    refine ⟨s, g ++ before, .refl, fits_append hg hbefore, ?_, hallowed rfl⟩
    rw [gap_append, List.append_assoc]
    exact h
  | false =>
    change s.At (g.chars ++ ',' :: (before.chars ++ rest)) tokens depth at h
    obtain ⟨s₁, hs₁, -, -, -, hstep⟩ := step_at hg (standsOut_cons (by simp) _) h
    obtain ⟨s₂, hscan, hs₂, hkey⟩ := scanComma_at hs₁
    exact ⟨s₂, before, .single (steps_of_scanNext h hstep hscan hs₂ (by simp)), hbefore, hs₂, hkey⟩

theorem leads_string (l : Json.Literal) (hl : Json.unfolded (l.inside ++ ['"']) = true)
    (hg : g.fits = true) (h : s.At (g.chars ++ (l.source ++ rest)) tokens depth) :
    ∃ s' : Scanner, Leads s s' ∧ s'.At rest (.scalar l.text false :: tokens) depth := by
  obtain ⟨s₁, hs₁, -, -, -, hstep⟩ := step_at hg (standsOut_cons (by simp) _) h
  obtain ⟨s₂, hscan, hs₂, -⟩ := scanString_at l hl hs₁
  refine ⟨s₂, .single (steps_of_scanNext h hstep hscan hs₂ ?_), hs₂⟩
  rw [List.length_append, length_source]
  omega

theorem fitsKey_iff {key : Json.Literal} {afterKey : Json.Gap} :
    key.fitsKey afterKey = true ↔ (∀ ch ∈ key.inside, isBreak ch = false) ∧
      (∀ b ∈ afterKey, b = .space) ∧ key.source.length + afterKey.length ≤ maxKeyLength := by
  simp [Json.Literal.fitsKey, and_assoc]

/-- Neither the line nor the length of keys is left between a key and its colon. -/
theorem isStale_of_fitsKey {key : Json.Literal} {afterKey : Json.Gap}
    (hfits : key.fitsKey afterKey = true) {cursor : Cursor}
    (hc : cursor.rest = key.source ++ (afterKey.chars ++ rest)) (number : Nat) (required : Bool) :
    isStale (cursor.advance (key.source.length + afterKey.length)).position
      ⟨number, required, cursor.position⟩ = false := by
  obtain ⟨hinside, hspaces, hlength⟩ := fitsKey_iff.1 hfits
  have hpart : key.source.length + afterKey.length = (key.source ++ afterKey.chars).length := by
    rw [List.length_append, Json.Gap.chars, List.length_map]
  have hone : ∀ ch ∈ key.source ++ afterKey.chars, isBreak ch = false := by
    intro ch hch
    simp only [Json.Literal.source, Json.Gap.chars, List.mem_append, List.mem_cons, List.mem_map,
      List.not_mem_nil, or_false] at hch
    rcases hch with (rfl | hin | rfl) | ⟨b, hb, rfl⟩
    · decide
    · exact hinside ch hin
    · decide
    · rw [hspaces b hb]
      decide
  rw [← List.append_assoc] at hc
  rw [isStale, hpart, Cursor.line_advance hc hone, Cursor.index_advance hc, ← hpart]
  simp
  omega

/-- A key with its colon. The string is still a fresh candidate when the colon comes. -/
theorem leads_key {key : Json.Literal} {afterKey : Json.Gap} (hfits : key.fitsKey afterKey = true)
    (hg : g.fits = true)
    (h : s.At (g.chars ++ (key.source ++ (afterKey.chars ++ (':' :: rest)))) tokens (depth + 1))
    (hallowed : s.keyAllowed = true) :
    ∃ s' : Scanner, Leads s s' ∧
      s'.At rest (.value :: .scalar key.text false :: .key :: tokens) (depth + 1) := by
  obtain ⟨hinside, hspaces, -⟩ := fitsKey_iff.1 hfits
  have hgap : afterKey.fits = true := by
    refine List.all_eq_true.2 fun b hb => ?_
    rw [hspaces b hb]
    rfl
  have hunfolded : Json.unfolded (key.inside ++ ['"']) = true := by
    refine unfolded_of_oneLine fun ch hch => ?_
    rcases List.mem_append.1 hch with hin | hquote
    · exact hinside ch hin
    · rw [List.mem_singleton.1 hquote]
      decide
  -- the string, noted as a candidate
  obtain ⟨s₁, hs₁, -, hallowed₁, -, hstep₁⟩ := step_at hg (standsOut_cons (by simp) _) h
  obtain ⟨s₂, hscan₂, hs₂, hcursor₂, hinnermost⟩ := scanString_at key hunfolded hs₁
  have hsteps₂ : Steps s s₂ := by
    refine steps_of_scanNext h hstep₁ hscan₂ hs₂ ?_
    simp only [List.length_append, length_source]
    omega
  -- the colon
  obtain ⟨s₃, hs₃, hcursor₃, -, hfresh, hstep₃⟩ := step_at hgap (standsOut_cons (by simp) _) hs₂
  have hcandidate : s₃.innermost? = some ⟨tokens.length, false, s₁.cursor.position⟩ := by
    refine hfresh _ (hinnermost (hallowed₁ hallowed)) ?_
    rw [hcursor₃, hcursor₂, ← Cursor.advance_add]
    exact isStale_of_fitsKey hfits hs₁.rest_eq _ _
  obtain ⟨s₄, hscan₄, hs₄⟩ := scanColon_at hs₃ hcandidate rfl
  have hsteps₄ : Steps s₂ s₄ := steps_of_scanNext hs₂ hstep₃ hscan₄ hs₄ (Nat.lt_succ_self _)
  exact ⟨s₄, .tail (.single hsteps₂) hsteps₄, hs₄⟩

/-! ## Values -/

mutual

theorem leads_value : ∀ (j : Json) {s : Scanner} {g : Json.Gap} {rest : List Char}
    {tokens : List Token} {depth : Nat}, j.fits = true → g.fits = true →
    s.At (g.chars ++ (j.source ++ rest)) tokens depth →
    ∃ s' : Scanner, Leads s s' ∧ s'.At rest (j.written.flowTokens.reverse ++ tokens) depth
  | .string l, s, g, rest, tokens, depth, hfits, hg, h => by
    rw [Json.fits, Bool.and_eq_true] at hfits
    exact leads_string l hfits.2 hg h
  | .object opening members, s, g, rest, tokens, depth, hfits, hg, h => by
    rw [Json.fits, Bool.and_eq_true] at hfits
    rw [Json.source, List.cons_append, List.append_assoc] at h
    obtain ⟨s₁, hs₁, -, -, -, hstep⟩ := step_at hg (standsOut_cons (by simp) _) h
    obtain ⟨s₂, hscan, hs₂, hallowed⟩ := scanOpen_at hs₁
    obtain ⟨s₃, hleads, hs₃⟩ := leads_members true members hfits.2 hfits.1 hs₂ fun _ => hallowed
    refine ⟨s₃, .head (steps_of_scanNext h hstep hscan hs₂ (Nat.lt_succ_self _)) hleads, ?_⟩
    rw [Json.written, Node.flowTokens, List.reverse_cons, List.append_assoc]
    exact hs₃

theorem leads_members : ∀ (first : Bool) (members : List (Json.Member Json)) {s : Scanner}
    {g : Json.Gap} {rest : List Char} {tokens : List Token} {depth : Nat},
    Json.membersFit members = true → g.fits = true →
    s.At (g.chars ++ (Json.membersSource first members ++ rest)) tokens (depth + 1) →
    (first = true → s.keyAllowed = true) →
    ∃ s' : Scanner, Leads s s' ∧
      s'.At rest ((Node.childTokens first (Json.writtenChildren members)).reverse ++ tokens) depth
  | first, [], s, g, rest, tokens, depth, _, hg, h, _ => by
    obtain ⟨s₁, hs₁, -, -, -, hstep⟩ := step_at hg (standsOut_cons (by simp) _) h
    obtain ⟨s₂, hscan, hs₂⟩ := scanClose_at hs₁
    exact ⟨s₂, .single (steps_of_scanNext h hstep hscan hs₂ (Nat.lt_succ_self _)), hs₂⟩
  | first, ⟨beforeKey, key, afterKey, beforeValue, value, afterValue⟩ :: members, s, g, rest,
      tokens, depth, hfits, hg, h, hallowed => by
    simp only [Json.membersFit, Bool.and_eq_true] at hfits
    obtain ⟨⟨⟨hbeforeKey, -, hkey⟩, ⟨hbeforeValue, hvalue⟩, hafterValue⟩, hmembers⟩ := hfits
    simp only [Json.membersSource, List.append_assoc, List.cons_append] at h
    obtain ⟨s₁, g₁, hleads₁, hg₁, hs₁, hallowed₁⟩ :=
      leads_separator first hg hbeforeKey h hallowed
    obtain ⟨s₂, hleads₂, hs₂⟩ := leads_key hkey hg₁ hs₁ hallowed₁
    obtain ⟨s₃, hleads₃, hs₃⟩ := leads_value value hvalue hbeforeValue hs₂
    obtain ⟨s₄, hleads₄, hs₄⟩ :=
      leads_members false members hmembers hafterValue hs₃ fun h => (nomatch h)
    refine ⟨s₄, hleads₁.trans (hleads₂.trans (hleads₃.trans hleads₄)), ?_⟩
    simp only [Json.writtenChildren, Node.childTokens, List.reverse_append, List.reverse_cons,
      List.append_assoc, List.singleton_append]
    exact hs₄

end

end Scanner

/-- **A JSON text that fits is cut into the tokens of what is written in it.** -/
theorem scan_source (t : JsonText) (h : t.fits = true) :
    TokenStream.scan t.source = ⟨t.object.written.flowTokens ++ [.streamEnd], none⟩ := by
  rw [JsonText.fits, Bool.and_eq_true, Bool.and_eq_true] at h
  obtain ⟨⟨hbefore, hobject⟩, hafter⟩ := h
  have hstart : Scanner.At { cursor := ⟨t.source, {}⟩ }
      (t.before.chars ++ (t.object.source ++ (t.after.chars ++ []))) [] 0 := by
    refine ⟨?_, rfl, rfl, ?_, rfl, rfl⟩
    · rw [List.append_nil]
      rfl
    · intro c? hc c hcandidate
      rw [List.mem_singleton.1 hc] at hcandidate
      cases hcandidate
  obtain ⟨s₁, hleads, hs₁⟩ := Scanner.leads_value t.object hobject hbefore hstart
  obtain ⟨s₂, hs₂, -, -, -, hstep⟩ :=
    Scanner.step_at hafter (fun ch hch => (nomatch hch) : StandsOut []) hs₁
  obtain ⟨s₃, hscan, htokens, hfinished⟩ := Scanner.scanEnd_at hs₂
  obtain ⟨fuel, hfuel, heq⟩ := hleads.scanFrom_eq (t.source.length + 2) (by simp)
  obtain ⟨fuel, rfl⟩ := Nat.exists_eq_succ_of_ne_zero (Nat.ne_zero_of_lt hfuel)
  rw [TokenStream.scan, heq, TokenStream.scanFrom, hstep, hscan]
  dsimp only
  rw [hfinished, if_pos rfl, htokens, List.append_nil, List.reverse_cons, List.reverse_reverse]

end Yaml

end Phrasebook
