import Phrasebook.Proofs.Filling

/-!
# Written templates

A template can be written: texts, and between each two of them a declaration. As long as no text
holds the opening of a declaration, reading the template finds exactly the declarations that were
written, whatever the pieces look like where they meet. A percent sign at the end of a text opens
nothing, because a declaration starts with a percent sign of its own, and a name or a default may
hold openings, because it ends only where its declaration ends.

Filling a written template from a source that always answers alike weaves the values of the
declarations between the texts.
-/

namespace Phrasebook

variable {σ : Type}

/-! ## Writing -/

/-- A declaration of the standard grammar, ready to be written. -/
structure Placeholder where
  name : String
  default? : Option String := none
  name_ne_empty : name ≠ ""
  name_chars : ∀ c ∈ name.toList, c ≠ '\x7d' ∧ c ≠ '|'
  default_chars : ∀ text ∈ default?, '\x7d' ∉ text.toList

namespace Placeholder

/-- How a declaration is written. -/
def literal (p : Placeholder) : String :=
  match p.default? with
  | none => "%\x7b" ++ p.name ++ "\x7d"
  | some text => "%\x7b" ++ p.name ++ "|" ++ text ++ "\x7d"

/-- The declaration that is to be found again. -/
def declaration (p : Placeholder) : Declaration := ⟨p.literal, p.name, p.default?⟩

end Placeholder

/-- A template with these texts and, between them, these declarations. -/
def written : String → List (Placeholder × String) → String
  | text, [] => text
  | text, (p, next) :: rest => text ++ p.literal ++ written next rest

/-- Whether a text holds no opening of a declaration. -/
def IsClear (text : String) : Prop :=
  ¬Grammar.standard.opening <:+: text.toList

/-! ## Reading what was written -/

namespace Placeholder

variable (p : Placeholder)

theorem isNameChar_name : ∀ c ∈ p.name.toList, Grammar.standard.isNameChar c = true := by
  intro c hc
  obtain ⟨hclosing, hmark⟩ := p.name_chars c hc
  simp [Grammar.standard, hclosing, hmark]

theorem name_toList_ne_nil : p.name.toList ≠ [] := by
  intro h
  exact p.name_ne_empty (String.toList_inj.1 h)

/-- The opening and the name of a declaration, before whatever ends the name. -/
def start : List Char := '%' :: '\x7b' :: p.name.toList

theorem length_start : p.start.length = Grammar.standard.opening.length + p.name.toList.length := by
  simp only [start, Grammar.standard, List.length_cons, List.length_nil]
  omega

/-- After a name comes a default and its closing, or the closing alone. -/
theorem declaration?_start {stop : Char} (hstop : Grammar.standard.isNameChar stop = false)
    (rest : List Char) :
    Grammar.standard.declaration? (p.start ++ stop :: rest)
      = match Grammar.standard.defaultPart? (stop :: rest) with
        | some (default, length) =>
          some ⟨String.ofList ((p.start ++ stop :: rest).take (p.start.length + length)), p.name,
            some (String.ofList default)⟩
        | none =>
          if Grammar.standard.plainClosing.isPrefixOf (stop :: rest) then
            some ⟨String.ofList ((p.start ++ stop :: rest).take
              (p.start.length + Grammar.standard.plainClosing.length)), p.name, none⟩
          else none := by
  have hopening : Grammar.standard.opening.isPrefixOf (p.start ++ stop :: rest) = true := by
    simp [start, Grammar.standard]
  have hinner : (p.start ++ stop :: rest).drop Grammar.standard.opening.length
      = p.name.toList ++ stop :: rest := rfl
  have hempty : (p.name.toList.isEmpty && !Grammar.standard.emptyName) = false := by
    simp [p.name_toList_ne_nil]
  have hname := Text.takeWhile_append_stop p.isNameChar_name hstop rest
  cases hpart : Grammar.standard.defaultPart? (stop :: rest) with
  | none =>
    simp only [Grammar.declaration?, hopening, hinner, hname, hempty, if_true, Bool.false_eq_true,
      if_false, List.drop_left, ← p.length_start, String.ofList_toList, hpart]
  | some part =>
    simp only [Grammar.declaration?, hopening, hinner, hname, hempty, if_true, Bool.false_eq_true,
      if_false, List.drop_left, ← p.length_start, String.ofList_toList, hpart]

theorem ofList_take_literal {n : Nat} (hn : n = p.literal.toList.length) (after : List Char) :
    String.ofList ((p.literal.toList ++ after).take n) = p.literal := by
  rw [hn, List.take_left, String.ofList_toList]

/-- A written declaration is read again, whatever follows it. -/
theorem declaration?_literal (after : List Char) :
    Grammar.standard.declaration? (p.literal.toList ++ after) = some p.declaration := by
  cases hd : p.default? with
  | none =>
    have hliteral : p.literal.toList = p.start ++ ['\x7d'] := by
      simp [literal, hd, start]
    have htext : p.literal.toList ++ after = p.start ++ '\x7d' :: after := by
      rw [hliteral, List.append_assoc, List.singleton_append]
    have hpart : Grammar.standard.defaultPart? ('\x7d' :: after) = none := by
      simp [Grammar.defaultPart?, Grammar.standard]
    have hclosing : Grammar.standard.plainClosing.isPrefixOf ('\x7d' :: after) = true := by
      simp [Grammar.standard]
    rw [htext, p.declaration?_start rfl, hpart]
    simp only [hclosing, if_true]
    rw [← htext, p.ofList_take_literal (by rw [hliteral]; simp [Grammar.standard])]
    simp only [declaration, hd]
  | some text =>
    have hliteral : p.literal.toList = p.start ++ '|' :: (text.toList ++ ['\x7d']) := by
      simp [literal, hd, start]
    have htext : p.literal.toList ++ after
        = p.start ++ '|' :: (text.toList ++ '\x7d' :: after) := by
      rw [hliteral]
      simp
    have hbody : (text.toList ++ '\x7d' :: after).takeWhile Grammar.standard.isDefaultChar
        = text.toList := by
      refine Text.takeWhile_append_stop (fun c hc => ?_) rfl after
      have hne : c ≠ '\x7d' := by
        rintro rfl
        exact p.default_chars text hd hc
      simp [Grammar.standard, hne]
    have hpart : Grammar.standard.defaultPart? ('|' :: (text.toList ++ '\x7d' :: after))
        = some (text.toList, text.toList.length + 2) := by
      simp only [Grammar.defaultPart?, hbody, List.drop_left]
      simp [Grammar.standard]
    rw [htext, p.declaration?_start rfl, hpart]
    simp only
    rw [← htext, p.ofList_take_literal (by rw [hliteral]; simp), String.ofList_toList]
    simp only [declaration, hd]

theorem literal_eq_cons : ∃ body, p.literal.toList = '%' :: body := by
  cases hd : p.default? with
  | none => exact ⟨'\x7b' :: (p.name.toList ++ ['\x7d']), by simp [literal, hd]⟩
  | some text =>
    exact ⟨'\x7b' :: (p.name.toList ++ '|' :: (text.toList ++ ['\x7d'])), by simp [literal, hd]⟩

end Placeholder

/-! ## Cutting what was written -/

theorem segmentsFrom_eq_drop (g : Grammar) (skip : Nat) (s : List Char) :
    g.segmentsFrom skip s = g.segmentsFrom 0 (s.drop skip) := by
  induction s generalizing skip with
  | nil => simp [Grammar.segmentsFrom]
  | cons c rest ih =>
    cases skip with
    | zero => rfl
    | succ n => rw [Grammar.segmentsFrom, ih n, List.drop_succ_cons]

theorem segmentsFrom_literal (p : Placeholder) (after : List Char) :
    Grammar.standard.segmentsFrom 0 (p.literal.toList ++ after)
      = .slot p.declaration :: Grammar.standard.segmentsFrom 0 after := by
  have hd := p.declaration?_literal after
  obtain ⟨body, hbody⟩ := p.literal_eq_cons
  have hlength : p.declaration.literal.length - 1 = body.length := by
    show p.literal.length - 1 = body.length
    rw [← String.length_toList, hbody, List.length_cons, Nat.add_sub_cancel]
  rw [hbody, List.cons_append] at hd ⊢
  simp only [Grammar.segmentsFrom, hd, hlength]
  rw [segmentsFrom_eq_drop, List.drop_left]

/-- A text without an opening stays text, as long as what follows does not complete an opening. -/
theorem segmentsFrom_clear {text after : List Char}
    (htext : ¬Grammar.standard.opening <:+: text) (hafter : after.head? ≠ some '\x7b') :
    Grammar.standard.segmentsFrom 0 (text ++ after)
      = text.map Segment.char ++ Grammar.standard.segmentsFrom 0 after := by
  induction text with
  | nil => rfl
  | cons c rest ih =>
    have hnone : Grammar.standard.declaration? (c :: (rest ++ after)) = none := by
      cases hd : Grammar.standard.declaration? (c :: (rest ++ after)) with
      | none => rfl
      | some d =>
        obtain ⟨hopening, -⟩ := Grammar.literal_eq_take hd
        obtain ⟨hc, hrest⟩ := List.cons_prefix_cons.1 hopening
        -- the opening's second character lies in the text, or else in what follows
        cases rest with
        | nil =>
          obtain ⟨more, hmore⟩ := hrest
          rw [List.nil_append] at hmore
          rw [← hmore] at hafter
          exact absurd rfl hafter
        | cons c' rest' =>
          obtain ⟨hc', -⟩ := List.cons_prefix_cons.1 hrest
          refine absurd (List.IsPrefix.isInfix ?_) htext
          rw [← hc, ← hc']
          exact ⟨rest', rfl⟩
    have hrest : ¬Grammar.standard.opening <:+: rest :=
      fun h => htext (h.trans (List.suffix_cons c rest).isInfix)
    rw [List.cons_append, Grammar.segmentsFrom, hnone]
    simp only [List.map_cons, List.cons_append, ih hrest]

theorem head?_written_ne (p : Placeholder) (after : List Char) :
    (p.literal.toList ++ after).head? ≠ some '\x7b' := by
  obtain ⟨body, hbody⟩ := p.literal_eq_cons
  rw [hbody]
  simp

/-- **The pieces of a written template.** -/
theorem segments_written {text : String} {rest : List (Placeholder × String)}
    (htext : IsClear text) (hrest : ∀ e ∈ rest, IsClear e.2) :
    Grammar.standard.segments (written text rest)
      = text.toList.map .char
        ++ rest.flatMap fun e => .slot e.1.declaration :: e.2.toList.map .char := by
  induction rest generalizing text with
  | nil =>
    have hend : ([] : List Char).head? ≠ some '\x7b' := nofun
    have h := segmentsFrom_clear htext hend
    rw [List.append_nil] at h
    rw [Grammar.segments, written, h]
    rfl
  | cons e rest ih =>
    obtain ⟨p, next⟩ := e
    have hnext : IsClear next := hrest (p, next) List.mem_cons_self
    have ih' := ih hnext fun e he => hrest e (List.mem_cons_of_mem _ he)
    rw [Grammar.segments] at ih' ⊢
    rw [written, String.toList_append, String.toList_append, List.append_assoc,
      segmentsFrom_clear htext (head?_written_ne p _), segmentsFrom_literal, ih']
    rfl

theorem filterMap_declaration?_map_char (s : List Char) :
    (s.map Segment.char).filterMap Segment.declaration? = [] := by
  induction s with
  | nil => rfl
  | cons c rest ih => exact ih

theorem declarations_written {text : String} {rest : List (Placeholder × String)}
    (htext : IsClear text) (hrest : ∀ e ∈ rest, IsClear e.2) :
    Grammar.standard.declarations (written text rest) = rest.map fun e => e.1.declaration := by
  rw [Grammar.declarations, segments_written htext hrest, List.filterMap_append,
    filterMap_declaration?_map_char, List.nil_append]
  induction rest with
  | nil => rfl
  | cons e rest ih =>
    rw [List.flatMap_cons, List.filterMap_append, List.filterMap_cons,
      filterMap_declaration?_map_char, ih fun e he => hrest e (List.mem_cons_of_mem _ he)]
    rfl

/-! ## Filling what was written -/

/-- The texts with the values of the declarations between them, if each declaration has one. -/
def woven? (answer : String → Except Failure String) :
    String → List (Placeholder × String) → Option String
  | text, [] => some text
  | text, (p, next) :: rest => do
    return text ++ (← p.declaration.value? answer) ++ (← woven? answer next rest)

theorem fillSegments_append (value : Declaration → List Char) (a b : List Segment) :
    fillSegments value (a ++ b) = fillSegments value a ++ fillSegments value b :=
  List.flatMap_append

theorem fillSegments_map_char (value : Declaration → List Char) (s : List Char) :
    fillSegments value (s.map .char) = s := by
  induction s with
  | nil => rfl
  | cons c rest ih => exact congrArg (c :: ·) ih

theorem fillSegments_slots (value : Declaration → List Char) (rest : List (Placeholder × String)) :
    fillSegments value (rest.flatMap fun e => .slot e.1.declaration :: e.2.toList.map .char)
      = rest.flatMap fun e => value e.1.declaration ++ e.2.toList := by
  induction rest with
  | nil => rfl
  | cons e rest ih =>
    rw [List.flatMap_cons, List.flatMap_cons, fillSegments_append, ih, ← List.singleton_append,
      fillSegments_append, fillSegments_map_char]
    simp [fillSegments]

section Values

variable {answer : String → Except Failure String}

/-- Declarations that all have a value are woven between the texts. -/
theorem woven?_eq_some {value : Declaration → String} {rest : List (Placeholder × String)}
    (h : ∀ e ∈ rest, e.1.declaration.value? answer = some (value e.1.declaration))
    (text : String) :
    woven? answer text rest = some (String.ofList
      (text.toList ++ rest.flatMap fun e => (value e.1.declaration).toList ++ e.2.toList)) := by
  induction rest generalizing text with
  | nil => simp [woven?]
  | cons e rest ih =>
    obtain ⟨p, next⟩ := e
    have hp : p.declaration.value? answer = some (value p.declaration) :=
      h (p, next) List.mem_cons_self
    rw [woven?, hp, ih fun e he => h e (List.mem_cons_of_mem _ he)]
    simp [String.ofList_append, String.append_assoc]

/-- Texts are woven only if every declaration has a value. -/
theorem value?_ne_none_of_woven? {text result : String} {rest : List (Placeholder × String)}
    (h : woven? answer text rest = some result) :
    ∀ e ∈ rest, e.1.declaration.value? answer ≠ none := by
  induction rest generalizing text result with
  | nil => exact fun e he => absurd he List.not_mem_nil
  | cons e rest ih =>
    obtain ⟨p, next⟩ := e
    obtain ⟨value, hvalue, h⟩ := Option.bind_eq_some_iff.1 h
    obtain ⟨tail, htail, -⟩ := Option.bind_eq_some_iff.1 h
    intro e he
    rcases List.mem_cons.1 he with rfl | he
    · rw [hvalue]
      exact Option.some_ne_none value
    · exact ih htail e he

/-- Written declarations with the same literal are the same declaration. -/
theorem Placeholder.declaration_eq_of_literal {p q : Placeholder} (h : p.literal = q.literal) :
    p.declaration = q.declaration := by
  have hp := p.declaration?_literal []
  rw [h, q.declaration?_literal []] at hp
  exact (Option.some.inj hp).symm

/-- What a declaration shows is its value, as literals do not stand for two declarations. -/
theorem value?_eq_shownText {ds : List Declaration} {texts : List String}
    (hvalues : ds.map (Declaration.value? answer) = texts.map some)
    (hliteral : ∀ d ∈ ds, ∀ e ∈ ds, e.literal = d.literal → e = d) {d : Declaration}
    (hd : d ∈ ds) : d.value? answer = some (shownText ds texts d) := by
  have hlength : texts.length = ds.length := by
    simpa using (congrArg List.length hvalues).symm
  obtain ⟨i, hi⟩ := List.mem_iff_getElem?.1 hd
  obtain ⟨j, -, ⟨e, he, hlit⟩, -, text, htext, hshown⟩ := (showsFirst_map hlength).first i d hi
  rw [List.getElem?_map, hi, Option.map_some] at hshown
  have hj := congrArg (·[j]?) hvalues
  simp only [List.getElem?_map, he, htext, Option.map_some] at hj
  rw [hshown, ← Option.some.inj hj, hliteral d hd e (List.mem_of_getElem? he) hlit]

end Values

section Fill

variable {answer : String → Except Failure String} {text : String}
  {rest : List (Placeholder × String)}

/-- A written template shows its texts and, between them, what its declarations show. -/
theorem filled_written (htext : IsClear text) (hrest : ∀ e ∈ rest, IsClear e.2)
    (texts : List String) :
    Grammar.standard.filled (written text rest) texts = String.ofList
      (text.toList ++ rest.flatMap fun e =>
        (shownText (rest.map fun e => e.1.declaration) texts e.1.declaration).toList
          ++ e.2.toList) := by
  have hfill : Grammar.standard.filled (written text rest) texts = String.ofList
      (fillSegments
        (fun d => (shownText (Grammar.standard.declarations (written text rest)) texts d).toList)
        (Grammar.standard.segments (written text rest))) := by
    rw [fillSegments_eq_weave]
    rfl
  rw [hfill, declarations_written htext hrest, segments_written htext hrest,
    fillSegments_append, fillSegments_map_char, fillSegments_slots]

/-- Filling succeeds exactly when every declaration has a value, and weaves the values. -/
theorem fill_written_eq_ok_iff (htext : IsClear text) (hrest : ∀ e ∈ rest, IsClear e.2)
    {result : String} {s s' : σ} :
    Grammar.standard.fill (written text rest) (Source.fixed answer) s = .ok result s' ↔
      woven? answer text rest = some result ∧ s' = s := by
  have hds := declarations_written htext hrest
  -- whatever texts answer the declarations, they are their values, and filling shows just these
  have hfilled : ∀ texts : List String,
      (rest.map fun e => e.1.declaration.value? answer) = texts.map some →
      woven? answer text rest = some (Grammar.standard.filled (written text rest) texts) := by
    intro texts hvalues
    have hshown : ∀ e ∈ rest, e.1.declaration.value? answer
        = some (shownText (rest.map fun e => e.1.declaration) texts e.1.declaration) := by
      intro e he
      refine value?_eq_shownText (by rw [List.map_map]; exact hvalues) ?_
        (List.mem_map_of_mem he)
      rintro _ hd _ he hlit
      obtain ⟨a, -, rfl⟩ := List.mem_map.1 hd
      obtain ⟨b, -, rfl⟩ := List.mem_map.1 he
      exact Placeholder.declaration_eq_of_literal hlit
    rw [woven?_eq_some hshown, filled_written htext hrest]
  rw [Grammar.fill_eq_ok_iff, hds]
  simp only [answers_fixed_iff, List.map_map]
  constructor
  · rintro ⟨texts, ⟨hvalues, rfl⟩, rfl⟩
    exact ⟨hfilled texts hvalues, rfl⟩
  · rintro ⟨h, rfl⟩
    have hvalues : (rest.map fun e => e.1.declaration.value? answer)
        = (rest.map fun e => (e.1.declaration.value? answer).getD "").map some := by
      rw [List.map_map]
      refine List.map_congr_left fun e he => ?_
      obtain ⟨value, hvalue⟩ := Option.ne_none_iff_exists'.1 (value?_ne_none_of_woven? h e he)
      simp [hvalue]
    have hresult := hfilled _ hvalues
    rw [h] at hresult
    exact ⟨_, ⟨hvalues, rfl⟩, Option.some.inj hresult⟩

/-- Filling fails exactly when some declaration has no value. -/
theorem fill_written_eq_error_iff (htext : IsClear text) (hrest : ∀ e ∈ rest, IsClear e.2)
    {s : σ} :
    (∃ f s', Grammar.standard.fill (written text rest) (Source.fixed answer) s = .error f s') ↔
      ∃ e ∈ rest, e.1.declaration.value? answer = none := by
  cases hfill : Grammar.standard.fill (written text rest) (Source.fixed answer) s with
  | ok result s' =>
    have hvalue := value?_ne_none_of_woven? ((fill_written_eq_ok_iff htext hrest).1 hfill).1
    constructor
    · rintro ⟨f, s', ⟨⟩⟩
    · rintro ⟨e, he, hnone⟩
      exact absurd hnone (hvalue e he)
  | error f s' =>
    refine ⟨fun _ => ?_, fun _ => ⟨f, s', rfl⟩⟩
    refine Classical.byContradiction fun hall => ?_
    have hvalue : ∀ e ∈ rest, e.1.declaration.value? answer
        = some ((e.1.declaration.value? answer).getD "") := by
      intro e he
      obtain ⟨value, h⟩ := Option.ne_none_iff_exists'.1 fun hnone => hall ⟨e, he, hnone⟩
      simp [h]
    have hwoven := @woven?_eq_some answer (fun d => (d.value? answer).getD "") rest hvalue text
    rw [(fill_written_eq_ok_iff htext hrest).2 ⟨hwoven, rfl⟩] at hfill
    cases hfill

end Fill

/--
**Reading undoes writing.** In a template written from texts without openings and declarations
between them, exactly these declarations are found. From a source that always answers alike it is
filled with the values of the declarations between the texts, and filling fails exactly when some
declaration has no value.
-/
theorem interpolate_written {text : String} {rest : List (Placeholder × String)}
    (htext : IsClear text) (hrest : ∀ e ∈ rest, IsClear e.2)
    (answer : String → Except Failure String) (w : World σ) :
    Grammar.standard.declarations (written text rest) = (rest.map fun e => e.1.declaration) ∧
    (∀ result w', Interpolator.standard.interpolate (written text rest) (Source.fixed answer) w
      = .ok result w' ↔ woven? answer text rest = some result ∧ w' = w) ∧
    ((∃ f w', Interpolator.standard.interpolate (written text rest) (Source.fixed answer) w
      = .error f w') ↔ ∃ e ∈ rest, e.1.declaration.value? answer = none) := by
  refine ⟨declarations_written htext hrest, fun result w' => ?_, ?_⟩
  · constructor
    · intro h
      obtain ⟨hfill, hlog⟩ := act_eq_ok h
      obtain ⟨hwoven, hcaller⟩ := (fill_written_eq_ok_iff htext hrest).1 hfill
      cases w
      cases w'
      cases hcaller
      cases hlog
      exact ⟨hwoven, rfl⟩
    · rintro ⟨hwoven, rfl⟩
      exact act_of_ok ((fill_written_eq_ok_iff htext hrest).2 ⟨hwoven, rfl⟩)
  · rw [← fill_written_eq_error_iff htext hrest (s := w.caller)]
    constructor
    · rintro ⟨f, w', h⟩
      exact ⟨f, w'.caller, (act_eq_error h).1⟩
    · rintro ⟨f, s', h⟩
      exact ⟨f, _, act_of_error h⟩

/-- A declaration whose name holds an opening. -/
def nested : Placeholder where
  name := "a%\x7bb"
  name_ne_empty := by decide
  name_chars := by simp
  default_chars := by decide

/-- A declaration with a default. -/
def defaulted : Placeholder where
  name := "a"
  default? := some "x"
  name_ne_empty := by decide
  name_chars := by simp
  default_chars := by decide

/-- A source with one property. -/
def answerNested (name : String) : Except Failure String :=
  if name = nested.name then .ok "%\x7ba|x\x7d"
  else .error ⟨.propertyNotFound name Fault.noPropertyText, []⟩

/-- Texts that end in a percent sign and start with a brace, and a value that looks like a
declaration. -/
theorem interpolate_written_nested :
    Grammar.standard.declarations (written "5%" [(nested, "\x7d%"), (defaulted, "|")])
      = [⟨"%\x7ba%\x7bb\x7d", "a%\x7bb", none⟩, ⟨"%\x7ba|x\x7d", "a", some "x"⟩] ∧
    Interpolator.standard.interpolate (written "5%" [(nested, "\x7d%"), (defaulted, "|")])
      (Source.fixed answerNested) ⟨(), []⟩ = .ok "5%%\x7ba|x\x7d\x7d%x|" ⟨(), []⟩ := by
  have hrest : ∀ e ∈ [(nested, "\x7d%"), (defaulted, "|")], IsClear e.2 := by
    unfold IsClear
    decide
  have htext : IsClear "5%" := by
    unfold IsClear
    decide
  have h := interpolate_written htext hrest answerNested (⟨(), []⟩ : World Unit)
  exact ⟨h.1, (h.2.1 _ _).2 ⟨by decide +kernel, rfl⟩⟩

/-- A source that fails for a reason of its own leaves no value, even where there is a default. -/
theorem interpolate_not_defaulted : defaulted.default? = some "x" ∧
    ¬∃ w', Interpolator.standard.interpolate (written "" [(defaulted, "")])
      (Source.fixed fun name => .error ⟨.mishap (.raised ("boom " ++ name)), []⟩) ⟨(), []⟩
      = .ok "x" w' := by
  refine ⟨rfl, ?_⟩
  rintro ⟨w', h⟩
  obtain ⟨hfill, -⟩ := act_eq_ok h
  obtain ⟨hwoven, -⟩ := (fill_written_eq_ok_iff (by unfold IsClear; decide)
    (by unfold IsClear; decide)).1 hfill
  cases hwoven

end Phrasebook
