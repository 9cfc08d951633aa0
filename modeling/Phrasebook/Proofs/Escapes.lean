import Phrasebook.Engine
import Phrasebook.Proofs.Cutting
import Phrasebook.Proofs.Evaluating
import Phrasebook.Proofs.Normalization

/-!
# What escapes a document

Reading a document ends in a tree, in a document fault, or in a mishap that nothing on the way turns
into one. Document faults are mistakes against the format, values that hold themselves and roots
that are no mapping. A mishap is brought about by something that stands in the document
(`Document.Offends`), and is of one of a few kinds (`Offends.complaint`).

Loading a bundle adds the path to document faults and to nothing else (`readTree_outcome`): a bundle
with an offence keeps an engine from being made, and is not named.
-/

namespace Phrasebook

/-! ## Values without a tree -/

/-- What fails, fails because something holds itself, or for want of a text. -/
def FailsFor {α : Type} (free good : Bool) (r : Except Fault α) : Prop :=
  ∀ f, r = .error f →
    (f = recursionFault ∧ free = false) ∨ (f = .mishap .noSuchValue ∧ good = false)

section FailsFor

variable {α β : Type} {a b c d : Bool}

theorem failsFor_ok (x : α) : FailsFor a b (.ok x : Except Fault α) :=
  fun _ h => nomatch h

theorem failsFor_recursion : FailsFor false b (.error recursionFault : Except Fault α) := by
  intro f h
  cases h
  exact Or.inl ⟨rfl, rfl⟩

theorem failsFor_of_settles {r : Except Fault α} (h : Settles b r) : FailsFor true b r := by
  intro f hf
  cases b with
  | true =>
    obtain ⟨x, hx⟩ := h.ok rfl
    rw [hx] at hf
    cases hf
  | false =>
    rw [h.error rfl] at hf
    cases hf
    exact Or.inr ⟨rfl, rfl⟩

theorem failsFor_bind {x : Except Fault α} {f : α → Except Fault β} (hx : FailsFor a b x)
    (hf : ∀ y, FailsFor c d (f y)) : FailsFor (a && c) (b && d) (x >>= f) := by
  intro e h
  cases x with
  | ok y =>
    rcases hf y e h with ⟨he, hc⟩ | ⟨he, hd⟩
    · exact Or.inl ⟨he, by rw [hc, Bool.and_false]⟩
    · exact Or.inr ⟨he, by rw [hd, Bool.and_false]⟩
  | error e' =>
    cases h
    rcases hx e rfl with ⟨he, ha⟩ | ⟨he, hb⟩
    · exact Or.inl ⟨he, by rw [ha, Bool.false_and]⟩
    · exact Or.inr ⟨he, by rw [hb, Bool.false_and]⟩

/-- What only wants a text holds nothing that could hold itself. -/
theorem failsFor_bind_of_settles {x : Except Fault α} {f : α → Except Fault β} (hx : Settles b x)
    (hf : ∀ y, FailsFor c d (f y)) : FailsFor c (b && d) (x >>= f) :=
  failsFor_bind (failsFor_of_settles hx) hf

theorem failsFor_map {x : Except Fault α} {f : α → β} (hx : FailsFor a b x) :
    FailsFor a b (do return f (← x)) := by
  have h := failsFor_bind hx fun y => @failsFor_ok β true true (f y)
  rwa [Bool.and_true, Bool.and_true] at h

end FailsFor

mutual

theorem normalize_fails : ∀ v : Value, FailsFor v.selfFree v.hasTexts v.normalize
  | .scalar s => failsFor_map (failsFor_of_settles (text_settles (.scalar s)))
  | .list items => failsFor_map (normalizeItems_fails 0 items)
  | .tuple items => failsFor_map (normalizeItems_fails 0 items)
  | .map entries => failsFor_map (normalizeEntries_fails entries)
  | .set members => failsFor_map (failsFor_of_settles (text_settles (.set members)))
  | .tree t => failsFor_ok (Part.tree t)
  | .enclosing _ _ => failsFor_recursion

theorem normalizeItems_fails : ∀ (place : Nat) (items : List Value),
    FailsFor (Value.selfFreeAll items) (Value.haveTexts items) (Value.normalizeItems place items)
  | _, [] => failsFor_ok []
  | place, v :: rest =>
    failsFor_bind (normalize_fails v) fun _ => failsFor_map (normalizeItems_fails (place + 1) rest)

theorem normalizeEntries_fails : ∀ entries : List (Key × Value),
    FailsFor (Value.selfFreeEntries entries) (Value.entriesHaveTexts entries)
      (Value.normalizeEntries entries)
  | [] => failsFor_ok []
  | (key, v) :: rest =>
    failsFor_bind_of_settles (segment_settles key) fun _ =>
      failsFor_bind (normalize_fails v) fun _ => failsFor_map (normalizeEntries_fails rest)

end

/-- **A value without a tree is no mapping, holds itself, or has a part without a text.** -/
theorem build_fails {v : Value} {f : Fault} (h : Tree.build v = .error f) :
    (f = rootFault v ∧ v.isRoot = false) ∨ (f = recursionFault ∧ v.selfFree = false) ∨
      (f = .mishap .noSuchValue ∧ v.hasTexts = false) := by
  cases v with
  | map entries => exact Or.inr (failsFor_map (normalizeEntries_fails entries) f h)
  | tree t => cases h
  | enclosing =>
    cases h
    exact Or.inr (Or.inl ⟨rfl, rfl⟩)
  | list | tuple | set =>
    cases h
    exact Or.inl ⟨rfl, rfl⟩
  | scalar s =>
    cases s <;> cases h
    all_goals exact Or.inl ⟨rfl, rfl⟩

/-! ## Offences -/

namespace Document

/--
What in a document brings about a mishap.

* `unreadable`: a version number with too many digits, or an escape without a character
* `misfit`: a node whose text stands for nothing under its tag, or that stands for itself
* `textless`: a number that can be read but not shown
-/
inductive Offends (d : Document) : Mishap → Prop where
  | unreadable {text : List Char} {m : Mishap} (htext : d.characters = .ok text)
      (h : Yaml.Unreadable text m) : Offends d m
  | misfit {text : List Char} {g : Yaml.Graph} {m : Mishap} (htext : d.characters = .ok text)
      (hgraph : Yaml.Graph.ofTokens (.scan text) = .ok g) (h : Yaml.Misfit g.nodes m) :
      Offends d m
  | textless {v : Value} (hvalue : d.value = .ok v) (h : v.hasTexts = false) :
      Offends d .noSuchValue

variable {d : Document} {m : Mishap}

theorem allowed_ne_mishap {text : List Char} : Yaml.allowed text ≠ .error (.mishap m) := by
  intro h
  unfold Yaml.allowed at h
  split at h <;> cases h

theorem characters_ne_mishap : d.characters ≠ .error (.mishap m) := by
  intro h
  cases d with
  | text s => exact allowed_ne_mishap h
  | bytes content =>
    change Yaml.readBytes content = _ at h
    unfold Yaml.readBytes at h
    split at h
    · exact allowed_ne_mishap h
    · cases h

/-- **A document that has no value is malformed, or has an offence.** -/
theorem value_mishap (h : d.value = .error (.mishap m)) : d.Offends m := by
  rcases Yaml.bind_eq_mishap h with hcharacters | ⟨text, htext, hrest⟩
  · exact absurd hcharacters characters_ne_mishap
  · rcases Yaml.bind_eq_mishap hrest with hgraph | ⟨g, hgraph, hvalue⟩
    · exact .unreadable htext (Yaml.scan_reads (Yaml.ofTokens_mishap hgraph))
    · exact .misfit htext hgraph (Yaml.toValue_mishap hvalue)

/-! ## Kinds of mishaps -/

/-- The mishaps that a document may bring about. -/
inductive Complaint : Mishap → Prop where
  | noSuchValue : Complaint .noSuchValue
  | outOfRange : Complaint .outOfRange
  | noEntry (shown : String) : Complaint (.noEntry shown)
  | noCharacter : Complaint .noCharacter
  | noForm : Complaint .noForm
  | endless : Complaint .endless
  | timestamp : Complaint Yaml.Evaluate.timestampMishap

theorem complaint_of_charOfCode {n : Nat} (h : Yaml.charOfCode n = .error (.mishap m)) :
    Complaint m := by
  unfold Yaml.charOfCode at h
  split at h
  · cases h
    exact .outOfRange
  · split at h
    · cases h
      exact .noSuchValue
    · split at h <;> cases h

theorem complaint_of_scalar {tag : Yaml.Tag} (h : Yaml.Typed.Complaint tag m) : Complaint m := by
  cases h with
  | noTruthWord word => exact .noEntry _
  | noInt | noFloat | noDay => exact .noSuchValue
  | noIntDigits | noFloatDigits => exact .noCharacter
  | tooManySixtieths => exact .outOfRange
  | noTimestampForm => exact .noForm

theorem Offends.complaint (h : d.Offends m) : Complaint m := by
  cases h with
  | unreadable _ hunreadable =>
    cases hunreadable with
    | version => exact .noSuchValue
    | escape _ _ hcode => exact complaint_of_charOfCode hcode
  | misfit _ _ hmisfit =>
    cases hmisfit with
    | scalar _ _ hscalar => exact complaint_of_scalar (Yaml.Typed.scalar_mishap hscalar)
    | timestamp => exact .timestamp
    | endless => exact .endless
  | textless => exact .noSuchValue

/-! ## Trees and bundles -/

/--
What reading a document may end in.

* `tree`: what its value becomes, nothing counting as an empty mapping
* `malformed`, `notMapping` and `recursive`: the document faults
* `offence`: a mishap that something in the document brings about
-/
inductive Outcome (d : Document) : Except Fault Tree → Prop where
  | tree {v : Value} {t : Tree} (hvalue : d.value = .ok v) (hroot : v.isRoot = true)
      (ht : Becomes v.asRoot t.node) : Outcome d (.ok t)
  | malformed (hvalue : d.value = .error .malformed) : Outcome d (.error (.document malformedText))
  | notMapping {v : Value} (hvalue : d.value = .ok v) (hroot : v.isRoot = false) :
      Outcome d (.error (rootFault v))
  | recursive {v : Value} (hvalue : d.value = .ok v) (hfree : v.selfFree = false) :
      Outcome d (.error recursionFault)
  | offence {m : Mishap} (h : d.Offends m) (hm : Complaint m) : Outcome d (.error (.mishap m))

theorem isRoot_of_build {v : Value} {t : Tree} (h : Tree.build v = .ok t) : v.isRoot = true := by
  cases v with
  | map | tree => rfl
  | scalar s => cases s <;> first | rfl | cases h
  | _ => cases h

theorem outcome_of_value {v : Value} (hvalue : d.value = .ok v) : d.Outcome (Tree.build v) := by
  cases hbuild : Tree.build v with
  | ok t =>
    have hroot := isRoot_of_build hbuild
    exact .tree hvalue hroot (asRoot_becomes hroot hbuild)
  | error f =>
    rcases build_fails hbuild with ⟨rfl, hroot⟩ | ⟨rfl, hfree⟩ | ⟨rfl, htexts⟩
    · exact .notMapping hvalue hroot
    · exact .recursive hvalue hfree
    · have hoffends : d.Offends .noSuchValue := .textless hvalue htexts
      exact .offence hoffends hoffends.complaint

theorem outcome_tree (d : Document) : d.Outcome d.tree := by
  unfold Document.tree
  split
  · next v hvalue => exact outcome_of_value hvalue
  · next p hvalue =>
    cases p with
    | malformed => exact .malformed hvalue
    | mishap m =>
      have hoffends := value_mishap hvalue
      exact .offence hoffends hoffends.complaint

/--
**Reading a document ends in a tree or in a document fault, unless something in the document brings
about a mishap.**
-/
theorem tree_outcome (d : Document) :
    d.Outcome d.tree ∧
    ((∀ m, ¬d.Offends m) →
      (∃ t, d.tree = .ok t) ∨ ∃ detail, d.tree = .error (.document detail)) := by
  have houtcome := outcome_tree d
  refine ⟨houtcome, fun hnone => ?_⟩
  generalize d.tree = r at houtcome
  cases houtcome with
  | tree => exact Or.inl ⟨_, rfl⟩
  | malformed | notMapping | recursive => exact Or.inr ⟨_, rfl⟩
  | offence h _ => exact absurd h (hnone _)

/-- In a text without percent signs and backslashes everything can be read. -/
theorem not_unreadable {text : List Char} (hpercent : '%' ∉ text) (hbackslash : '\\' ∉ text) :
    ¬Yaml.Unreadable text m := by
  intro h
  cases h with
  | version hdirective => exact hpercent (hdirective.subset (by simp))
  | escape hescape => exact hbackslash (hescape.subset List.mem_cons_self)

/-- Texts under texts fit. -/
theorem not_misfit {nodes : Array Yaml.GraphNode}
    (h : ∀ n ∈ nodes, n.tag = .text ∧ n.content.isMapping = false ∨ n.tag = .mapping) :
    ¬Yaml.Misfit nodes m := by
  intro hmisfit
  cases hmisfit with
  | scalar hn _ hscalar =>
    rcases h _ hn with ⟨htag, -⟩ | htag
    · rw [htag] at hscalar
      cases hscalar
    · rw [htag] at hscalar
      cases hscalar
  | timestamp hn htag hmapping =>
    rcases h _ hn with ⟨htext, -⟩ | hmap
    · rw [htext] at htag
      cases htag
    · rw [hmap] at htag
      cases htag
  | endless hn htag hmapping =>
    rcases h _ hn with ⟨-, hcontent⟩ | hmap
    · rw [hcontent] at hmapping
      cases hmapping
    · rw [hmap] at htag
      cases htag

/-- The mishap of a document, if it has one. -/
def mishap? (d : Document) : Option Mishap :=
  match d.tree with
  | .error (.mishap m) => some m
  | _ => none

/-- A document of plain texts. -/
def plain : Document := text "a: b"

theorem not_offends_plain : ¬plain.Offends m := by
  intro h
  cases h with
  | unreadable htext hunreadable =>
    cases htext
    exact not_unreadable (by decide +kernel) (by decide +kernel) hunreadable
  | misfit htext hgraph hmisfit =>
    -- the nodes are a mapping and its two texts
    have hnodes : (Yaml.Graph.ofTokens (.scan "a: b".toList)).toOption.map Yaml.Graph.nodes
        = some #[⟨.mapping, .mapping [(1, 2)]⟩, ⟨.text, .scalar "a"⟩, ⟨.text, .scalar "b"⟩] := by
      decide +kernel
    cases htext
    rw [hgraph] at hnodes
    refine not_misfit (fun n hn => ?_) hmisfit
    rw [Option.some.inj hnodes] at hn
    simp only [List.mem_toArray, List.mem_cons, List.not_mem_nil, or_false] at hn
    rcases hn with rfl | rfl | rfl
    · exact Or.inr rfl
    · exact Or.inl ⟨rfl, rfl⟩
    · exact Or.inl ⟨rfl, rfl⟩
  | textless hvalue htexts =>
    have hplain : plain.value.toOption.map Value.hasTexts = some true := by decide +kernel
    rw [hvalue] at hplain
    exact absurd (Option.some.inj hplain) (by rw [htexts]; exact Bool.false_ne_true)

theorem tree_outcome_plain : (∃ t, plain.tree = .ok t) ∨
    ∃ detail, plain.tree = .error (.document detail) :=
  (tree_outcome plain).2 fun _ => not_offends_plain

/-- The thirtieth of February is a day by its form but gives neither a tree nor a document fault. -/
theorem tree_not_document : ¬((∃ t, (text "a: 2001-02-30").tree = .ok t) ∨
    ∃ detail, (text "a: 2001-02-30").tree = .error (.document detail)) := by
  have h : (text "a: 2001-02-30").mishap? = some .noSuchValue := by decide +kernel
  unfold mishap? at h
  rintro (⟨t, ht⟩ | ⟨detail, ht⟩)
  · rw [ht] at h
    cases h
  · rw [ht] at h
    cases h

end Document

namespace Engine

variable {σ : Type}

/-- **The path of a bundle is added to a document fault, and to nothing else.** -/
theorem readTree_outcome (path : Path) (content : List UInt8) (w : World σ) :
    (∃ t, (Document.bytes content).tree = .ok t ∧ readTree path (.file content) w = .ok t w) ∨
    (∃ detail, readTree path (.file content) w
      = .error ⟨.document (path.text ++ ": " ++ detail), [.document detail]⟩ w) ∨
    ∃ m, readTree path (.file content) w = .error ⟨.mishap m, []⟩ w ∧
      (Document.bytes content).Offends m := by
  cases htree : (Document.bytes content).tree with
  | ok t =>
    have hread : (ofResult (Document.bytes content).tree : Action σ Tree) w = .ok t w := by
      rw [htree]
      rfl
    exact Or.inl ⟨t, rfl, by rw [readTree, handling_ok hread]⟩
  | error f =>
    have hread : (ofResult (Document.bytes content).tree : Action σ Tree) w
        = .error ⟨f, []⟩ w := by
      rw [htree]
      rfl
    rw [readTree, handling_error hread]
    have houtcome := (Document.bytes content).outcome_tree
    rw [htree] at houtcome
    cases houtcome with
    | malformed | notMapping | recursive => exact Or.inr (Or.inl ⟨_, rfl⟩)
    | offence h _ => exact Or.inr (Or.inr ⟨_, rfl, h⟩)

end Engine

end Phrasebook
