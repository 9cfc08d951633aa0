import Phrasebook.Proofs.Bundles
import Phrasebook.Proofs.Json.Tokens
import Phrasebook.Proofs.Json.Trees

/-!
# JSON documents

A JSON text that fits is read as the tree that it denotes, be it given as a text, as bytes or as the
bundle of a locale (`tree_json`).

The text goes through the stages of reading one after the other: its characters, its tokens
(`scan_source`), their graph (`ofTokens_flowTokens`), the value of the graph (`toValue_graph`) and
the tree of the value (`build_toValue`). Only the first stage is left to look at here: all
characters may occur, and as bytes they are no less readable than as text. A key that comes twice is
dealt with where the value is made.
-/

namespace Phrasebook

namespace Yaml

/-! ## Texts as bytes -/

/-- The bytes of a text. -/
def utf8 (s : String) : List UInt8 := s.toUTF8.data.toList

theorem utf8_ofList (chars : List Char) :
    utf8 (String.ofList chars) = chars.flatMap String.utf8EncodeChar := by
  rw [utf8, String.toUTF8_eq_toByteArray, String.toByteArray_ofList, List.utf8Encode,
    List.data_toByteArray]

/-- The bytes of a character start with none that a byte order mark has. -/
theorem exists_utf8EncodeChar (c : Char) :
    ∃ b rest, String.utf8EncodeChar c = b :: rest ∧ b.toNat < 0xFE := by
  rw [String.utf8EncodeChar]
  repeat' split
  all_goals
    refine ⟨_, _, rfl, ?_⟩
    rw [UInt8.toNat_ofNat']
    omega

/-- The bytes of a text do not start with a byte order mark. -/
theorem utf8_ne_cons {s : String} {b : UInt8} (hb : 0xFE ≤ b.toNat) (rest : List UInt8) :
    utf8 s ≠ b :: rest := by
  rw [← String.ofList_toList (s := s), utf8_ofList]
  cases s.toList with
  | nil => exact fun h => (nomatch h)
  | cons c cs =>
    obtain ⟨b', more, hc, hb'⟩ := exists_utf8EncodeChar c
    rw [List.flatMap_cons, hc, List.cons_append]
    intro h
    cases h
    exact absurd hb' (Nat.not_lt.2 hb)

/-- **The bytes of a text are read as its characters.** -/
theorem decode?_utf8 (s : String) : decode? (utf8 s) = some s.toList := by
  have hread : String.fromUTF8? s.toUTF8 = some s := by
    unfold String.fromUTF8?
    exact dif_pos s.isValidUTF8
  unfold decode?
  split
  · next h => exact absurd h (utf8_ne_cons (by decide) _)
  · next h => exact absurd h (utf8_ne_cons (by decide) _)
  · rw [utf8, Array.toArray_toList, hread]
    rfl

theorem readBytes_utf8 (s : String) : readBytes (utf8 s) = allowed s.toList := by
  rw [readBytes, decode?_utf8]

end Yaml

namespace Json

/-! ## Characters that may occur -/

theorem isAllowed_gap (g : Gap) : (Gap.chars g).all Yaml.isAllowed = true := by
  rw [Gap.chars, List.all_map, List.all_eq_true]
  intro b _
  cases b <;> decide

theorem isAllowed_literal {l : Literal} (h : l.allowed = true) :
    (Literal.source l).all Yaml.isAllowed = true := by
  rw [Literal.allowed] at h
  rw [Literal.source, List.all_cons, List.all_append, h]
  decide

theorem isAllowed_comma (first : Bool) : (comma first).all Yaml.isAllowed = true := by
  cases first <;> decide

mutual

/-- What a value denotes is what is written in it, with one child for each key. -/
theorem collected_written : ∀ v : Json, v.written.collected = v.node
  | .string _ => rfl
  | .object _ members => by
    rw [written, Node.collected, collectedChildren_written members, node]

theorem collectedChildren_written : ∀ members : List (Member Json),
    Node.collectedChildren (writtenChildren members) = children members
  | [] => rfl
  | ⟨_, key, _, _, value, _⟩ :: rest => by
    rw [writtenChildren, Node.collectedChildren, collected_written value,
      collectedChildren_written rest, children]

end

mutual

theorem isAllowed_source : ∀ v : Json, v.fits = true → v.source.all Yaml.isAllowed = true
  | .string l, h => by
    rw [fits, Bool.and_eq_true] at h
    exact isAllowed_literal h.1
  | .object opening members, h => by
    rw [fits, Bool.and_eq_true] at h
    rw [source, List.all_cons, List.all_append, isAllowed_gap, isAllowed_members true members h.2]
    decide

theorem isAllowed_members (first : Bool) : ∀ members : List (Member Json),
    membersFit members = true → (membersSource first members).all Yaml.isAllowed = true
  | [], _ => by
    rw [membersSource]
    decide
  | ⟨beforeKey, key, afterKey, beforeValue, value, afterValue⟩ :: rest, h => by
    simp only [membersFit, Bool.and_eq_true] at h
    obtain ⟨⟨⟨-, hkey, -⟩, ⟨-, hvalue⟩, -⟩, hrest⟩ := h
    simp only [membersSource, List.all_append, List.all_cons, isAllowed_gap, isAllowed_comma,
      isAllowed_literal hkey, isAllowed_source value hvalue, isAllowed_members false rest hrest]
    decide

end

end Json

namespace JsonText

variable {t : JsonText}

/-- The text. -/
def text (t : JsonText) : String := String.ofList t.source

/-- The bytes of the text. -/
def bytes (t : JsonText) : List UInt8 := Yaml.utf8 t.text

/-- **All characters of a text that fits may occur.** -/
theorem allowed_source (h : t.fits = true) : Yaml.allowed t.source = .ok t.source := by
  rw [fits, Bool.and_eq_true, Bool.and_eq_true] at h
  refine if_pos ?_
  rw [source, List.all_append, List.all_append, Json.isAllowed_gap, Json.isAllowed_gap,
    Json.isAllowed_source t.object h.1.2]
  rfl

theorem characters_text (h : t.fits = true) : (Document.text t.text).characters = .ok t.source := by
  rw [Document.characters, text, String.toList_ofList, allowed_source h]

theorem characters_bytes (h : t.fits = true) :
    (Document.bytes t.bytes).characters = .ok t.source := by
  rw [Document.characters, bytes, Yaml.readBytes_utf8, text, String.toList_ofList, allowed_source h]

end JsonText

namespace Document

variable {t : JsonText} {d : Document}

/-! ## All stages -/

/-- A document with the characters of a text that fits has the value of its tree. -/
theorem value_of_characters (hfits : t.fits = true) (h : d.characters = .ok t.source) :
    d.value = .ok t.tree.toValue :=
  let n := t.object.written
  calc d.value
    _ = (do (← Yaml.Graph.ofTokens (.scan t.source)).toValue) := by rw [value, h]; rfl
    _ = (do (← Yaml.Graph.ofTokens ⟨n.flowTokens ++ [.streamEnd], none⟩).toValue) := by
      rw [Yaml.scan_source t hfits]
    _ = Yaml.Graph.toValue ⟨(n.graph 0).toArray, some 0⟩ := by
      rw [Yaml.ofTokens_flowTokens]
      rfl
    _ = .ok n.collected.toValue := toValue_graph n
    _ = .ok t.object.node.toValue := by rw [Json.collected_written]
    _ = .ok t.tree.toValue := rfl

theorem tree_of_characters (hfits : t.fits = true) (h : d.characters = .ok t.source) :
    d.tree = .ok t.tree := by
  rw [tree, value_of_characters hfits h]
  exact build_toValue t.tree

end Document

/-! ## Documents and bundles -/

open Engine in
/--
**A JSON text is read as what it denotes**, if it fits. As a text and as bytes it is the document
of its tree; and as the bundle of a locale it loads, provided that the other bundles that are to be
read can be. How the text is laid out and which of its characters are written as escapes makes no
difference.
-/
theorem tree_json (t : JsonText) (hfits : t.fits = true) :
    (Document.text t.text).tree = .ok t.tree ∧
    (Document.bytes t.bytes).tree = .ok t.tree ∧
    ∀ {σ : Type} (files : FileSystem) (settings : Settings) (entries : List (String × FileTree))
      (name : String) (w : World σ),
      files.find? (directoryOf settings) = .ok (some (.directory entries)) →
      (entries.map Prod.fst).Nodup →
      (name, .file t.bytes) ∈ entries → (splitName name).2 = ".json" →
      (∀ entry ∈ entries, entry.1 ≠ name → isBundle entry.1 = true →
        leads (entries.map Prod.fst) entry.1 = true → Readable entry) →
      ∃ e w', load files settings w = .ok e w' ∧ localeOf name ∈ e.locales ∧
        e.bundle (localeOf name) = t.tree := by
  have hbytes : (Document.bytes t.bytes).tree = .ok t.tree :=
    Document.tree_of_characters hfits (t.characters_bytes hfits)
  refine ⟨Document.tree_of_characters hfits (t.characters_text hfits), hbytes, ?_⟩
  intro σ files settings entries name w hfind hnodup hmem hsuffix hothers
  have hb : isBundle name = true := by
    rw [isBundle, hsuffix]
    decide
  have hname : name ∈ entries.map Prod.fst := List.mem_map_of_mem hmem
  have hl := leads_of_json hsuffix hname
  have hread : ∀ entry ∈ entries, isBundle entry.1 = true →
      leads (entries.map Prod.fst) entry.1 = true → Readable entry := by
    intro entry hentry hbundle hleads
    by_cases hname : entry.1 = name
    · have hsame := valueUnder?_of_mem hnodup hentry
      rw [hname, valueUnder?_of_mem hnodup hmem] at hsame
      exact ⟨t.bytes, t.tree, (Option.some.inj hsame).symm, hbytes⟩
    · exact hothers entry hentry hname hbundle hleads
  obtain ⟨e, w', hload, hloaded⟩ := exists_load_of_readable (w := w) hfind hnodup hread
  obtain ⟨hlocale, htree⟩ := hloaded.bundle_of_leads hnodup hmem hb hl
  rw [hbytes, Except.ok.injEq] at htree
  exact ⟨e, w', hload, hlocale, htree.symm⟩

namespace JsonText

/-- A text with each blank that fits, escapes of both kinds and a key that comes twice. -/
def greeting : JsonText where
  before := [.lineFeed]
  opening := [.carriageReturn, .lineFeed, .space]
  members := [
    { key := [.plain 'h' rfl, .plain 'i' rfl], value := .string [] },
    { key := [.plain 'h' rfl, .plain 'i' rfl], afterKey := [.space], beforeValue := [.lineFeed],
      value := .object [.space] [
        { key := []
          value := .string
            [.short .tab, .code ⟨2, false⟩ ⟨0, false⟩ ⟨10, true⟩ ⟨12, false⟩ rfl] }] }]

example : greeting.text
    = "\n\x7b\r\n \"hi\":\"\",\"hi\" :\n\x7b \"\":\"\\t\\u20Ac\"\x7d\x7d" := by decide +kernel

/-- The bundle that the text is, before another of its locale that is no document. -/
def greetings : List (String × FileTree) :=
  [("en.yml", .file "[".toUTF8.toList), ("en.json", .file greeting.bytes)]

/-- A text in which a tab stands before a value. -/
def tabbed : JsonText where
  members := [{ key := [.plain 'a' rfl], beforeValue := [.tab], value := .string [.plain 'b' rfl] }]

example : tabbed.text = "\x7b\"a\":\t\"b\"\x7d" := by decide +kernel

end JsonText

/-- The text is the document of its tree, and the other file is not looked into. -/
theorem tree_json_greeting :
    (Document.text JsonText.greeting.text).tree = .ok JsonText.greeting.tree ∧
    ∃ e w', Engine.load (Engine.holding JsonText.greetings) { bundlesDir := "/srv/b" }
        (⟨(), []⟩ : World Unit) = .ok e w' ∧
      e.bundle "en" = JsonText.greeting.tree := by
  obtain ⟨htext, -, hload⟩ := tree_json JsonText.greeting (by decide +kernel)
  refine ⟨htext, ?_⟩
  obtain ⟨e, w', hok, -, hbundle⟩ := hload (Engine.holding JsonText.greetings)
    { bundlesDir := "/srv/b" } JsonText.greetings "en.json" (⟨(), []⟩ : World Unit) rfl (by decide)
    (by simp [JsonText.greetings]) (by decide +kernel) (by
      intro entry hentry hname _ hleads
      simp only [JsonText.greetings, List.mem_cons, List.not_mem_nil, or_false] at hentry
      rcases hentry with rfl | rfl
      · have hbehind : Engine.leads (JsonText.greetings.map Prod.fst) "en.yml" = false := by
          decide +kernel
        rw [hbehind] at hleads
        cases hleads
      · exact absurd rfl hname)
  exact ⟨e, w', hok, hbundle⟩

/-- A tab means nothing in JSON, but no token starts with one: the text has no tree. -/
theorem tree_not_json : (Document.text JsonText.tabbed.text).tree ≠ .ok JsonText.tabbed.tree := by
  intro h
  have hfault : (Document.text JsonText.tabbed.text).tree.toOption.isSome = false := by
    decide +kernel
  rw [h] at hfault
  cases hfault

end Phrasebook
