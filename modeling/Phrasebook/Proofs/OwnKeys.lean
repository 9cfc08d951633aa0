import Phrasebook.Proofs.Normalization

/-!
# Entries with keys of their own

Two entries of a mapping can get in each other's way twice: as keys, when the mapping is made, and
as segments, when the texts of the keys become the names of a branch. Neither implies the other: 1
and true are one key with two texts, 1 and the text "1" are two keys with one text.

Where the keys differ in both ways, every entry has a child of its own (`build_oneEach`). Different
texts alone do not bring that about (`build_not_oneEach`).
-/

namespace Phrasebook

variable {entries : List (Key × Value)}

/-- No two entries have the same key. -/
def KeysDiffer (entries : List (Key × Value)) : Prop :=
  entries.Pairwise fun a b => a.1.same b.1 = false

/-- All keys have texts, and no two have the same. -/
structure TextsDiffer (entries : List (Key × Value)) : Prop where
  isSome : ∀ e ∈ entries, e.1.text?.isSome = true
  nodup : (entries.map fun e => e.1.text?).Nodup

/-- Every entry has a child of its own: there are as many children as entries, and under the text of
each key lies what the value of that entry becomes. -/
structure OneEach (entries : List (Key × Value)) (children : List (String × Node)) : Prop where
  length_eq : children.length = entries.length
  child : ∀ e ∈ entries, ∃ name n, e.1.text? = some name ∧ Becomes e.2 n ∧
    valueUnder? name children = some n

/-- A mapping loses no entry when it is made of entries with different keys. -/
theorem ofEntries_of_keysDiffer (h : KeysDiffer entries) :
    Value.ofEntries entries = .map entries := by
  rw [Value.ofEntries, collectKeys, collectBy_of_pairwise h]

/-! ## Children of entries -/

theorem mem_normalizeEntries {es : List (String × Part)}
    (h : Value.normalizeEntries entries = .ok es) {e : Key × Value} (he : e ∈ entries) :
    ∃ name n, e.1.text? = some name ∧ Becomes e.2 n ∧ (name, n) ∈ Part.nodes es := by
  induction entries generalizing es with
  | nil => cases he
  | cons d rest ih =>
    obtain ⟨key, v⟩ := d
    obtain ⟨name, part, others, hname, hpart, hothers, rfl⟩ := normalizeEntries_cons_eq_ok h
    rcases List.mem_cons.1 he with rfl | hrest
    · exact ⟨name, part.node, hname, becomes_of_part hpart, List.mem_cons_self⟩
    · obtain ⟨name', n, hname', hn, hmem⟩ := ih hothers hrest
      exact ⟨name', n, hname', hn, List.mem_cons_of_mem _ hmem⟩

/-- Entries become children if all their keys have texts and all their values become nodes. -/
theorem exists_normalizeEntries (htexts : ∀ e ∈ entries, e.1.text?.isSome = true)
    (hvalues : ∀ e ∈ entries, ∃ n, Becomes e.2 n) :
    ∃ es, Value.normalizeEntries entries = .ok es := by
  induction entries with
  | nil => exact ⟨[], rfl⟩
  | cons e rest ih =>
    obtain ⟨key, v⟩ := e
    obtain ⟨name, hname⟩ := Option.isSome_iff_exists.1 (htexts _ List.mem_cons_self)
    obtain ⟨_, part, hnormal, -⟩ := hvalues _ List.mem_cons_self
    obtain ⟨others, hothers⟩ := ih (fun d hd => htexts d (List.mem_cons_of_mem _ hd))
      fun d hd => hvalues d (List.mem_cons_of_mem _ hd)
    have hsegment : key.segment = .ok name := segment_eq_ok_iff.2 hname
    refine ⟨(name, part) :: others, ?_⟩
    rw [Value.normalizeEntries, hsegment, hnormal, hothers]
    rfl

/-- Where the texts differ, collecting the children loses none. -/
theorem oneEach_of_normalizeEntries (htexts : TextsDiffer entries) {es : List (String × Part)}
    (h : Value.normalizeEntries entries = .ok es) :
    OneEach entries (Tree.ofParts es).children := by
  have hnames := names_normalizeEntries h
  have hnodup : (es.map Prod.fst).Nodup := by
    have hsome := htexts.nodup
    rw [← hnames] at hsome
    exact List.Pairwise.of_map some (fun _ _ hne heq => hne (congrArg some heq)) hsome
  rw [children_ofParts hnodup]
  constructor
  · have hlength := congrArg List.length hnames
    simpa [Part.nodes] using hlength
  · intro e he
    obtain ⟨name, n, hname, hn, hmem⟩ := mem_normalizeEntries h he
    exact ⟨name, n, hname, hn, valueUnder?_of_mem (by rwa [map_fst_nodes]) hmem⟩

/-! ## Mappings -/

/--
**A mapping whose keys differ, as keys and in their texts, has one child per entry.** This goes for
the root and for a mapping inside a document; and there is a tree if every value becomes a node.
-/
theorem build_oneEach (hkeys : KeysDiffer entries) (htexts : TextsDiffer entries) :
    (∀ t, Tree.build (.ofEntries entries) = .ok t → OneEach entries t.children) ∧
    (∀ n, Becomes (.ofEntries entries) n →
      ∃ children, n = .branch children ∧ OneEach entries children) ∧
    ((∀ e ∈ entries, ∃ n, Becomes e.2 n) → ∃ t, Tree.build (.ofEntries entries) = .ok t) := by
  rw [ofEntries_of_keysDiffer hkeys]
  refine ⟨fun t ht => ?_, fun n hn => ?_, fun hvalues => ?_⟩
  · obtain ⟨es, hes, rfl⟩ := result_map_eq_ok ht
    exact oneEach_of_normalizeEntries htexts hes
  · obtain ⟨es, hes, rfl⟩ := becomes_map hn
    exact ⟨_, rfl, oneEach_of_normalizeEntries htexts hes⟩
  · obtain ⟨es, hes⟩ := exists_normalizeEntries htexts.isSome hvalues
    refine ⟨.ofParts es, ?_⟩
    rw [Tree.build, hes]
    rfl

/-- Keys of four types, one of them above a mapping. -/
def assorted : List (Key × Value) :=
  [(.scalar (.int 2), .ofString "two"), (.scalar (.bool true), .list [.scalar .null]),
    (.scalar .null, .map [(.scalar (.int 2), .ofString "inner")]),
    (.ofString "x", .scalar (.int 7))]

theorem build_oneEach_assorted :
    KeysDiffer assorted ∧ TextsDiffer assorted ∧
    ∃ t, Tree.build (.ofEntries assorted) = .ok t ∧ OneEach assorted t.children := by
  have hkeys : KeysDiffer assorted := by
    unfold KeysDiffer
    decide
  have htexts : TextsDiffer assorted := ⟨by decide, by decide⟩
  have h := build_oneEach hkeys htexts
  obtain ⟨t, ht⟩ := h.2.2 (by
    intro e he
    simp only [assorted, List.mem_cons, List.not_mem_nil, or_false] at he
    rcases he with rfl | rfl | rfl | rfl <;> exact ⟨_, _, rfl, rfl⟩)
  exact ⟨hkeys, htexts, t, ht, h.1 t ht⟩

/-- Two entries whose keys are one key and have two texts. -/
def merged : List (Key × Value) :=
  [(.scalar (.int 1), .ofString "a"), (.scalar (.bool true), .ofString "b")]

/-- Of entries whose texts differ, one may be lost all the same. -/
theorem build_not_oneEach : TextsDiffer merged ∧
    ∃ t, Tree.build (.ofEntries merged) = .ok t ∧ ¬OneEach merged t.children := by
  refine ⟨⟨by decide, by decide⟩, .mk [("1", .leaf "b")], by rfl, fun h => ?_⟩
  exact absurd h.length_eq (by decide)

end Phrasebook
