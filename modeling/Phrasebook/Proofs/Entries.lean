import Mathlib.Data.List.Induction
import Phrasebook.Value.Basic

/-!
# Entries in order

What is collected keeps each name in its first place and under it the last value:
`map_fst_collectEntries` says which names there are and in which order, `valueUnder?_collectEntries`
what lies under them. Entries that are told apart stay as they are, whether they lie under names
(`collectEntries_of_nodup`) or under keys (`collectBy_of_pairwise`); so a tree is what its parts
make (`ofParts_of_nodes`). It makes no difference whether entries are changed before they are
collected or after, if the same keys stay one key (`collectBy_map`).
-/

namespace Phrasebook

/-! ## Under names -/

section Names

variable {α : Type} {name : String} {l : List (String × α)}

theorem isSome_valueUnder?_iff : (valueUnder? name l).isSome = true ↔ name ∈ l.map Prod.fst := by
  induction l with
  | nil => simp [valueUnder?]
  | cons p rest ih =>
    obtain ⟨n, v⟩ := p
    rw [valueUnder?, List.map_cons, List.mem_cons]
    split
    · next h => simp [h]
    · next h => simp [ih, Ne.symm h]

theorem valueUnder?_eq_none_iff : valueUnder? name l = none ↔ name ∉ l.map Prod.fst := by
  rw [← isSome_valueUnder?_iff, Option.not_isSome_iff_eq_none]

theorem valueUnder?_append (name : String) (a b : List (String × α)) :
    valueUnder? name (a ++ b) = (valueUnder? name a).or (valueUnder? name b) := by
  induction a with
  | nil => rfl
  | cons e rest ih =>
    obtain ⟨n, v⟩ := e
    rw [List.cons_append, valueUnder?, valueUnder?]
    split
    · rfl
    · exact ih

theorem mem_of_valueUnder? {value : α} (h : valueUnder? name l = some value) :
    (name, value) ∈ l := by
  induction l with
  | nil => cases h
  | cons e rest ih =>
    obtain ⟨n, v⟩ := e
    rw [valueUnder?] at h
    split at h
    · next hn =>
      cases h
      rw [hn]
      exact List.mem_cons_self
    · exact List.mem_cons_of_mem _ (ih h)

/-- Where the names are distinct, every entry is found under its name. -/
theorem valueUnder?_of_mem {value : α} (hnodup : (l.map Prod.fst).Nodup)
    (h : (name, value) ∈ l) : valueUnder? name l = some value := by
  induction l with
  | nil => cases h
  | cons e rest ih =>
    rw [List.map_cons, List.nodup_cons] at hnodup
    rw [valueUnder?]
    rcases List.mem_cons.1 h with rfl | hrest
    · rw [if_pos rfl]
    · have hne : e.1 ≠ name := by
        rintro rfl
        exact hnodup.1 (List.mem_map.2 ⟨_, hrest, rfl⟩)
      rw [if_neg hne]
      exact ih hnodup.2 hrest

theorem putEntry_of_none {value : α} (h : valueUnder? name l = none) :
    putEntry name value l = l ++ [(name, value)] := by
  induction l with
  | nil => rfl
  | cons e rest ih =>
    obtain ⟨n, v⟩ := e
    rw [valueUnder?] at h
    split at h
    · cases h
    · next hne => rw [putEntry, if_neg hne, ih h, List.cons_append]

theorem collectEntries_append_singleton (entries : List (String × α)) (e : String × α) :
    collectEntries (entries ++ [e]) = putEntry e.1 e.2 (collectEntries entries) := by
  rw [collectEntries, List.foldl_append]
  rfl

/-- The names of collected entries are those of the entries, each where it came first. -/
theorem map_fst_collectEntries (entries : List (String × α)) :
    (collectEntries entries).map Prod.fst = (entries.map Prod.fst).eraseDups := by
  -- the induction takes the last entry off: it is the one that is put last
  induction entries using List.reverseRecOn with
  | nil => rfl
  | append_singleton entries e ih =>
    rw [collectEntries_append_singleton, map_fst_putEntry, ih, List.map_append,
      List.eraseDups_append]
    by_cases hmem : e.1 ∈ entries.map Prod.fst
    · rw [if_pos (List.mem_eraseDups.2 hmem)]
      simp [List.removeAll, hmem]
    · rw [if_neg (mt List.mem_eraseDups.1 hmem)]
      simp [List.removeAll, hmem, List.eraseDups_cons]

/-- Collecting entries leaves the last one of each name. -/
theorem valueUnder?_collectEntries (name : String) (entries : List (String × α)) :
    valueUnder? name (collectEntries entries)
      = (entries.reverse.find? fun e => e.1 == name).map Prod.snd := by
  induction entries using List.reverseRecOn with
  | nil => rfl
  | append_singleton entries e ih =>
    rw [collectEntries_append_singleton, valueUnder?_putEntry, List.reverse_append, ih]
    by_cases hname : e.1 = name
    · simp [hname]
    · simp [hname, Ne.symm hname]

theorem collectEntries_of_nodup {entries : List (String × α)}
    (h : (entries.map Prod.fst).Nodup) : collectEntries entries = entries := by
  induction entries using List.reverseRecOn with
  | nil => rfl
  | append_singleton entries e ih =>
    rw [List.map_append, List.nodup_append] at h
    have hfree : valueUnder? e.1 entries = none :=
      valueUnder?_eq_none_iff.2 fun hmem => h.2.2 _ hmem _ (List.mem_singleton_self _) rfl
    rw [collectEntries_append_singleton, ih h.1, putEntry_of_none hfree]

end Names

/-! ## Under segments -/

section Segments

variable {parts : List (String × Part)}

theorem map_fst_nodes (parts : List (String × Part)) :
    (Part.nodes parts).map Prod.fst = parts.map Prod.fst := by
  rw [Part.nodes, List.map_map]
  rfl

/-- Parts under distinct segments are the children of the tree that they make. -/
theorem children_ofParts (h : (parts.map Prod.fst).Nodup) :
    (Tree.ofParts parts).children = Part.nodes parts :=
  collectEntries_of_nodup (by rwa [map_fst_nodes])

/-- The parts of a tree make this tree. -/
theorem ofParts_of_nodes {t : Tree} (h : Part.nodes parts = t.children) :
    Tree.ofParts parts = t := by
  have hnodup : (parts.map Prod.fst).Nodup := by
    rw [← map_fst_nodes, h]
    exact t.wellKeyed.1
  exact Tree.ext ((children_ofParts hnodup).trans h)

end Segments

/-! ## Under keys -/

section Keys

variable {κ α : Type} {same : κ → κ → Bool}

theorem putBy_of_distinct {key : κ} {value : α} {l : List (κ × α)}
    (h : ∀ e ∈ l, same e.1 key = false) : putBy same key value l = l ++ [(key, value)] := by
  induction l with
  | nil => rfl
  | cons e rest ih =>
    obtain ⟨k, v⟩ := e
    have hne : ¬same k key = true := by
      rw [h (k, v) List.mem_cons_self]
      exact Bool.false_ne_true
    rw [putBy, if_neg hne, ih fun e he => h e (List.mem_cons_of_mem _ he), List.cons_append]

theorem collectBy_append_singleton (same : κ → κ → Bool) (entries : List (κ × α)) (e : κ × α) :
    collectBy same (entries ++ [e]) = putBy same e.1 e.2 (collectBy same entries) := by
  rw [collectBy, List.foldl_append]
  rfl

/-- Entries whose keys are told apart stay as they are. -/
theorem collectBy_of_pairwise {entries : List (κ × α)}
    (h : entries.Pairwise fun a b => same a.1 b.1 = false) : collectBy same entries = entries := by
  induction entries using List.reverseRecOn with
  | nil => rfl
  | append_singleton entries e ih =>
    rw [List.pairwise_append] at h
    rw [collectBy_append_singleton, ih h.1,
      putBy_of_distinct fun d hd => h.2.2 d hd e (List.mem_singleton_self e)]

end Keys

/-! ## Other keys and values -/

section Map

variable {κ κ' α β : Type} {same : κ → κ → Bool} {same' : κ' → κ' → Bool} {f : κ → κ'}

theorem putBy_map (hsame : ∀ a b, same' (f a) (f b) = same a b) (g : α → β) (key : κ) (value : α)
    (l : List (κ × α)) :
    putBy same' (f key) (g value) (l.map fun e => (f e.1, g e.2))
      = (putBy same key value l).map fun e => (f e.1, g e.2) := by
  induction l with
  | nil => rfl
  | cons e rest ih =>
    obtain ⟨k, v⟩ := e
    rw [List.map_cons, putBy, putBy, hsame]
    split
    · rfl
    · rw [ih]
      rfl

/-- Collecting does not look at the values, nor at anything of the keys but which are one key. -/
theorem collectBy_map (hsame : ∀ a b, same' (f a) (f b) = same a b) (g : α → β)
    (entries : List (κ × α)) :
    collectBy same' (entries.map fun e => (f e.1, g e.2))
      = (collectBy same entries).map fun e => (f e.1, g e.2) := by
  induction entries using List.reverseRecOn with
  | nil => rfl
  | append_singleton entries e ih =>
    rw [List.map_append, List.map_singleton, collectBy_append_singleton, ih,
      collectBy_append_singleton]
    exact putBy_map hsame g e.1 e.2 _

theorem putEntry_eq_putBy (name : String) (value : α) (l : List (String × α)) :
    putEntry name value l = putBy (fun a b => a == b) name value l := by
  induction l with
  | nil => rfl
  | cons e rest ih =>
    obtain ⟨n, v⟩ := e
    simp only [putEntry, putBy, beq_iff_eq, ih]

/-- Names are keys too. -/
theorem collectEntries_eq_collectBy (entries : List (String × α)) :
    collectEntries entries = collectBy (fun a b => a == b) entries := by
  induction entries using List.reverseRecOn with
  | nil => rfl
  | append_singleton entries e ih =>
    rw [collectEntries_append_singleton, collectBy_append_singleton, ih, putEntry_eq_putBy]

/-- Collecting parts before a tree is made of them makes no difference. -/
theorem ofParts_collectEntries (parts : List (String × Part)) :
    Tree.ofParts (collectEntries parts) = .ofParts parts := by
  refine ofParts_of_nodes ?_
  show Part.nodes (collectEntries parts) = collectEntries (Part.nodes parts)
  rw [Part.nodes, Part.nodes, collectEntries_eq_collectBy, collectEntries_eq_collectBy]
  exact (collectBy_map (f := id) (fun _ _ => rfl) Part.node parts).symm

end Map

end Phrasebook
