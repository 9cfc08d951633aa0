import Mathlib.Data.List.Sort
import Phrasebook.Proofs.Entries
import Phrasebook.Proofs.Escapes
import Phrasebook.Proofs.FileNames
import Phrasebook.Proofs.LocaleFallback

/-!
# Loading bundles

Loading goes through the bundles of a directory in the order of their names. The first file of a
locale is read, the others bring a warning and are not looked into. So all that matters is which
bundles there are and what is in the chosen ones (`load_congr`), and nothing about how the directory
lists them.

`Progress` is the invariant of the run: what the engine and the log hold after a number of files.
`addBundle_progress` is one step, `foldlM_progress` the run.
-/

namespace Phrasebook

variable {σ : Type}

namespace Engine

/-! ## Files in order -/

section Candidates

variable {entries : List (String × FileTree)}

theorem mem_candidates_iff {entry : String × FileTree} :
    entry ∈ candidates entries ↔ entry ∈ entries ∧ isBundle entry.1 = true := by
  rw [candidates, List.mem_mergeSort, List.mem_filter]
  rfl

/-- What is sorted by distinct names is strictly in their order. -/
theorem pairwise_mergeSort_of_nodup {α : Type} (name : α → String) {l : List α}
    (h : (l.map name).Nodup) :
    (l.mergeSort fun a b => decide (name a ≤ name b)).Pairwise fun a b => name a < name b := by
  have hsorted : (l.mergeSort fun a b => decide (name a ≤ name b)).Pairwise
      fun a b => name a ≤ name b := by
    refine List.Pairwise.imp (fun h => of_decide_eq_true h) (List.pairwise_mergeSort ?_ ?_ _)
    · intro a b c hab hbc
      exact decide_eq_true (String.le_trans (of_decide_eq_true hab) (of_decide_eq_true hbc))
    · intro a b
      simpa using String.le_total (name a) (name b)
  have hdistinct : (l.mergeSort fun a b => decide (name a ≤ name b)).Pairwise
      fun a b => name a ≠ name b :=
    List.pairwise_map.1 (List.Perm.nodup ((List.mergeSort_perm _ _).symm.map name) h)
  exact (hsorted.and hdistinct).imp fun ⟨hle, hne⟩ =>
    String.not_le.1 fun hge => hne (String.le_antisymm hle hge)

/-- Bundles are visited in the order of their names, which are distinct. -/
theorem pairwise_candidates (h : (entries.map Prod.fst).Nodup) :
    (candidates entries).Pairwise fun a b => a.1 < b.1 :=
  pairwise_mergeSort_of_nodup Prod.fst (h.sublist ((List.filter_sublist).map Prod.fst))

/-- Rows of entries in the order of their names are the same if they have the same members. -/
theorem eq_of_pairwise_of_mem_iff {a b : List (String × FileTree)}
    (ha : a.Pairwise fun x y => x.1 < y.1) (hb : b.Pairwise fun x y => x.1 < y.1)
    (h : ∀ entry, entry ∈ a ↔ entry ∈ b) : a = b := by
  have : Std.Antisymm fun x y : String × FileTree => x.1 < y.1 :=
    ⟨fun _ _ hxy hyx => absurd hyx (String.lt_asymm hxy)⟩
  have : Std.Irrefl fun x y : String × FileTree => x.1 < y.1 := ⟨fun _ => String.lt_irrefl _⟩
  exact ha.eq_of_mem_iff hb h

/-- An entry is passed over exactly when one of its locale comes before it. -/
theorem leads_eq_false_iff (hnodup : (entries.map Prod.fst).Nodup)
    {done rest : List (String × FileTree)} {entry : String × FileTree}
    (h : candidates entries = done ++ entry :: rest) :
    leads (entries.map Prod.fst) entry.1 = false ↔
      ∃ before ∈ done, localeOf before.1 = localeOf entry.1 := by
  have hsorted := pairwise_candidates hnodup
  rw [h, List.pairwise_append] at hsorted
  obtain ⟨-, hrest, hdone⟩ := hsorted
  have hmem : entry ∈ candidates entries := by
    rw [h]
    exact List.mem_append_right _ List.mem_cons_self
  obtain ⟨hentry, hb⟩ := mem_candidates_iff.1 hmem
  have hname : entry.1 ∈ entries.map Prod.fst := List.mem_map_of_mem hentry
  rw [← Bool.not_eq_true, leads_iff hb hname]
  constructor
  · intro hnot
    refine Classical.byContradiction fun hnone => hnot fun other hother hbo hlo => ?_
    obtain ⟨e, he, rfl⟩ := List.mem_map.1 hother
    have hin : e ∈ done ++ entry :: rest := h ▸ mem_candidates_iff.2 ⟨he, hbo⟩
    rcases List.mem_append.1 hin with hin | hin
    · exact absurd ⟨e, hin, hlo⟩ hnone
    · rcases List.mem_cons.1 hin with rfl | hin
      · exact String.le_refl _
      · exact String.not_lt.1 (String.lt_asymm ((List.pairwise_cons.1 hrest).1 e hin))
  · rintro ⟨before, hbefore, hlocale⟩ hleast
    have hcand : before ∈ candidates entries := by
      rw [h]
      exact List.mem_append_left _ hbefore
    obtain ⟨he, hbb⟩ := mem_candidates_iff.1 hcand
    exact absurd (hdone before hbefore entry List.mem_cons_self)
      (String.not_lt.2 (hleast before.1 (List.mem_map_of_mem he) hbb hlocale))

end Candidates

/-! ## One file -/

/-- The warning that a file is not looked into. -/
def duplicateRecord (directory : Path) (name : String) : Record :=
  ⟨.warning, .engine, "Ignoring duplicate bundle " ++ (directory.child name).text ++ " for locale "
    ++ Text.quote (localeOf name)⟩

/-- The record that a file is read. -/
def loadedRecord (directory : Path) (name : String) (tree : Tree) : Record :=
  ⟨.info, .engine, "Loaded " ++ toString tree.size ++ " top-level keys for locale "
    ++ Text.quote (localeOf name) ++ " from " ++ (directory.child name).text⟩

theorem readTree_eq_ok {path : Path} {file : FileTree} {tree : Tree} {w w' : World σ}
    (h : readTree path file w = .ok tree w') :
    ∃ content, file = .file content ∧ (Document.bytes content).tree = .ok tree ∧ w' = w := by
  cases file with
  | directory => cases h
  | file content =>
    refine ⟨content, rfl, ?_⟩
    rcases readTree_outcome path content w with ⟨t, ht, hread⟩ | ⟨detail, hread⟩ | ⟨m, hread, -⟩
    · rw [hread] at h
      cases h
      exact ⟨ht, rfl⟩
    · rw [hread] at h
      cases h
    · rw [hread] at h
      cases h

section Step

variable {directory : Path} {e e' : Engine} {entry : String × FileTree} {w w' : World σ}

/-- A file whose locale is taken is not looked into. -/
theorem addBundle_of_taken (h : (valueUnder? (localeOf entry.1) e.bundles).isSome = true) :
    addBundle directory e entry w
      = .ok e { w with log := w.log ++ [duplicateRecord directory entry.1] } := by
  unfold localeOf at h
  simp only [addBundle, h, if_true]
  rfl

theorem isSome_eq_false_of_free (h : valueUnder? (localeOf entry.1) e.bundles = none) :
    (valueUnder? (splitName entry.1).1 e.bundles).isSome = false :=
  Option.isSome_eq_false_iff.2 (Option.isNone_iff_eq_none.2 h)

/-- The tree of a locale that is free comes behind those of the others. -/
theorem bundles_put_of_free {locale : String} (h : valueUnder? locale e.bundles = none)
    (tree : Tree) :
    (e.put locale tree).bundles = e.bundles ++ [(locale, ⟨tree, e.settings.separator⟩)] :=
  putEntry_of_none h

/-- A file whose locale is free is read, and its tree is that of the locale. -/
theorem addBundle_of_free (h : valueUnder? (localeOf entry.1) e.bundles = none)
    (hok : addBundle directory e entry w = .ok e' w') :
    ∃ content tree, entry.2 = .file content ∧ (Document.bytes content).tree = .ok tree ∧
      e' = e.put (localeOf entry.1) tree ∧
      w' = { w with log := w.log ++ [loadedRecord directory entry.1 tree] } := by
  simp only [addBundle, isSome_eq_false_of_free h, Bool.false_eq_true, if_false] at hok
  obtain ⟨tree, w₁, hread, hrest⟩ := bind_eq_ok hok
  obtain ⟨content, hfile, htree, rfl⟩ := readTree_eq_ok hread
  obtain ⟨_, w₂, hlog, hreturn⟩ := bind_eq_ok hrest
  cases hlog
  cases hreturn
  exact ⟨content, tree, hfile, htree, rfl, rfl⟩

/-- An entry is a file that holds the document of a tree. -/
def Readable (entry : String × FileTree) : Prop :=
  ∃ content tree, entry.2 = .file content ∧ (Document.bytes content).tree = .ok tree

theorem readTree_of_tree {path : Path} {content : List UInt8} {tree : Tree}
    (h : (Document.bytes content).tree = .ok tree) :
    readTree path (.file content) w = .ok tree w := by
  have hread : (ofResult (Document.bytes content).tree : Action σ Tree) w = .ok tree w := by
    rw [h]
    rfl
  rw [readTree, handling_ok hread]

theorem exists_addBundle_of_readable (h : Readable entry) :
    ∃ e' w', addBundle directory e entry w = .ok e' w' := by
  obtain ⟨content, tree, hfile, htree⟩ := h
  cases hlocale : (valueUnder? (localeOf entry.1) e.bundles).isSome with
  | true => exact ⟨_, _, addBundle_of_taken hlocale⟩
  | false =>
    unfold localeOf at hlocale
    simp only [addBundle, hlocale, Bool.false_eq_true, if_false, hfile]
    rw [bind_of_ok (readTree_of_tree htree)]
    exact ⟨_, _, rfl⟩

end Step

/-! ## All files -/

/--
How far loading has got after the files `done`.

* `trees`: the bundle of a file that leads its locale is what the file holds
* `taken`: every locale of a file so far is taken
* `warnings`: each of the other files brought a warning, and nothing else did
-/
structure Progress (names : List String) (directory : Path) (settings : Settings) (start : World σ)
    (done : List (String × FileTree)) (e : Engine) (w : World σ) : Prop where
  settings_eq : e.settings = settings
  trees : ∀ entry ∈ done, leads names entry.1 = true → ∃ content tree,
    entry.2 = .file content ∧ (Document.bytes content).tree = .ok tree ∧
    valueUnder? (localeOf entry.1) e.bundles = some ⟨tree, settings.separator⟩
  taken : ∀ locale, (valueUnder? locale e.bundles).isSome = true ↔
    ∃ entry ∈ done, localeOf entry.1 = locale
  warnings : w.warnings = start.warnings
    ++ (done.filter fun entry => !leads names entry.1).map fun entry =>
      duplicateRecord directory entry.1

section Run

variable {entries done rest : List (String × FileTree)} {entry : String × FileTree}
  {directory : Path} {settings : Settings} {start w w' : World σ} {e e' : Engine}

theorem progress_nil :
    Progress (entries.map Prod.fst) directory settings w [] (bare settings) w where
  settings_eq := rfl
  trees := fun _ h => absurd h List.not_mem_nil
  taken := by simp [valueUnder?]
  warnings := (List.append_nil _).symm

/-- The locale of a file that does not lead it is taken when it is the file's turn. -/
theorem Progress.isSome_of_not_leads
    (hp : Progress (entries.map Prod.fst) directory settings start done e w)
    (hnodup : (entries.map Prod.fst).Nodup) (hc : candidates entries = done ++ entry :: rest)
    (hl : leads (entries.map Prod.fst) entry.1 = false) :
    (valueUnder? (localeOf entry.1) e.bundles).isSome = true :=
  (hp.taken _).2 ((leads_eq_false_iff hnodup hc).1 hl)

/-- The locale of a file that leads it is free when it is the file's turn. -/
theorem Progress.eq_none_of_leads
    (hp : Progress (entries.map Prod.fst) directory settings start done e w)
    (hnodup : (entries.map Prod.fst).Nodup) (hc : candidates entries = done ++ entry :: rest)
    (hl : leads (entries.map Prod.fst) entry.1 = true) :
    valueUnder? (localeOf entry.1) e.bundles = none := by
  refine Option.not_isSome_iff_eq_none.1 fun hsome => ?_
  rw [(leads_eq_false_iff hnodup hc).2 ((hp.taken _).1 hsome)] at hl
  cases hl

theorem warnings_append (w : World σ) (r : Record) :
    World.warnings { w with log := w.log ++ [r] }
      = w.warnings ++ if r.level == .warning then [r] else [] := by
  cases h : r.level == .warning with
  | false => simp [World.warnings, List.filter_append, h]
  | true => simp [World.warnings, List.filter_append, h]

theorem exists_mem_append_singleton {α : Type} {p : α → Prop} {l : List α} {a : α} :
    (∃ b ∈ l ++ [a], p b) ↔ (∃ b ∈ l, p b) ∨ p a := by
  simp only [List.mem_append, List.mem_singleton, or_and_right, exists_or, exists_eq_left]

/-- A file that is passed over brings a warning. -/
theorem Progress.passOver
    (hp : Progress (entries.map Prod.fst) directory settings start done e w)
    (hl : leads (entries.map Prod.fst) entry.1 = false)
    (htaken : (valueUnder? (localeOf entry.1) e.bundles).isSome = true) :
    Progress (entries.map Prod.fst) directory settings start (done ++ [entry]) e
      { w with log := w.log ++ [duplicateRecord directory entry.1] } where
  settings_eq := hp.settings_eq
  trees := by
    intro other hother hlead
    rcases List.mem_append.1 hother with hother | hother
    · exact hp.trees other hother hlead
    · rw [List.mem_singleton.1 hother, hl] at hlead
      cases hlead
  taken := by
    intro locale
    rw [hp.taken locale, exists_mem_append_singleton]
    refine (or_iff_left_of_imp ?_).symm
    rintro rfl
    exact (hp.taken _).1 htaken
  warnings := by
    rw [warnings_append, hp.warnings]
    simp [List.filter_append, hl, duplicateRecord]

/-- A file that is read brings a bundle. -/
theorem Progress.read
    (hp : Progress (entries.map Prod.fst) directory settings start done e w)
    (hl : leads (entries.map Prod.fst) entry.1 = true)
    (hfree : valueUnder? (localeOf entry.1) e.bundles = none) {content : List UInt8} {tree : Tree}
    (hfile : entry.2 = .file content) (htree : (Document.bytes content).tree = .ok tree) :
    Progress (entries.map Prod.fst) directory settings start (done ++ [entry])
      (e.put (localeOf entry.1) tree)
      { w with log := w.log ++ [loadedRecord directory entry.1 tree] } where
  settings_eq := hp.settings_eq
  trees := by
    intro other hother hlead
    rcases List.mem_append.1 hother with hother | hother
    · obtain ⟨content', tree', hfile', htree', hvalue⟩ := hp.trees other hother hlead
      refine ⟨content', tree', hfile', htree', ?_⟩
      rw [bundles_put_of_free hfree, valueUnder?_append, hvalue]
      rfl
    · rw [List.mem_singleton.1 hother]
      refine ⟨content, tree, hfile, htree, ?_⟩
      rw [bundles_put_of_free hfree, valueUnder?_append, hfree, hp.settings_eq]
      simp [valueUnder?]
  taken := by
    intro locale
    rw [bundles_put_of_free hfree, valueUnder?_append, Option.isSome_or, Bool.or_eq_true,
      hp.taken locale, exists_mem_append_singleton]
    refine or_congr_right ?_
    simp [valueUnder?]
  warnings := by
    rw [warnings_append, hp.warnings]
    simp [List.filter_append, hl, loadedRecord]

/-- **One file.** -/
theorem addBundle_progress
    (hp : Progress (entries.map Prod.fst) directory settings start done e w)
    (hnodup : (entries.map Prod.fst).Nodup) (hc : candidates entries = done ++ entry :: rest)
    (hok : addBundle directory e entry w = .ok e' w') :
    Progress (entries.map Prod.fst) directory settings start (done ++ [entry]) e' w' := by
  cases hl : leads (entries.map Prod.fst) entry.1 with
  | false =>
    have htaken := hp.isSome_of_not_leads hnodup hc hl
    rw [addBundle_of_taken htaken] at hok
    cases hok
    exact hp.passOver hl htaken
  | true =>
    have hfree := hp.eq_none_of_leads hnodup hc hl
    obtain ⟨content, tree, hfile, htree, rfl, rfl⟩ := addBundle_of_free hfree hok
    exact hp.read hl hfree hfile htree

/-- **All files.** -/
theorem foldlM_progress (hnodup : (entries.map Prod.fst).Nodup)
    (hc : candidates entries = done ++ rest)
    (hp : Progress (entries.map Prod.fst) directory settings start done e w)
    (hok : rest.foldlM (addBundle directory) e w = .ok e' w') :
    Progress (entries.map Prod.fst) directory settings start (candidates entries) e' w' := by
  induction rest generalizing done e w with
  | nil =>
    cases hok
    rw [hc, List.append_nil]
    exact hp
  | cons entry rest ih =>
    rw [List.foldlM_cons] at hok
    obtain ⟨e₁, w₁, hstep, hrest⟩ := bind_eq_ok hok
    refine ih ?_ (addBundle_progress hp hnodup hc hstep) hrest
    rw [hc, List.append_assoc, List.singleton_append]

/-- Loading succeeds if the files that lead their locales can be read. -/
theorem exists_foldlM_of_readable (hnodup : (entries.map Prod.fst).Nodup)
    (hc : candidates entries = done ++ rest)
    (hp : Progress (entries.map Prod.fst) directory settings start done e w)
    (h : ∀ entry ∈ rest, leads (entries.map Prod.fst) entry.1 = true → Readable entry) :
    ∃ e' w', rest.foldlM (addBundle directory) e w = .ok e' w' := by
  induction rest generalizing done e w with
  | nil => exact ⟨e, w, rfl⟩
  | cons entry rest ih =>
    rw [List.forall_mem_cons] at h
    have hstep : ∃ e₁ w₁, addBundle directory e entry w = .ok e₁ w₁ := by
      cases hl : leads (entries.map Prod.fst) entry.1 with
      | false => exact ⟨_, _, addBundle_of_taken (hp.isSome_of_not_leads hnodup hc hl)⟩
      | true => exact exists_addBundle_of_readable (h.1 hl)
    obtain ⟨e₁, w₁, hadd⟩ := hstep
    rw [List.foldlM_cons, bind_of_ok hadd]
    refine ih ?_ (addBundle_progress hp hnodup hc hadd) h.2
    rw [hc, List.append_assoc, List.singleton_append]

/-! ## What is not read -/

/-- An entry as far as loading looks at it. -/
def veiled (names : List String) (entry : String × FileTree) : String × FileTree :=
  if leads names entry.1 then entry else (entry.1, .file [])

theorem fst_veiled (names : List String) (entry : String × FileTree) :
    (veiled names entry).1 = entry.1 := by
  rw [veiled]
  split <;> rfl

theorem addBundle_veiled
    (hp : Progress (entries.map Prod.fst) directory settings start done e w)
    (hnodup : (entries.map Prod.fst).Nodup) (hc : candidates entries = done ++ entry :: rest) :
    addBundle directory e (veiled (entries.map Prod.fst) entry) w
      = addBundle directory e entry w := by
  cases hl : leads (entries.map Prod.fst) entry.1 with
  | false =>
    have htaken := hp.isSome_of_not_leads hnodup hc hl
    rw [addBundle_of_taken htaken, addBundle_of_taken (by rw [fst_veiled]; exact htaken),
      fst_veiled]
  | true => rw [veiled, hl, if_pos rfl]

/-- **Loading looks into no other files than those that lead their locale.** -/
theorem foldlM_veiled (hnodup : (entries.map Prod.fst).Nodup)
    (hc : candidates entries = done ++ rest)
    (hp : Progress (entries.map Prod.fst) directory settings start done e w) :
    (rest.map (veiled (entries.map Prod.fst))).foldlM (addBundle directory) e w
      = rest.foldlM (addBundle directory) e w := by
  induction rest generalizing done e w with
  | nil => rfl
  | cons entry rest ih =>
    have hstep := addBundle_veiled hp hnodup hc
    rw [List.map_cons, List.foldlM_cons, List.foldlM_cons]
    cases hadd : addBundle directory e entry w with
    | error f w₁ => rw [bind_of_error hadd, bind_of_error (hstep.trans hadd)]
    | ok e₁ w₁ =>
      rw [bind_of_ok hadd, bind_of_ok (hstep.trans hadd)]
      refine ih ?_ (addBundle_progress hp hnodup hc hadd)
      rw [hc, List.append_assoc, List.singleton_append]

end Run

/-- What two directories have in common if the same is loaded from them.

* `names`: they have the same bundles
* `chosen`: and the same in those that locales are read from -/
structure SameBundles (a b : List (String × FileTree)) : Prop where
  names : ∀ name, isBundle name = true → (name ∈ a.map Prod.fst ↔ name ∈ b.map Prod.fst)
  chosen : ∀ entry : String × FileTree, isBundle entry.1 = true →
    leads (a.map Prod.fst) entry.1 = true → (entry ∈ a ↔ entry ∈ b)

namespace SameBundles

variable {a b : List (String × FileTree)} {name : String} {entry : String × FileTree}

theorem leads_eq (h : SameBundles a b) (hb : isBundle name = true) :
    leads (a.map Prod.fst) name = leads (b.map Prod.fst) name := by
  rw [leads, leads, chosenName?_congr (mem_namesOf_localeOf hb).2 h.names]

protected theorem symm (h : SameBundles a b) : SameBundles b a where
  names name hb := (h.names name hb).symm
  chosen entry hb hl := (h.chosen entry hb (by rwa [h.leads_eq hb])).symm

/-- Another order of the entries changes neither. -/
theorem of_perm (h : a.Perm b) : SameBundles a b where
  names _ _ := (h.map Prod.fst).mem_iff
  chosen _ _ _ := h.mem_iff

theorem mem_veiled (h : SameBundles a b)
    (hentry : entry ∈ (candidates a).map (veiled (a.map Prod.fst))) :
    entry ∈ (candidates b).map (veiled (b.map Prod.fst)) := by
  obtain ⟨x, hx, rfl⟩ := List.mem_map.1 hentry
  obtain ⟨hmem, hb⟩ := mem_candidates_iff.1 hx
  have hsame := h.leads_eq hb
  cases hl : leads (a.map Prod.fst) x.1 with
  | true =>
    have hcand : x ∈ candidates b := mem_candidates_iff.2 ⟨(h.chosen x hb hl).1 hmem, hb⟩
    refine List.mem_map.2 ⟨x, hcand, ?_⟩
    rw [veiled, veiled, ← hsame]
  | false =>
    -- the other directory has a file of that name, maybe with something else in it
    obtain ⟨y, hy, hname⟩ := List.mem_map.1 ((h.names x.1 hb).1 (List.mem_map_of_mem hmem))
    have hbundle : isBundle y.1 = true := by
      rw [hname]
      exact hb
    have hcand : y ∈ candidates b := mem_candidates_iff.2 ⟨hy, hbundle⟩
    refine List.mem_map.2 ⟨y, hcand, ?_⟩
    rw [veiled, veiled, hname, ← hsame, hl]
    rfl

/-- Loading meets the same in both. -/
theorem map_veiled_eq (h : SameBundles a b) (ha : (a.map Prod.fst).Nodup)
    (hb : (b.map Prod.fst).Nodup) : (candidates a).map (veiled (a.map Prod.fst))
      = (candidates b).map (veiled (b.map Prod.fst)) := by
  have hsorted : ∀ l : List (String × FileTree), (l.map Prod.fst).Nodup →
      ((candidates l).map (veiled (l.map Prod.fst))).Pairwise fun x y => x.1 < y.1 := by
    intro l hl
    simp only [List.pairwise_map, fst_veiled]
    exact pairwise_candidates hl
  exact eq_of_pairwise_of_mem_iff (hsorted a ha) (hsorted b hb) fun _ =>
    ⟨h.mem_veiled, h.symm.mem_veiled⟩

end SameBundles

/-! ## The outcome -/

section Outcome

variable {files files' : FileSystem} {settings : Settings}
  {entries entries' : List (String × FileTree)} {w w' : World σ} {e : Engine}

/-- Where the bundles of these settings are. -/
def directoryOf (settings : Settings) : Path := Path.ofString settings.bundlesDir

theorem load_of_find? (h : files.find? (directoryOf settings) = .ok (some (.directory entries))) :
    (load files settings : Action σ Engine)
      = (candidates entries).foldlM (addBundle (directoryOf settings)) (bare settings) := by
  rw [directoryOf] at h
  simp only [load, h]
  rfl

/-- **From the same bundles the same is loaded.** -/
theorem load_congr (h : files.find? (directoryOf settings) = .ok (some (.directory entries)))
    (h' : files'.find? (directoryOf settings) = .ok (some (.directory entries')))
    (hnodup : (entries.map Prod.fst).Nodup) (hnodup' : (entries'.map Prod.fst).Nodup)
    (hsame : SameBundles entries entries') : load files settings w = load files' settings w := by
  rw [load_of_find? h, load_of_find? h',
    ← foldlM_veiled hnodup (List.nil_append _).symm progress_nil,
    ← foldlM_veiled hnodup' (List.nil_append _).symm progress_nil,
    hsame.map_veiled_eq hnodup hnodup']

/--
What an engine holds that has loaded the bundles of a directory, and what it has put on record.

* `nodup` and `mem_locales`: its locales are the stems of the bundles, each once
* `bundle`: the tree of a locale is what its chosen file holds
* `warnings`: each of the other bundles brought one warning, and nothing else did
-/
structure Loaded (entries : List (String × FileTree)) (settings : Settings) (e : Engine)
    (w w' : World σ) : Prop where
  settings_eq : e.settings = settings
  nodup : e.locales.Nodup
  mem_locales : ∀ locale, locale ∈ e.locales ↔
    ∃ name ∈ entries.map Prod.fst, isBundle name = true ∧ localeOf name = locale
  bundle : ∀ locale ∈ e.locales, ∃ name content,
    chosenName? (entries.map Prod.fst) locale = some name ∧ (name, .file content) ∈ entries ∧
    (Document.bytes content).tree = .ok (e.bundle locale)
  warnings : ∃ ignored : List String, ignored.Nodup ∧
    (∀ name, name ∈ ignored ↔ name ∈ entries.map Prod.fst ∧ isBundle name = true ∧
      chosenName? (entries.map Prod.fst) (localeOf name) ≠ some name) ∧
    w'.warnings = w.warnings ++ ignored.map (duplicateRecord (directoryOf settings))

theorem mem_locales_iff {locale : String} :
    locale ∈ e.locales ↔ (valueUnder? locale e.bundles).isSome = true := by
  rw [isSome_valueUnder?_iff, locales, List.mem_mergeSort]

/-- A locale that is taken has a chosen file among those that were visited. -/
theorem exists_leading {locale : String}
    (h : ∃ entry ∈ candidates entries, localeOf entry.1 = locale) :
    ∃ entry ∈ candidates entries, localeOf entry.1 = locale ∧
      leads (entries.map Prod.fst) entry.1 = true := by
  obtain ⟨entry, hentry, rfl⟩ := h
  obtain ⟨hmem, hb⟩ := mem_candidates_iff.1 hentry
  obtain ⟨chosen, hchosen⟩ := exists_chosenName? hb (List.mem_map_of_mem hmem)
  obtain ⟨⟨hin, hbundle, hlocale⟩, -⟩ :=
    (chosenName?_eq_some_iff (mem_namesOf_localeOf hb).2).1 hchosen
  obtain ⟨other, hother, rfl⟩ := List.mem_map.1 hin
  refine ⟨other, mem_candidates_iff.2 ⟨hother, hbundle⟩, hlocale, ?_⟩
  rw [leads, hlocale, hchosen, beq_self_eq_true]

theorem Progress.loaded (hnodup : (entries.map Prod.fst).Nodup)
    (hp : Progress (entries.map Prod.fst) (directoryOf settings) settings w (candidates entries) e
      w') : Loaded entries settings e w w' where
  settings_eq := hp.settings_eq
  nodup := (List.mergeSort_perm _ _).nodup_iff.2 e.distinct
  mem_locales locale := by
    rw [mem_locales_iff, hp.taken locale]
    constructor
    · rintro ⟨entry, hentry, hlocale⟩
      obtain ⟨hmem, hb⟩ := mem_candidates_iff.1 hentry
      exact ⟨entry.1, List.mem_map_of_mem hmem, hb, hlocale⟩
    · rintro ⟨name, hname, hb, hlocale⟩
      obtain ⟨entry, hmem, rfl⟩ := List.mem_map.1 hname
      exact ⟨entry, mem_candidates_iff.2 ⟨hmem, hb⟩, hlocale⟩
  bundle locale hlocale := by
    obtain ⟨entry, hentry, rfl, hl⟩ :=
      exists_leading ((hp.taken locale).1 (mem_locales_iff.1 hlocale))
    obtain ⟨content, tree, hfile, htree, hvalue⟩ := hp.trees entry hentry hl
    refine ⟨entry.1, content, by simpa [leads] using hl, ?_, ?_⟩
    · rw [← hfile]
      exact (mem_candidates_iff.1 hentry).1
    · rw [htree, Engine.bundle, hvalue]
      rfl
  warnings := by
    refine ⟨((candidates entries).filter fun entry =>
      !leads (entries.map Prod.fst) entry.1).map Prod.fst, ?_, fun name => ?_, ?_⟩
    · refine List.pairwise_map.2 (((pairwise_candidates hnodup).filter _).imp fun hlt heq => ?_)
      rw [heq] at hlt
      exact String.lt_irrefl _ hlt
    · simp only [List.mem_map, List.mem_filter, mem_candidates_iff, leads, Bool.not_eq_true',
        beq_eq_false_iff_ne, ne_eq]
      constructor
      · rintro ⟨entry, ⟨⟨hmem, hb⟩, hl⟩, rfl⟩
        exact ⟨⟨entry, hmem, rfl⟩, hb, hl⟩
      · rintro ⟨⟨entry, hmem, rfl⟩, hb, hl⟩
        exact ⟨entry, ⟨⟨hmem, hb⟩, hl⟩, rfl⟩
    · rw [hp.warnings, List.map_map]
      rfl

/-- An engine that has loaded its bundles holds what the chosen file of a locale holds. -/
theorem Loaded.bundle_of_leads {name : String} {content : List UInt8}
    (h : Loaded entries settings e w w') (hnodup : (entries.map Prod.fst).Nodup)
    (hmem : (name, .file content) ∈ entries) (hb : isBundle name = true)
    (hl : leads (entries.map Prod.fst) name = true) :
    localeOf name ∈ e.locales ∧ (Document.bytes content).tree = .ok (e.bundle (localeOf name)) := by
  have hlocale : localeOf name ∈ e.locales :=
    (h.mem_locales _).2 ⟨name, List.mem_map_of_mem hmem, hb, rfl⟩
  obtain ⟨chosen, content', hchosen, hmem', htree⟩ := h.bundle _ hlocale
  rw [leads, hchosen, beq_iff_eq, Option.some.injEq] at hl
  subst hl
  have hsame := (valueUnder?_of_mem hnodup hmem).symm.trans (valueUnder?_of_mem hnodup hmem')
  cases hsame
  exact ⟨hlocale, htree⟩

/-- **Bundles load if the files that lead their locales can be read.** -/
theorem exists_load_of_readable
    (h : files.find? (directoryOf settings) = .ok (some (.directory entries)))
    (hnodup : (entries.map Prod.fst).Nodup)
    (hread : ∀ entry ∈ entries, isBundle entry.1 = true →
      leads (entries.map Prod.fst) entry.1 = true → Readable entry) :
    ∃ e w', load files settings w = .ok e w' ∧ Loaded entries settings e w w' := by
  rw [load_of_find? h]
  obtain ⟨e, w', hok⟩ := exists_foldlM_of_readable hnodup (List.nil_append _).symm
    (progress_nil (w := w)) fun entry hentry hl =>
      hread entry (mem_candidates_iff.1 hentry).1 (mem_candidates_iff.1 hentry).2 hl
  have hprogress := foldlM_progress hnodup (List.nil_append _).symm progress_nil hok
  exact ⟨e, w', hok, hprogress.loaded hnodup⟩

/--
**Which bundles an engine holds does not depend on how their directory lists them.** From the same
entries in another order the same is loaded or the same failure comes, with the same records; so it
is if files differ that are no bundles or that come behind another of their locale. What is loaded
is what the file of each locale with the best suffix holds. -/
theorem load_bundles (h : files.find? (directoryOf settings) = .ok (some (.directory entries)))
    (h' : files'.find? (directoryOf settings) = .ok (some (.directory entries')))
    (hnodup : (entries.map Prod.fst).Nodup) (hnodup' : (entries'.map Prod.fst).Nodup)
    (w : World σ) :
    (entries.Perm entries' → load files settings w = load files' settings w) ∧
    (SameBundles entries entries' → load files settings w = load files' settings w) ∧
    ∀ e w', load files settings w = .ok e w' → Loaded entries settings e w w' := by
  refine ⟨fun hperm => ?_, load_congr h h' hnodup hnodup', fun e w' hok => ?_⟩
  · exact load_congr h h' hnodup hnodup' (SameBundles.of_perm hperm)
  · rw [load_of_find? h] at hok
    exact (foldlM_progress hnodup (List.nil_append _).symm progress_nil hok).loaded hnodup

/-- A file system with a directory of these entries in the one in which the program works. -/
def holding (entries : List (String × FileTree)) : FileSystem :=
  .workingIn "srv" (.directory [("b", .directory entries)])

/-- A directory in which a broken file comes behind an empty one of its locale. -/
def brokenBehind : List (String × FileTree) :=
  [("en.yml", .file "[".toUTF8.toList), (".yml", .file []), ("en.json", .file [])]

/-- The same without the fault, and without the file that has a suffix for a name. -/
def mended : List (String × FileTree) := [("en.json", .file []), ("en.yml", .file [])]

theorem sameBundles_brokenBehind : SameBundles brokenBehind mended where
  names name hb := by
    have hne : name ≠ ".yml" := by
      rintro rfl
      revert hb
      decide +kernel
    simp [brokenBehind, mended, hne, or_comm]
  chosen entry hb hl := by
    have hsuffix : entry.1 ≠ ".yml" := by
      intro heq
      rw [heq] at hb
      revert hb
      decide +kernel
    have hbehind : entry.1 ≠ "en.yml" := by
      intro heq
      rw [heq] at hl
      revert hl
      decide +kernel
    simp [brokenBehind, mended, Prod.ext_iff, hsuffix, hbehind]

theorem candidates_brokenBehind :
    candidates brokenBehind = [("en.json", .file []), ("en.yml", .file "[".toUTF8.toList)] := by
  refine eq_of_pairwise_of_mem_iff (pairwise_candidates (by decide +kernel)) (by decide +kernel)
    fun entry => ?_
  rw [mem_candidates_iff]
  constructor
  · rintro ⟨hmem, hb⟩
    have hsuffix : entry ≠ (".yml", .file []) := by
      rintro rfl
      revert hb
      decide +kernel
    simpa [brokenBehind, hsuffix, or_comm] using hmem
  · simp only [List.mem_cons, List.not_mem_nil, or_false]
    rintro (rfl | rfl)
    · exact ⟨by simp [brokenBehind], by decide +kernel⟩
    · exact ⟨by simp [brokenBehind], by decide +kernel⟩

/-- The locales of the engine that was loaded, if one was, in the order of their files. -/
def loadedLocales? : EStateM.Result Failure (World σ) Engine → Option (List String)
  | .ok e _ => some (e.bundles.map Prod.fst)
  | .error _ _ => none

/-- The fault does not matter, be the bundles looked for from the top or from where the program
works, and the locale has the tree of the empty file. -/
theorem load_bundles_brokenBehind :
    load (holding brokenBehind) { bundlesDir := "/srv/b" } (⟨(), []⟩ : World Unit)
      = load (holding mended) { bundlesDir := "/srv/b" } ⟨(), []⟩ ∧
    load (holding brokenBehind) { bundlesDir := "../../srv/b" } (⟨(), []⟩ : World Unit)
      = load (holding mended) { bundlesDir := "../../srv/b" } ⟨(), []⟩ ∧
    ∃ e w', load (holding brokenBehind) { bundlesDir := "/srv/b" } (⟨(), []⟩ : World Unit)
        = .ok e w' ∧
      Loaded brokenBehind { bundlesDir := "/srv/b" } e ⟨(), []⟩ w' := by
  have h := fun bundlesDir hfind hfind' =>
    @load_bundles Unit (holding brokenBehind) (holding mended) { bundlesDir } brokenBehind mended
      hfind hfind' (by decide +kernel) (by decide +kernel) ⟨(), []⟩
  have hloads : loadedLocales? (load (holding brokenBehind) { bundlesDir := "/srv/b" }
      (⟨(), []⟩ : World Unit)) = some ["en"] := by
    rw [@load_of_find? Unit _ { bundlesDir := "/srv/b" } brokenBehind rfl, candidates_brokenBehind]
    decide +kernel
  refine ⟨(h "/srv/b" rfl rfl).2.1 sameBundles_brokenBehind,
    (h "../../srv/b" rfl rfl).2.1 sameBundles_brokenBehind, ?_⟩
  cases hload : load (holding brokenBehind) { bundlesDir := "/srv/b" } (⟨(), []⟩ : World Unit) with
  | ok e w' => exact ⟨e, w', rfl, (h "/srv/b" rfl rfl).2.2 e w' hload⟩
  | error f w' =>
    rw [hload] at hloads
    cases hloads

end Outcome

end Engine

end Phrasebook
