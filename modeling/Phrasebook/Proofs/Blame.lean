import Phrasebook.Proofs.Bundles

/-!
# Which bundle is blamed

Loading goes through the bundles of a directory in the order of their names, reads the first of each
locale and stops at the first of these that holds no tree. `FirstFailure` says which one this is,
without the loader: the row of bundles, cut at the place where loading stops. `load_blames` says
that this bundle is blamed, and that all depends on nothing but the row up to it. A bundle that is
broken so fails even if another one of its locale is sound, as long as it comes first, and fails
nothing if it comes later.

The induction is along the row, from its start: `Through` is what loading has done when it has got
through a row, and one more bundle is passed over, is read (`Through.concat`) or is blamed.
-/

namespace Phrasebook

variable {σ : Type}

/-- The records of the level on which files are told that were read. -/
def World.infos (w : World σ) : List Record := w.log.filter fun r => r.level == .info

namespace Engine

/-! ## What an entry holds -/

/-- The tree that an entry of a directory holds, or why it holds none. -/
def treeOf : FileTree → Except Fault Tree
  | .directory _ => .error (.mishap .isDirectory)
  | .file content => (Document.bytes content).tree

/-- The failure to read what is at a path, by why it holds no tree. A document fault is told with
the path and arises from the fault without it, and any other is told as it is. -/
def blame (path : Path) : Fault → Failure
  | .document detail => ⟨.document (path.text ++ ": " ++ detail), [.document detail]⟩
  | fault => ⟨fault, []⟩

theorem readable_iff {entry : String × FileTree} :
    Readable entry ↔ ∃ tree, treeOf entry.2 = .ok tree := by
  obtain ⟨name, file⟩ := entry
  constructor
  · rintro ⟨content, tree, rfl, htree⟩
    exact ⟨tree, htree⟩
  · rintro ⟨tree, htree⟩
    cases file with
    | directory entries => cases htree
    | file content => exact ⟨content, tree, rfl, htree⟩

/-- Why an entry of a directory holds no tree, if it holds none. -/
def faultOf? (file : FileTree) : Option Fault :=
  match treeOf file with
  | .ok _ => none
  | .error fault => some fault

theorem treeOf_eq_error_iff {file : FileTree} {fault : Fault} :
    treeOf file = .error fault ↔ faultOf? file = some fault := by
  unfold faultOf?
  cases treeOf file with
  | ok tree => simp
  | error other => simp

theorem readable_of_faultOf? {entry : String × FileTree} (h : faultOf? entry.2 = none) :
    Readable entry := by
  cases htree : treeOf entry.2 with
  | ok tree => exact readable_iff.2 ⟨tree, htree⟩
  | error fault =>
    rw [treeOf_eq_error_iff.1 htree] at h
    cases h

theorem readTree_of_ok {path : Path} {file : FileTree} {tree : Tree} (h : treeOf file = .ok tree)
    (w : World σ) : readTree path file w = .ok tree w := by
  cases file with
  | directory entries => cases h
  | file content => exact readTree_of_tree h

/-- What holds no tree is blamed. -/
theorem readTree_of_error {path : Path} {file : FileTree} {fault : Fault}
    (h : treeOf file = .error fault) (w : World σ) :
    readTree path file w = .error (blame path fault) w := by
  cases file with
  | directory entries =>
    cases h
    rfl
  | file content =>
    have hread : (ofResult (Document.bytes content).tree : Action σ Tree) w
        = .error ⟨fault, []⟩ w := by
      have htree : (Document.bytes content).tree = .error fault := h
      rw [htree]
      rfl
    rw [readTree, handling_error hread]
    cases fault <;> rfl

/-! ## What is read -/

section Firsts

variable {row : List (String × FileTree)} {entry : String × FileTree}

/-- The entries of a row that come before all others of their locale. -/
def firsts : List (String × FileTree) → List (String × FileTree)
  | [] => []
  | entry :: rest =>
    entry :: (firsts rest).filter fun other => localeOf other.1 != localeOf entry.1

theorem new_or_old (row : List (String × FileTree)) (entry : String × FileTree) :
    (∀ earlier ∈ row, localeOf earlier.1 ≠ localeOf entry.1) ∨
      ∃ earlier ∈ row, localeOf earlier.1 = localeOf entry.1 := by
  by_cases hold : ∃ earlier ∈ row, localeOf earlier.1 = localeOf entry.1
  · exact Or.inr hold
  · left
    intro earlier hmem hlocale
    exact hold ⟨earlier, hmem, hlocale⟩

theorem firsts_concat_of_new (h : ∀ earlier ∈ row, localeOf earlier.1 ≠ localeOf entry.1) :
    firsts (row ++ [entry]) = firsts row ++ [entry] := by
  induction row with
  | nil => rfl
  | cons first rest ih =>
    have hfirst : (localeOf entry.1 != localeOf first.1) = true := by
      simpa using (h first List.mem_cons_self).symm
    have hrest := ih fun earlier he => h earlier (List.mem_cons_of_mem _ he)
    rw [List.cons_append, firsts, hrest, List.filter_append]
    simp [firsts, hfirst]

/-- Behind another of its locale, an entry is not the first. -/
theorem firsts_concat_of_old (h : ∃ earlier ∈ row, localeOf earlier.1 = localeOf entry.1) :
    firsts (row ++ [entry]) = firsts row := by
  induction row with
  | nil =>
    obtain ⟨earlier, hmem, -⟩ := h
    exact absurd hmem List.not_mem_nil
  | cons first rest ih =>
    rw [List.cons_append, firsts, firsts]
    rcases new_or_old rest entry with hnew | hold
    · -- the only other of the locale is the head, which drops the entry
      obtain ⟨earlier, hmem, hlocale⟩ := h
      rcases List.mem_cons.1 hmem with rfl | hmem
      · rw [firsts_concat_of_new hnew, List.filter_append]
        simp [hlocale]
      · exact absurd hlocale (hnew earlier hmem)
    · rw [ih hold]

end Firsts

/-! ## One entry -/

section Step

variable {directory : Path} {e : Engine} {entry : String × FileTree} {w : World σ}

theorem addBundle_of_tree (hfree : valueUnder? (localeOf entry.1) e.bundles = none) {tree : Tree}
    (h : treeOf entry.2 = .ok tree) : addBundle directory e entry w
      = .ok (e.put (localeOf entry.1) tree)
        { w with log := w.log ++ [loadedRecord directory entry.1 tree] } := by
  simp only [addBundle, isSome_eq_false_of_free hfree, Bool.false_eq_true, if_false]
  rw [bind_of_ok (readTree_of_ok h w)]
  rfl

/-- An entry that is read and holds no tree is blamed. -/
theorem addBundle_of_fault (hfree : valueUnder? (localeOf entry.1) e.bundles = none) {fault : Fault}
    (h : treeOf entry.2 = .error fault) :
    addBundle directory e entry w = .error (blame (directory.child entry.1) fault) w := by
  simp only [addBundle, isSome_eq_false_of_free hfree, Bool.false_eq_true, if_false]
  exact bind_of_error (readTree_of_error h w)

end Step

/-! ## A row of entries -/

/-- The record that an entry is read, if it holds a tree. -/
def loadedRecord? (directory : Path) (entry : String × FileTree) : Option Record :=
  match treeOf entry.2 with
  | .ok tree => some (loadedRecord directory entry.1 tree)
  | .error _ => none

/--
What loading has done when it has got through a row of entries.

* `taken`: the locales of the entries have their bundles
* `infos`: each entry that was read is on record, in order, and nothing else is on this level
-/
structure Through (directory : Path) (row : List (String × FileTree)) (e : Engine)
    (start w : World σ) : Prop where
  taken : ∀ locale, (valueUnder? locale e.bundles).isSome = true ↔
    ∃ entry ∈ row, localeOf entry.1 = locale
  infos : w.infos = start.infos ++ (firsts row).filterMap (loadedRecord? directory)

/--
Where loading stops in a row.

* `split`: the row, cut at an entry
* `new`: it is not passed over, as none of its locale comes before it
* `read`: of the entries before it, those that are read hold trees
* `fault`: it does not
-/
structure FirstFailure (row before : List (String × FileTree)) (entry : String × FileTree)
    (after : List (String × FileTree)) (fault : Fault) : Prop where
  split : row = before ++ entry :: after
  new : ∀ earlier ∈ before, localeOf earlier.1 ≠ localeOf entry.1
  read : ∀ earlier ∈ firsts before, Readable earlier
  fault : treeOf entry.2 = .error fault

section Run

variable {directory : Path} {settings : Settings} {e : Engine} {start w : World σ}
  {row before after : List (String × FileTree)} {entry : String × FileTree} {fault : Fault}

theorem Through.eq_none_of_new (h : Through directory row e start w)
    (hnew : ∀ earlier ∈ row, localeOf earlier.1 ≠ localeOf entry.1) :
    valueUnder? (localeOf entry.1) e.bundles = none := by
  refine Option.not_isSome_iff_eq_none.1 fun hsome => ?_
  obtain ⟨earlier, hmem, hlocale⟩ := (h.taken _).1 hsome
  exact hnew earlier hmem hlocale

/-- One more entry is passed over. -/
theorem Through.concat_of_old (h : Through directory row e start w)
    (hold : ∃ earlier ∈ row, localeOf earlier.1 = localeOf entry.1) :
    Through directory (row ++ [entry]) e start
      { w with log := w.log ++ [duplicateRecord directory entry.1] } where
  taken := by
    intro locale
    rw [h.taken locale, exists_mem_append_singleton]
    refine (or_iff_left_of_imp ?_).symm
    rintro rfl
    exact hold
  infos := by
    have hsame : World.infos { w with log := w.log ++ [duplicateRecord directory entry.1] }
        = w.infos := by
      simp [World.infos, duplicateRecord]
    rw [hsame, h.infos, firsts_concat_of_old hold]

/-- One more entry is read. -/
theorem Through.concat_of_new (h : Through directory row e start w)
    (hnew : ∀ earlier ∈ row, localeOf earlier.1 ≠ localeOf entry.1) {tree : Tree}
    (htree : treeOf entry.2 = .ok tree) :
    Through directory (row ++ [entry]) (e.put (localeOf entry.1) tree) start
      { w with log := w.log ++ [loadedRecord directory entry.1 tree] } where
  taken := by
    intro locale
    rw [bundles_put_of_free (h.eq_none_of_new hnew), valueUnder?_append, Option.isSome_or,
      Bool.or_eq_true, h.taken locale, exists_mem_append_singleton]
    refine or_congr_right ?_
    simp [valueUnder?]
  infos := by
    have hmore : World.infos { w with log := w.log ++ [loadedRecord directory entry.1 tree] }
        = w.infos ++ [loadedRecord directory entry.1 tree] := by
      simp [World.infos, loadedRecord]
    have hrecord : loadedRecord? directory entry = some (loadedRecord directory entry.1 tree) := by
      simp only [loadedRecord?, htree]
    rw [hmore, h.infos, firsts_concat_of_new hnew, List.filterMap_append, List.append_assoc]
    simp [hrecord]

/-- Loading a row and one more entry, if it gets through the row. -/
theorem foldlM_concat {e₀ : Engine}
    (h : row.foldlM (addBundle directory) e₀ start = .ok e w) (entry : String × FileTree)
    (after : List (String × FileTree)) :
    (row ++ entry :: after).foldlM (addBundle directory) e₀ start
      = (addBundle directory e entry >>= fun e => after.foldlM (addBundle directory) e) w := by
  rw [List.foldlM_append, bind_of_ok h, List.foldlM_cons]

/-- **Loading gets through a row if all entries that are read hold trees.** -/
theorem exists_through (directory : Path) (settings : Settings) (start : World σ)
    (hread : ∀ entry ∈ firsts row, Readable entry) :
    ∃ e w, row.foldlM (addBundle directory) (bare settings) start = .ok e w ∧
      Through directory row e start w := by
  induction row using List.reverseRecOn with
  | nil =>
    refine ⟨_, start, rfl, ?_, ?_⟩
    · simp [valueUnder?]
    · exact (List.append_nil _).symm
  | append_singleton row entry ih =>
    rcases new_or_old row entry with hnew | hold
    · rw [firsts_concat_of_new hnew] at hread
      obtain ⟨e, w, hok, hthrough⟩ :=
        ih fun earlier he => hread earlier (List.mem_append_left _ he)
      obtain ⟨tree, htree⟩ := readable_iff.1 (hread entry (by simp))
      refine ⟨_, _, ?_, hthrough.concat_of_new hnew htree⟩
      rw [foldlM_concat hok, bind_of_ok (addBundle_of_tree (hthrough.eq_none_of_new hnew) htree)]
      rfl
    · rw [firsts_concat_of_old hold] at hread
      obtain ⟨e, w, hok, hthrough⟩ := ih hread
      refine ⟨e, _, ?_, hthrough.concat_of_old hold⟩
      rw [foldlM_concat hok, bind_of_ok (addBundle_of_taken ((hthrough.taken _).2 hold))]
      rfl

/-- **Loading stops at the first failure**, whatever comes behind it. -/
theorem exists_foldlM_of_firstFailure (directory : Path) (settings : Settings) (start : World σ)
    (h : FirstFailure row before entry after fault) :
    ∃ w : World σ, w.infos = start.infos ++ (firsts before).filterMap (loadedRecord? directory) ∧
      ∀ after, (before ++ entry :: after).foldlM (addBundle directory) (bare settings) start
        = .error (blame (directory.child entry.1) fault) w := by
  obtain ⟨e, w, hok, hthrough⟩ := exists_through directory settings start h.read
  refine ⟨w, hthrough.infos, fun after => ?_⟩
  rw [foldlM_concat hok]
  exact bind_of_error (addBundle_of_fault (hthrough.eq_none_of_new h.new) h.fault)

/-- What stops a row stops every longer one. -/
theorem FirstFailure.append (h : FirstFailure row before entry after fault)
    (more : List (String × FileTree)) :
    FirstFailure (row ++ more) before entry (after ++ more) fault where
  split := by rw [h.split, List.append_assoc, List.cons_append]
  new := h.new
  read := h.read
  fault := h.fault

/-- **If not all entries that are read hold trees, there is a first failure.** -/
theorem exists_firstFailure (row : List (String × FileTree)) :
    (∀ entry ∈ firsts row, Readable entry) ∨
      ∃ before entry after fault, FirstFailure row before entry after fault := by
  induction row using List.reverseRecOn with
  | nil => exact Or.inl fun entry h => absurd h List.not_mem_nil
  | append_singleton row entry ih =>
    rcases ih with hread | ⟨before, first, after, fault, hfirst⟩
    · rcases new_or_old row entry with hnew | hold
      · cases htree : treeOf entry.2 with
        | ok tree =>
          left
          rw [firsts_concat_of_new hnew]
          intro other hother
          rcases List.mem_append.1 hother with hother | hother
          · exact hread other hother
          · rw [List.mem_singleton.1 hother]
            exact readable_iff.2 ⟨tree, htree⟩
        | error fault => exact Or.inr ⟨row, entry, [], fault, rfl, hnew, hread, htree⟩
      · rw [firsts_concat_of_old hold]
        exact Or.inl hread
    · exact Or.inr ⟨before, first, after ++ [entry], fault, hfirst.append [entry]⟩

end Run

/-! ## A directory -/

/-- The bundles of a directory in the order of their names. -/
structure InTurn (entries row : List (String × FileTree)) : Prop where
  sorted : row.Pairwise fun a b => a.1 < b.1
  mem_iff : ∀ entry, entry ∈ row ↔ entry ∈ entries ∧ isBundle entry.1 = true

theorem InTurn.candidates_eq {entries row : List (String × FileTree)} (h : InTurn entries row)
    (hnodup : (entries.map Prod.fst).Nodup) : candidates entries = row :=
  eq_of_pairwise_of_mem_iff (pairwise_candidates hnodup) h.sorted fun entry =>
    mem_candidates_iff.trans (h.mem_iff entry).symm

/--
**Which bundle is blamed.** Let a row be the bundles of a directory in the order of their names.

* If those that come first with their locale all hold trees, the bundles are loaded, and each of
  these is on record, in order.
* If not, there is a first failure.
* A first failure is blamed for its fault. The bundles that were read before it are on record, in
  order, and no other. What is in the directory else, behind it in the row or not in the row at all,
  changes nothing.
* Nothing else is ever blamed.
-/
theorem load_blames {files : FileSystem} {settings : Settings}
    {entries row : List (String × FileTree)}
    (h : files.find? (directoryOf settings) = .ok (some (.directory entries)))
    (hnodup : (entries.map Prod.fst).Nodup) (hrow : InTurn entries row) (w : World σ) :
    ((∀ entry ∈ firsts row, Readable entry) → ∃ e w', load files settings w = .ok e w' ∧
      w'.infos = w.infos ++ (firsts row).filterMap (loadedRecord? (directoryOf settings))) ∧
    ((∀ entry ∈ firsts row, Readable entry) ∨
      ∃ before entry after fault, FirstFailure row before entry after fault) ∧
    (∀ before entry after fault, FirstFailure row before entry after fault →
      ∃ w', load files settings w
          = .error (blame ((directoryOf settings).child entry.1) fault) w' ∧
        w'.infos = w.infos ++ (firsts before).filterMap (loadedRecord? (directoryOf settings)) ∧
        ∀ (files' : FileSystem) (entries' after' : List (String × FileTree)),
          files'.find? (directoryOf settings) = .ok (some (.directory entries')) →
          (entries'.map Prod.fst).Nodup → InTurn entries' (before ++ entry :: after') →
          load files' settings w = load files settings w) ∧
    ∀ f w', load files settings w = .error f w' → ∃ before entry after fault,
      FirstFailure row before entry after fault ∧
        f = blame ((directoryOf settings).child entry.1) fault := by
  have hload : load files settings w
      = row.foldlM (addBundle (directoryOf settings)) (bare settings) w := by
    rw [load_of_find? h, hrow.candidates_eq hnodup]
  rw [hload]
  refine ⟨?_, exists_firstFailure row, ?_, ?_⟩
  · intro hread
    obtain ⟨e, w', hok, hthrough⟩ := exists_through (directoryOf settings) settings w hread
    exact ⟨e, w', hok, hthrough.infos⟩
  · intro before entry after fault hfirst
    obtain ⟨w', hinfos, hstops⟩ :=
      exists_foldlM_of_firstFailure (directoryOf settings) settings w hfirst
    rw [hfirst.split, hstops after]
    refine ⟨w', rfl, hinfos, fun files' entries' after' h' hnodup' hrow' => ?_⟩
    rw [load_of_find? h', hrow'.candidates_eq hnodup']
    exact hstops after'
  · intro f w' hfails
    rcases exists_firstFailure row with hread | ⟨before, entry, after, fault, hfirst⟩
    · obtain ⟨e, w₁, hok, -⟩ := exists_through (directoryOf settings) settings w hread
      rw [hok] at hfails
      cases hfails
    · obtain ⟨w₁, -, hstops⟩ :=
        exists_foldlM_of_firstFailure (directoryOf settings) settings w hfirst
      rw [hfirst.split, hstops after] at hfails
      cases hfails
      exact ⟨before, entry, after, fault, hfirst, rfl⟩

/-- A file that is no document. -/
def brokenFile : FileTree := .file "[".toUTF8.toList

/-- Broken files in every place: behind a sound one of its locale, before a sound one of its locale,
at the end, and under a name that is no bundle's. -/
def brokenAhead : List (String × FileTree) :=
  [("z.yml", brokenFile), ("b.yml", .file []), ("b.json", brokenFile), (".yml", brokenFile),
    ("a.yml", brokenFile), ("a.yaml", .file [])]

/-- The bundles among them, in the order of their names. -/
def brokenInTurn : List (String × FileTree) :=
  [("a.yaml", .file []), ("a.yml", brokenFile), ("b.json", brokenFile), ("b.yml", .file []),
    ("z.yml", brokenFile)]

theorem inTurn_brokenAhead : InTurn brokenAhead brokenInTurn where
  sorted := by decide +kernel
  mem_iff entry := by
    constructor
    · intro h
      simp only [brokenInTurn, List.mem_cons, List.not_mem_nil, or_false] at h
      rcases h with rfl | rfl | rfl | rfl | rfl
      all_goals exact ⟨by simp [brokenAhead], by decide +kernel⟩
    · rintro ⟨h, hb⟩
      have hsuffix : entry ≠ (".yml", brokenFile) := by
        rintro rfl
        revert hb
        decide +kernel
      simp only [brokenAhead, List.mem_cons, List.not_mem_nil, or_false] at h
      rcases h with rfl | rfl | rfl | rfl | rfl | rfl <;> simp [brokenInTurn] at hsuffix ⊢

/-- The broken bundle before the sound one is blamed by its path from the top, and the sound one of
another locale is on record. -/
theorem load_blames_brokenAhead :
    ∃ w', load (holding brokenAhead) { bundlesDir := "/srv/b" } (⟨(), []⟩ : World Unit)
      = .error ⟨.document "/srv/b/b.json: <yaml>", [.document "<yaml>"]⟩ w' ∧
    w'.infos.map Record.message
      = ["Loaded 0 top-level keys for locale 'a' from /srv/b/a.yaml"] := by
  obtain ⟨-, -, hblames, -⟩ := @load_blames Unit (holding brokenAhead) { bundlesDir := "/srv/b" }
    brokenAhead brokenInTurn rfl (by decide +kernel) inTurn_brokenAhead ⟨(), []⟩
  have hfirst : FirstFailure brokenInTurn [("a.yaml", .file []), ("a.yml", brokenFile)]
      ("b.json", brokenFile) [("b.yml", .file []), ("z.yml", brokenFile)]
      (.document "<yaml>") := by
    refine ⟨rfl, by decide +kernel, ?_, treeOf_eq_error_iff.2 (by decide +kernel)⟩
    intro earlier hmem
    rcases List.mem_cons.1 hmem with rfl | hmem
    · exact readable_of_faultOf? (by decide +kernel)
    · obtain ⟨hmem, hlocale⟩ := List.mem_filter.1 hmem
      rcases List.mem_cons.1 hmem with rfl | hmem
      · exact absurd hlocale (by decide +kernel)
      · exact absurd hmem List.not_mem_nil
  have hblame : blame ((directoryOf { bundlesDir := "/srv/b" }).child "b.json")
      (.document "<yaml>")
      = ⟨.document "/srv/b/b.json: <yaml>", [.document "<yaml>"]⟩ := by decide +kernel
  obtain ⟨w', hload, hinfos, -⟩ := hblames _ _ _ _ hfirst
  refine ⟨w', hload.trans (by rw [hblame]), ?_⟩
  rw [hinfos]
  decide +kernel

end Engine

end Phrasebook
