import Phrasebook.Engine

/-!
# Names of bundles

A file is a bundle by the suffix of its name, and the rest of the name is its locale. A locale may
have up to three files. Which of them counts is nowhere chosen: files are read in the order of their
names, and the three names differ only in their suffixes, so the order of these decides
(`pairwise_namesOf`). `chosenName?` says it as a rule, and `leads_iff` that both agree.
-/

namespace Phrasebook

/-! ## Stems and suffixes -/

/-- The characters of a name after its last dot, or all if it has none. -/
def afterDot (name : String) : List Char :=
  (name.toList.reverse.takeWhile (· != '.')).reverse

/-- The characters of a name before the dot of its suffix. -/
def beforeDot (name : String) : List Char :=
  name.toList.take (name.toList.length - (afterDot name).length - 1)

theorem splitName_def (name : String) : splitName name
    = if decide ((afterDot name).length = name.toList.length) || (beforeDot name).isEmpty
        || (afterDot name).isEmpty then (name, "")
      else (String.ofList (beforeDot name), String.ofList ('.' :: afterDot name)) :=
  rfl

theorem beforeDot_eq {name : String} {before : List Char}
    (h : name.toList = before ++ '.' :: afterDot name) : beforeDot name = before := by
  have hlength := congrArg List.length h
  rw [List.length_append, List.length_cons] at hlength
  have hcount : name.toList.length - (afterDot name).length - 1 = before.length := by omega
  have htake : (before ++ '.' :: afterDot name).take before.length = before := List.take_left
  rw [beforeDot, hcount]
  rwa [← h] at htake

/-- A name that is not all after its last dot has the dot in front of that. -/
theorem toList_eq_of_length_ne {name : String}
    (h : (afterDot name).length ≠ name.toList.length) :
    name.toList = beforeDot name ++ '.' :: afterDot name := by
  have hparts := List.takeWhile_append_dropWhile (p := (· != '.')) (l := name.toList.reverse)
  cases hdrop : name.toList.reverse.dropWhile (· != '.') with
  | nil =>
    rw [hdrop, List.append_nil] at hparts
    refine absurd ?_ h
    rw [afterDot, List.length_reverse, hparts, List.length_reverse]
  | cons c rest =>
    have hc : c = '.' := by
      have hhead := List.head?_dropWhile_not (p := (· != '.')) (l := name.toList.reverse)
      rw [hdrop] at hhead
      simpa using hhead
    have hname : name.toList = rest.reverse ++ '.' :: afterDot name := by
      rw [← List.reverse_reverse name.toList, ← hparts, hdrop, hc, List.reverse_append,
        List.reverse_cons, List.append_assoc]
      rfl
    rwa [beforeDot_eq hname]

/-- A name with a suffix is its stem, which is not empty, and the suffix. -/
theorem eq_of_splitName {name stem suffix : String} (h : splitName name = (stem, suffix))
    (hsuffix : suffix ≠ "") : name = stem ++ suffix ∧ stem ≠ "" := by
  rw [splitName_def] at h
  split at h
  · cases h
    exact absurd rfl hsuffix
  · next hparts =>
    simp only [Bool.or_eq_true, decide_eq_true_eq, not_or] at hparts
    obtain ⟨⟨hlength, hbefore⟩, -⟩ := hparts
    cases h
    constructor
    · rw [← String.ofList_append, ← toList_eq_of_length_ne hlength, String.ofList_toList]
    · intro hempty
      refine hbefore ?_
      rw [List.isEmpty_iff, ← String.toList_ofList (l := beforeDot name), hempty]
      rfl

/-- A stem and a suffix are taken apart again. -/
theorem splitName_append {stem rest : String} (hstem : stem ≠ "") (hrest : rest ≠ "")
    (hdot : '.' ∉ rest.toList) : splitName (stem ++ ("." ++ rest)) = (stem, "." ++ rest) := by
  have hafter : afterDot (stem ++ ("." ++ rest)) = rest.toList := by
    have hreverse : (stem ++ ("." ++ rest)).toList.reverse
        = rest.toList.reverse ++ '.' :: stem.toList.reverse := by simp
    rw [afterDot, hreverse, Text.takeWhile_append_stop (fun c hc => ?_) (by decide),
      List.reverse_reverse]
    have hne : c ≠ '.' := by
      rintro rfl
      exact hdot (List.mem_reverse.1 hc)
    simpa using hne
  have hname : (stem ++ ("." ++ rest)).toList
      = stem.toList ++ '.' :: afterDot (stem ++ ("." ++ rest)) := by
    rw [hafter]
    simp
  have hlength : ¬rest.toList.length = (stem ++ ("." ++ rest)).toList.length := by
    simp only [String.toList_append, List.length_append]
    have : ".".toList.length = 1 := rfl
    omega
  have hstem' : stem.toList.isEmpty = false := by simpa using hstem
  have hrest' : rest.toList.isEmpty = false := by simpa using hrest
  rw [splitName_def, beforeDot_eq hname, hafter, hstem', hrest', decide_eq_false hlength]
  simp [String.ofList_cons]

namespace Engine

/-! ## Names of a locale -/

/-- The locale that the name of a file stands for. -/
def localeOf (name : String) : String := (splitName name).1

/-- Whether the name of a file is that of a bundle. -/
def isBundle (name : String) : Bool := suffixes.contains (splitName name).2

/-- The suffixes of bundles, the one that counts before the others first. -/
def priority : List String := [".json", ".yaml", ".yml"]

/-- The names that the bundle of a locale may have, in the order of priority. -/
def namesOf (locale : String) : List String := priority.map (locale ++ ·)

/-- The name of the file that a locale is read from. -/
def chosenName? (names : List String) (locale : String) : Option String :=
  (namesOf locale).find? (names.contains ·)

/-- Whether a name is the one that its locale is read from. -/
def leads (names : List String) (name : String) : Bool :=
  chosenName? names (localeOf name) == some name

theorem mem_priority_iff {suffix : String} : suffix ∈ priority ↔ suffix ∈ suffixes :=
  @List.mem_reverse _ suffix suffixes

theorem mem_namesOf_iff {name locale : String} :
    name ∈ namesOf locale ↔ ∃ suffix ∈ suffixes, name = locale ++ suffix := by
  simp only [namesOf, List.mem_map, mem_priority_iff, eq_comm (b := name)]

/-- Every bundle has one of the names of its locale, which is not empty. -/
theorem mem_namesOf_localeOf {name : String} (h : isBundle name = true) :
    name ∈ namesOf (localeOf name) ∧ localeOf name ≠ "" := by
  have hmem : (splitName name).2 ∈ suffixes := by simpa [isBundle] using h
  have hne : (splitName name).2 ≠ "" := by
    intro hempty
    rw [hempty] at hmem
    revert hmem
    decide
  obtain ⟨hname, hlocale⟩ := eq_of_splitName (Prod.eta (splitName name)).symm hne
  exact ⟨mem_namesOf_iff.2 ⟨_, hmem, hname⟩, hlocale⟩

theorem splitName_of_mem_suffixes {locale suffix : String} (hlocale : locale ≠ "")
    (h : suffix ∈ suffixes) : splitName (locale ++ suffix) = (locale, suffix) := by
  simp only [suffixes, List.mem_cons, List.not_mem_nil, or_false] at h
  rcases h with rfl | rfl | rfl
  · exact @splitName_append locale "yml" hlocale (by decide) (by decide)
  · exact @splitName_append locale "yaml" hlocale (by decide) (by decide)
  · exact @splitName_append locale "json" hlocale (by decide) (by decide)

/-- The names of a locale are bundles of that locale. -/
theorem isBundle_of_mem_namesOf {name locale : String} (hlocale : locale ≠ "")
    (h : name ∈ namesOf locale) : isBundle name = true ∧ localeOf name = locale := by
  obtain ⟨suffix, hsuffix, rfl⟩ := mem_namesOf_iff.1 h
  rw [isBundle, localeOf, splitName_of_mem_suffixes hlocale hsuffix]
  exact ⟨by simpa using hsuffix, rfl⟩

/-! ## Priority is order -/

/-- What the names of a locale have in common does not count for their order. -/
theorem append_lt_append {a b : String} (locale : String) (h : a < b) :
    locale ++ a < locale ++ b := by
  show (locale ++ a).toList < (locale ++ b).toList
  rw [String.toList_append, String.toList_append]
  exact List.append_left_lt h

/-- **The order of priority is the order of names.** -/
theorem pairwise_namesOf (locale : String) : (namesOf locale).Pairwise (· < ·) := by
  rw [namesOf, List.pairwise_map]
  refine List.Pairwise.imp (fun h => append_lt_append locale h) ?_
  decide

/-- What is found first in a row that grows is the least of what could be found. -/
theorem find?_eq_some_iff_of_pairwise {l : List String} (h : l.Pairwise (· < ·))
    {p : String → Bool} {a : String} :
    l.find? p = some a ↔ a ∈ l ∧ p a = true ∧ ∀ b ∈ l, p b = true → a ≤ b := by
  induction l with
  | nil => simp
  | cons x rest ih =>
    obtain ⟨hx, hrest⟩ := List.pairwise_cons.1 h
    cases hp : p x with
    | true =>
      rw [List.find?_cons_of_pos hp]
      constructor
      · rintro ⟨⟩
        refine ⟨List.mem_cons_self, hp, fun b hb _ => ?_⟩
        rcases List.mem_cons.1 hb with rfl | hb
        · exact String.le_refl _
        · exact String.not_lt.1 (String.lt_asymm (hx b hb))
      · rintro ⟨ha, -, hleast⟩
        rcases List.mem_cons.1 ha with rfl | ha
        · rfl
        · exact absurd (hx a ha) (String.not_lt.2 (hleast x List.mem_cons_self hp))
    | false =>
      rw [List.find?_cons_of_neg (by simp [hp]), ih hrest]
      constructor
      · rintro ⟨ha, hpa, hleast⟩
        refine ⟨List.mem_cons_of_mem x ha, hpa, fun b hb hpb => ?_⟩
        rcases List.mem_cons.1 hb with rfl | hb
        · rw [hp] at hpb
          cases hpb
        · exact hleast b hb hpb
      · rintro ⟨ha, hpa, hleast⟩
        refine ⟨?_, hpa, fun b hb => hleast b (List.mem_cons_of_mem x hb)⟩
        rcases List.mem_cons.1 ha with rfl | ha
        · rw [hp] at hpa
          cases hpa
        · exact ha

section Leads

variable {names : List String} {name locale : String}

/-- **The chosen name of a locale is its first name in the directory.** -/
theorem chosenName?_eq_some_iff (hlocale : locale ≠ "") :
    chosenName? names locale = some name ↔
      (name ∈ names ∧ isBundle name = true ∧ localeOf name = locale) ∧
        ∀ other ∈ names, isBundle other = true → localeOf other = locale → name ≤ other := by
  have hother : ∀ other, isBundle other = true → localeOf other = locale →
      other ∈ namesOf locale := by
    rintro other hb rfl
    exact (mem_namesOf_localeOf hb).1
  rw [chosenName?, find?_eq_some_iff_of_pairwise (pairwise_namesOf locale)]
  simp only [List.contains_iff_mem]
  constructor
  · rintro ⟨hname, hmem, hleast⟩
    exact ⟨⟨hmem, isBundle_of_mem_namesOf hlocale hname⟩,
      fun other ho hb hl => hleast other (hother other hb hl) ho⟩
  · rintro ⟨⟨hmem, hb, hl⟩, hleast⟩
    refine ⟨hother name hb hl, hmem, fun other ho hin => ?_⟩
    obtain ⟨hbo, hlo⟩ := isBundle_of_mem_namesOf hlocale ho
    exact hleast other hin hbo hlo

/-- A bundle is read exactly when no bundle of its locale comes before it. -/
theorem leads_iff (hb : isBundle name = true) (hmem : name ∈ names) :
    leads names name = true ↔ ∀ other ∈ names, isBundle other = true →
      localeOf other = localeOf name → name ≤ other := by
  rw [leads, beq_iff_eq, chosenName?_eq_some_iff (mem_namesOf_localeOf hb).2]
  exact ⟨fun h => h.2, fun h => ⟨⟨hmem, hb, rfl⟩, h⟩⟩

/-- Every locale of a bundle has a chosen name. -/
theorem exists_chosenName? (hb : isBundle name = true) (hmem : name ∈ names) :
    ∃ chosen, chosenName? names (localeOf name) = some chosen := by
  refine Option.isSome_iff_exists.1 (List.find?_isSome.2 ?_)
  exact ⟨name, (mem_namesOf_localeOf hb).1, by simpa using hmem⟩

/-- A file with the suffix that counts before the others is the chosen one of its locale. -/
theorem leads_of_json (h : (splitName name).2 = ".json") (hmem : name ∈ names) :
    leads names name = true := by
  have hparts : splitName name = (localeOf name, ".json") := by
    rw [← h]
    rfl
  have hname := (eq_of_splitName hparts (by decide)).1.symm
  have hfirst : names.contains (localeOf name ++ ".json") = true := by
    rw [hname, List.contains_iff_mem]
    exact hmem
  rw [leads, beq_iff_eq, chosenName?, namesOf, priority, List.map_cons,
    List.find?_cons_of_pos hfirst, hname]

/-- The choice looks at nothing but which bundles there are. -/
theorem chosenName?_congr {names' : List String} (hlocale : locale ≠ "")
    (h : ∀ name, isBundle name = true → (name ∈ names ↔ name ∈ names')) :
    chosenName? names locale = chosenName? names' locale := by
  refine Option.ext fun name => ?_
  rw [chosenName?_eq_some_iff hlocale, chosenName?_eq_some_iff hlocale]
  constructor
  · rintro ⟨⟨hmem, hb, hl⟩, hleast⟩
    exact ⟨⟨(h name hb).1 hmem, hb, hl⟩,
      fun other ho hbo hlo => hleast other ((h other hbo).2 ho) hbo hlo⟩
  · rintro ⟨⟨hmem, hb, hl⟩, hleast⟩
    exact ⟨⟨(h name hb).2 hmem, hb, hl⟩,
      fun other ho hbo hlo => hleast other ((h other hbo).1 ho) hbo hlo⟩

end Leads

end Engine

end Phrasebook
