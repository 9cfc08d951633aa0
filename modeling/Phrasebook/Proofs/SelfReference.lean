import Mathlib.Logic.Relation
import Phrasebook.Proofs.Escapes

/-!
# Values that hold themselves

A value is walked from what holds to what is held, and a reference to a container around it leads
back to that container. A value holds itself if on such walks some list or mapping comes back to
itself (`Value.HoldsItself`). Containers are told apart by the way to them from the root, as their
contents may well be equal.

What is known of a site on a walk is `Site.Sound`, and one step keeps it (`Site.Sound.part`). From a
site with a reference in it some container is reached that comes back to itself, and without
references every step leads further away from the root. So a value holds itself exactly if there is
a reference in it (`holdsItself_iff`).
-/

namespace Phrasebook

open Relation

/-! ## Parts -/

/-- Whether the value is a mapping. -/
def Value.isMapping : Value → Bool
  | .map _ => true
  | .tree _ => true
  | _ => false

/-- Whether the value stands for a container around it. -/
def Value.isReference : Value → Bool
  | .enclosing _ _ => true
  | _ => false

/-- Which of the containers that may hold themselves the value is. -/
def Value.shape? : Value → Option Shape
  | .list _ => some .list
  | .map _ => some .map
  | _ => none

/-- The values that a value holds: the items of a row, and what lies under the keys of a mapping. -/
def Value.parts : Value → List Value
  | .list items => items
  | .tuple items => items
  | .map entries => entries.map Prod.snd
  | .tree t => t.parts.map fun c => c.2.value
  | _ => []

mutual

/-- Whether every reference in the value is to a container of its shape around it. The shapes are
those of the containers around the value, nearest first. -/
def Value.closedIn (around : List Shape) : Value → Bool
  | .list items => Value.allClosedIn (.list :: around) items
  | .tuple items => Value.allClosedIn around items
  | .map entries => Value.entriesClosedIn (.map :: around) entries
  | .enclosing shape n => around[n]? = some shape
  | _ => true

/-- Whether every reference in a row is to a container of its shape around it. -/
def Value.allClosedIn (around : List Shape) : List Value → Bool
  | [] => true
  | v :: rest => v.closedIn around && Value.allClosedIn around rest

/-- Whether every reference in entries is to a container of its shape around it. -/
def Value.entriesClosedIn (around : List Shape) : List (Key × Value) → Bool
  | [] => true
  | (_, v) :: rest => v.closedIn around && Value.entriesClosedIn around rest

end

mutual

/-- How many containers lie inside each other, and what is in the innermost. -/
def Value.depth : Value → Nat
  | .list items => Value.depthAll items + 1
  | .tuple items => Value.depthAll items + 1
  | .map entries => Value.depthEntries entries + 1
  | _ => 1

/-- The greatest depth in a row. -/
def Value.depthAll : List Value → Nat
  | [] => 0
  | v :: rest => max v.depth (Value.depthAll rest)

/-- The greatest depth in entries. -/
def Value.depthEntries : List (Key × Value) → Nat
  | [] => 0
  | (_, v) :: rest => max v.depth (Value.depthEntries rest)

end

/-- A test of a row that asks every element in turn. -/
theorem eq_all_of_cons {α : Type} (test : List α → Bool) (each : α → Bool)
    (hnil : test [] = true) (hcons : ∀ a l, test (a :: l) = (each a && test l)) (l : List α) :
    test l = l.all each := by
  induction l with
  | nil => rw [hnil, List.all_nil]
  | cons a rest ih => rw [hcons, ih, List.all_cons]

theorem selfFree_eq_all {v : Value} (h : v.isReference = false) :
    v.selfFree = v.parts.all Value.selfFree := by
  cases v with
  | list items | tuple items =>
    exact eq_all_of_cons Value.selfFreeAll Value.selfFree rfl (fun _ _ => rfl) items
  | map entries =>
    rw [Value.parts, List.all_map]
    exact eq_all_of_cons Value.selfFreeEntries _ rfl (fun _ _ => rfl) entries
  | tree t =>
    symm
    simp only [Value.parts, Value.selfFree, List.all_map, List.all_eq_true]
    rintro ⟨name, part⟩ -
    cases part <;> rfl
  | enclosing shape n => cases h
  | scalar | set => rfl

theorem isReference_of_selfFree {v : Value} (h : v.selfFree = true) : v.isReference = false := by
  cases v with
  | enclosing => cases h
  | _ => rfl

theorem selfFree_of_mem_parts {v u : Value} (h : v.selfFree = true) (hu : u ∈ v.parts) :
    u.selfFree = true := by
  rw [selfFree_eq_all (isReference_of_selfFree h)] at h
  exact List.all_eq_true.1 h u hu

theorem allClosedIn_iff {around : List Shape} {items : List Value} :
    Value.allClosedIn around items = true ↔ ∀ v ∈ items, v.closedIn around = true := by
  rw [eq_all_of_cons (Value.allClosedIn around) _ rfl (fun _ _ => rfl) items, List.all_eq_true]

theorem entriesClosedIn_iff {around : List Shape} {entries : List (Key × Value)} :
    Value.entriesClosedIn around entries = true ↔ ∀ e ∈ entries, e.2.closedIn around = true := by
  rw [eq_all_of_cons (Value.entriesClosedIn around) (fun e => e.2.closedIn around) rfl
    (fun _ _ => rfl) entries, List.all_eq_true]

theorem closedIn_of_mem_parts {v u : Value} {around : List Shape} (h : v.closedIn around = true)
    (hu : u ∈ v.parts) : u.closedIn (v.shape?.toList ++ around) = true := by
  cases v with
  | list items | tuple items => exact allClosedIn_iff.1 h u hu
  | map entries =>
    obtain ⟨e, he, rfl⟩ := List.mem_map.1 hu
    exact entriesClosedIn_iff.1 h e he
  | tree t =>
    obtain ⟨⟨name, part⟩, -, rfl⟩ := List.mem_map.1 hu
    cases part <;> rfl
  | scalar | set | enclosing => cases hu

theorem hasTexts_of_mem_entries {entries : List (Key × Value)} {e : Key × Value}
    (h : (Value.map entries).hasTexts = true) (he : e ∈ entries) :
    e.1.text?.isSome = true ∧ e.2.hasTexts = true := by
  have hall := eq_all_of_cons Value.entriesHaveTexts
    (fun e => e.1.text?.isSome && e.2.hasTexts) rfl (fun _ _ => (Bool.and_assoc _ _ _).symm) entries
  have hboth := List.all_eq_true.1 (hall.symm.trans h) e he
  simpa only [Bool.and_eq_true] using hboth

theorem hasTexts_of_mem_parts {v u : Value} (h : v.hasTexts = true) (hu : u ∈ v.parts) :
    u.hasTexts = true := by
  cases v with
  | list items | tuple items =>
    have hall := eq_all_of_cons Value.haveTexts Value.hasTexts rfl (fun _ _ => rfl) items
    exact List.all_eq_true.1 (hall.symm.trans h) u hu
  | map entries =>
    obtain ⟨e, he, rfl⟩ := List.mem_map.1 hu
    exact (hasTexts_of_mem_entries h he).2
  | tree t =>
    obtain ⟨⟨name, part⟩, -, rfl⟩ := List.mem_map.1 hu
    cases part <;> rfl
  | scalar | set | enclosing => cases hu

theorem depth_le_depthAll {items : List Value} {u : Value} (h : u ∈ items) :
    u.depth ≤ Value.depthAll items := by
  induction items with
  | nil => cases h
  | cons v rest ih =>
    rw [Value.depthAll]
    rcases List.mem_cons.1 h with rfl | hrest
    · omega
    · have hle := ih hrest
      omega

theorem depth_le_depthEntries {entries : List (Key × Value)} {e : Key × Value} (h : e ∈ entries) :
    e.2.depth ≤ Value.depthEntries entries := by
  induction entries with
  | nil => cases h
  | cons d rest ih =>
    rw [Value.depthEntries]
    rcases List.mem_cons.1 h with rfl | hrest
    · omega
    · have hle := ih hrest
      omega

/-- What a list, tuple or mapping holds is less deep than it. -/
theorem depth_lt_of_mem_parts {v u : Value} (hu : u ∈ v.parts) (htree : ∀ t, v ≠ .tree t) :
    u.depth < v.depth := by
  cases v with
  | list items | tuple items => exact Nat.lt_succ_of_le (depth_le_depthAll hu)
  | map entries =>
    obtain ⟨e, he, rfl⟩ := List.mem_map.1 hu
    exact Nat.lt_succ_of_le (depth_le_depthEntries he)
  | tree t => exact absurd rfl (htree t)
  | scalar | set | enclosing => cases hu

/-! ## Sites -/

/-- A place on a walk through a value: the way to it, latest step first, what is there, and the
lists and mappings around it, nearest first. -/
structure Site where
  path : List Nat
  value : Value
  around : List Site

/-- The root of a value. -/
def Value.site (v : Value) : Site := ⟨[], v, []⟩

namespace Site

/-- The lists and mappings around the parts of a site. -/
def inside (p : Site) : List Site :=
  if p.value.shape?.isSome then p :: p.around else p.around

/-- The site one step below. -/
def child (p : Site) (i : Nat) (u : Value) : Site :=
  ⟨i :: p.path, u, p.inside⟩

/-- Where a part leads: a reference to the container that it stands for, all else one step below. -/
def part (p : Site) (i : Nat) : Value → Site
  | .enclosing shape n => p.inside[n]?.getD (p.child i (.enclosing shape n))
  | u => p.child i u

/-- A site holds another one. -/
def Leads (p q : Site) : Prop :=
  ∃ i u, p.value.parts[i]? = some u ∧ q = p.part i u

theorem part_eq_child {p : Site} {i : Nat} {u : Value} (h : u.isReference = false) :
    p.part i u = p.child i u := by
  cases u with
  | enclosing shape n => cases h
  | _ => rfl

/-- The shape of a list or mapping. -/
def shape (p : Site) : Shape := p.value.shape?.getD .list

theorem map_shape_inside (p : Site) :
    p.inside.map shape = p.value.shape?.toList ++ p.around.map shape := by
  unfold inside
  cases h : p.value.shape? with
  | none => simp
  | some s => simp [shape, h]

end Site

/-- Some list or mapping in the value is reached from itself. -/
def Value.HoldsItself (v : Value) : Prop :=
  ∃ p, ReflTransGen Site.Leads v.site p ∧ p.value.shape?.isSome = true ∧ TransGen Site.Leads p p

/-! ## Without references -/

namespace Site

/-- Without references, every step goes one step further down. -/
theorem leads_of_selfFree {p q : Site} (hp : p.value.selfFree = true) (h : p.Leads q) :
    q.value.selfFree = true ∧ p.path.length < q.path.length := by
  obtain ⟨i, u, hu, rfl⟩ := h
  have hfree := selfFree_of_mem_parts hp (List.mem_of_getElem? hu)
  rw [part_eq_child (isReference_of_selfFree hfree)]
  exact ⟨hfree, by simp [child]⟩

theorem reaches_of_selfFree {p q : Site} (hp : p.value.selfFree = true) (h : TransGen Leads p q) :
    q.value.selfFree = true ∧ p.path.length < q.path.length := by
  induction h with
  | single h => exact leads_of_selfFree hp h
  | tail _ h ih =>
    obtain ⟨hfree, hlt⟩ := leads_of_selfFree ih.1 h
    exact ⟨hfree, by omega⟩

end Site

/-- Without references, nothing holds itself. -/
theorem not_holdsItself_of_selfFree {v : Value} (h : v.selfFree = true) : ¬v.HoldsItself := by
  rintro ⟨p, hreach, -, hcycle⟩
  have hp : p.value.selfFree = true := by
    rcases reflTransGen_iff_eq_or_transGen.1 hreach with rfl | hreach
    · exact h
    · exact (Site.reaches_of_selfFree h hreach).1
  have hlt := (Site.reaches_of_selfFree hp hcycle).2
  omega

/-! ## Sites of a closed value -/

namespace Site

/--
What is known of a site on a walk from the root of a closed value with texts.

* `closed`, `texts`, `ground`: what is there is closed, has texts, and is no reference
* `containers`, `around`, `back`: what is around it are lists and mappings, of which the same is
  known, and they lead to it
* `marked`: what is around a reference has a reference in it
-/
inductive Sound : Site → Prop
  | intro {p : Site} (closed : p.value.closedIn (p.around.map shape) = true)
    (texts : p.value.hasTexts = true) (ground : p.value.isReference = false)
    (containers : ∀ a ∈ p.around, a.value.shape?.isSome = true)
    (around : ∀ a ∈ p.around, Sound a) (back : ∀ a ∈ p.around, TransGen Leads a p)
    (marked : p.value.selfFree = false → ∀ a ∈ p.around, a.value.selfFree = false) : Sound p

/-- What is known of a container around the parts of a site: it is the site itself or around it. -/
structure Encloses (a p : Site) : Prop where
  sound : a.Sound
  isSome : a.value.shape?.isSome = true
  leads : ReflTransGen Leads a p
  marked : p.value.selfFree = false → a.value.selfFree = false

namespace Sound

variable {p : Site} {u : Value}

theorem closed (h : p.Sound) : p.value.closedIn (p.around.map shape) = true := by
  cases h
  assumption

theorem texts (h : p.Sound) : p.value.hasTexts = true := by
  cases h
  assumption

theorem ground (h : p.Sound) : p.value.isReference = false := by
  cases h
  assumption

theorem encloses (h : p.Sound) {a : Site} (ha : a ∈ p.inside) : a.Encloses p := by
  have haround : ∀ a ∈ p.around, a.Encloses p := by
    intro a ha
    cases h with
    | intro _ _ _ containers around back marked =>
      exact ⟨around a ha, containers a ha, (back a ha).to_reflTransGen, fun hp => marked hp a ha⟩
  unfold inside at ha
  split at ha
  · next hshape =>
    rcases List.mem_cons.1 ha with rfl | ha
    · exact ⟨h, hshape, .refl, id⟩
    · exact haround a ha
  · exact haround a ha

/-- A reference among the parts leads to a container around them. -/
theorem encloses_part (h : p.Sound) (i : Nat) (hu : u ∈ p.value.parts)
    (href : u.isReference = true) : (p.part i u).Encloses p := by
  cases u with
  | enclosing s n =>
    have hn : (p.inside.map shape)[n]? = some s := by
      rw [map_shape_inside]
      simpa [Value.closedIn] using closedIn_of_mem_parts h.closed hu
    rw [List.getElem?_map, Option.map_eq_some_iff] at hn
    obtain ⟨a, ha, -⟩ := hn
    rw [Site.part, ha, Option.getD_some]
    exact h.encloses (List.mem_of_getElem? ha)
  | _ => cases href

/-- A part with a reference in it puts one in the whole. -/
theorem selfFree_eq_false (h : p.Sound) (hu : u ∈ p.value.parts) (hfree : u.selfFree = false) :
    p.value.selfFree = false := by
  rw [selfFree_eq_all h.ground, List.all_eq_false]
  exact ⟨u, hu, by simp [hfree]⟩

/-- **One step.** What is known of a site is known of the sites that it leads to. -/
theorem part (h : p.Sound) {i : Nat} (hu : p.value.parts[i]? = some u) : (p.part i u).Sound := by
  have hmem := List.mem_of_getElem? hu
  cases href : u.isReference with
  | true => exact (h.encloses_part i hmem href).sound
  | false =>
    have hleads : p.Leads (p.child i u) := ⟨i, u, hu, (part_eq_child href).symm⟩
    have hclosed : u.closedIn (p.inside.map shape) = true := by
      rw [map_shape_inside]
      exact closedIn_of_mem_parts h.closed hmem
    rw [part_eq_child href]
    refine .intro hclosed (hasTexts_of_mem_parts h.texts hmem) href ?_ ?_ ?_ ?_
    · exact fun a ha => (h.encloses ha).isSome
    · exact fun a ha => (h.encloses ha).sound
    · exact fun a ha => TransGen.tail' (h.encloses ha).leads hleads
    · exact fun hfree a ha => (h.encloses ha).marked (h.selfFree_eq_false hmem hfree)

/-- A part with a reference in it leads to something with a reference in it. -/
theorem part_marked (h : p.Sound) (i : Nat) (hu : u ∈ p.value.parts) (hfree : u.selfFree = false) :
    (p.part i u).value.selfFree = false := by
  cases href : u.isReference with
  | true => exact (h.encloses_part i hu href).marked (h.selfFree_eq_false hu hfree)
  | false =>
    rw [part_eq_child href]
    exact hfree

/-- Something with a reference in it has a part with a reference in it. -/
theorem exists_marked (h : p.Sound) (hfree : p.value.selfFree = false) :
    ∃ (i : Nat) (u : Value), p.value.parts[i]? = some u ∧ u.selfFree = false := by
  rw [selfFree_eq_all h.ground, List.all_eq_false] at hfree
  obtain ⟨u, hu, hfree⟩ := hfree
  obtain ⟨i, hi⟩ := List.mem_iff_getElem?.1 hu
  exact ⟨i, u, hi, by simpa using hfree⟩

/-- **A site with a reference in it leads to a container that comes back to itself.** -/
theorem exists_cycle (h : p.Sound) (hfree : p.value.selfFree = false) :
    ∃ q, ReflTransGen Leads p q ∧ q.value.shape?.isSome = true ∧ TransGen Leads q q := by
  -- the induction goes down to the reference, which leads back to something around it
  induction hd : p.value.depth using Nat.strongRecOn generalizing p with
  | ind d ih =>
    obtain ⟨i, u, hu, hufree⟩ := h.exists_marked hfree
    have hmem := List.mem_of_getElem? hu
    have hleads : p.Leads (p.part i u) := ⟨i, u, hu, rfl⟩
    cases href : u.isReference with
    | true =>
      have hback := h.encloses_part i hmem href
      exact ⟨_, .single hleads, hback.isSome, TransGen.tail' hback.leads hleads⟩
    | false =>
      have hlt : (p.part i u).value.depth < d := by
        rw [part_eq_child href, ← hd]
        refine depth_lt_of_mem_parts hmem fun t ht => ?_
        rw [ht] at hfree
        cases hfree
      have hmarked := h.part_marked i hmem hufree
      obtain ⟨q, hreach, hshape, hcycle⟩ := ih _ hlt (h.part hu) hmarked rfl
      exact ⟨q, .head hleads hreach, hshape, hcycle⟩

end Sound

end Site

theorem sound_site {v : Value} (hclosed : v.closedIn [] = true) (htexts : v.hasTexts = true) :
    v.site.Sound := by
  have hground : v.isReference = false := by
    cases v with
    | enclosing shape n => simp [Value.closedIn] at hclosed
    | _ => rfl
  exact .intro hclosed htexts hground (fun _ ha => nomatch ha) (fun _ ha => nomatch ha)
    (fun _ ha => nomatch ha) fun _ _ ha => nomatch ha

/-- **A closed value holds itself exactly if there is a reference in it.** -/
theorem holdsItself_iff {v : Value} (hclosed : v.closedIn [] = true) (htexts : v.hasTexts = true) :
    v.HoldsItself ↔ v.selfFree = false := by
  constructor
  · intro h
    by_contra hfree
    exact not_holdsItself_of_selfFree (by simpa using hfree) h
  · exact (sound_site hclosed htexts).exists_cycle

/-! ## Documents -/

/-- The shape of the collection of a number. -/
def heldShape (holdings : Array (Option Yaml.Holding)) (number : Nat) : Shape :=
  (holdings[number]?.join.map Yaml.Holding.shape).getD .list

/-- In what a collection of a document becomes, references are to containers around them. -/
theorem closedIn_toValue (holdings : Array (Option Yaml.Holding)) (fuel : Nat) (around : List Nat)
    (item : Yaml.Item) : (item.toValue holdings fuel around).closedIn
      (around.map (heldShape holdings)) = true := by
  induction fuel generalizing around item with
  | zero => cases item <;> rfl
  | succ fuel ih =>
    cases item with
    | scalar s provenance => rfl
    | collection number =>
      rw [Yaml.Item.toValue]
      split
      · next n hn =>
        have hnumber : around[n]? = some number := by
          obtain ⟨hlt, hget, -⟩ := List.idxOf?_eq_some_iff.1 hn
          rw [List.getElem?_eq_getElem hlt, hget]
        rw [Value.closedIn, decide_eq_true_iff, List.getElem?_map, hnumber]
        rfl
      · have hinner := ih (number :: around)
        rw [List.map_cons] at hinner
        dsimp only
        split
        · next items hitems =>
          rw [heldShape, hitems] at hinner
          refine allClosedIn_iff.2 fun v hv => ?_
          obtain ⟨inner, -, rfl⟩ := List.mem_map.1 hv
          exact hinner inner
        · next items hitems =>
          rw [heldShape, hitems] at hinner
          refine allClosedIn_iff.2 fun v hv => ?_
          obtain ⟨pair, -, rfl⟩ := List.mem_map.1 hv
          refine allClosedIn_iff.2 fun u hu => ?_
          rcases List.mem_pair.1 hu with rfl | rfl
          · exact hinner pair.1
          · exact hinner pair.2
        · next entries hentries =>
          rw [heldShape, hentries] at hinner
          refine entriesClosedIn_iff.2 fun e he => ?_
          obtain ⟨entry, -, rfl⟩ := List.mem_map.1 he
          exact hinner entry.2
        · rfl
        · rfl

/-- The value of a document is nothing, or what a collection of it becomes. -/
theorem value_cases {d : Document} {v : Value} (h : d.value = .ok v) :
    v = .scalar .null ∨ ∃ holdings fuel, ∃ item : Yaml.Item, v = item.toValue holdings fuel [] := by
  unfold Document.value at h
  cases hchars : d.characters with
  | error p => rw [hchars] at h; cases h
  | ok chars =>
    rw [hchars] at h
    cases hgraph : Yaml.Graph.ofTokens (.scan chars) with
    | error p => simp [hgraph, bind, Except.bind] at h
    | ok g =>
      have hvalue : g.toValue = .ok v := by simpa [hgraph, bind, Except.bind] using h
      unfold Yaml.Graph.toValue at hvalue
      split at hvalue
      · cases hvalue
        exact Or.inl rfl
      · dsimp only at hvalue
        split at hvalue
        · cases hvalue
          exact Or.inr ⟨_, _, _, rfl⟩
        · cases hvalue

/-- In the value of a document, references are to containers around them. -/
theorem closedIn_value {d : Document} {v : Value} (h : d.value = .ok v) : v.closedIn [] = true := by
  rcases value_cases h with rfl | ⟨holdings, fuel, item, rfl⟩
  · rfl
  · exact closedIn_toValue holdings fuel [] item

end Phrasebook
