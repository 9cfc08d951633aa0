import Phrasebook.Proofs.Entries
import Phrasebook.Source

/-!
# Sources made of maps

Maps may get defaults, be put into chains, and the chains may get defaults again. Whatever is built
so does no more than one map with, maybe, one text for all names that are not in it: its `flat`
form. `FlatSource.chain` says what a chain of flat sources comes to: the first member that has a
default always answers, so the members behind it do not matter, and of the others the earlier ones
come first.

What a flat source answers to a name is `lookup?`. It is the bridge between both sides: a chain of
sources answers with the first answer there is (`chain_source`), and so does the flat chain
(`lookup?_chain`).
-/

namespace Phrasebook

variable {σ : Type}

/-! ## Merging maps -/

theorem valueUnder?_filter {α : Type} (keep : String → Bool) (name : String)
    (l : List (String × α)) : valueUnder? name (l.filter fun e => keep e.1)
      = if keep name then valueUnder? name l else none := by
  induction l with
  | nil => simp [valueUnder?]
  | cons e rest ih =>
    obtain ⟨n, v⟩ := e
    by_cases hn : n = name
    · subst hn
      cases hkeep : keep n with
      | true => simp [valueUnder?, hkeep]
      | false => simpa [hkeep] using ih
    · cases hkeep : keep n with
      | true => simpa [valueUnder?, hkeep, hn] using ih
      | false => simpa [valueUnder?, hkeep, hn] using ih

namespace PropertyMap

/-- The entries of a map, and under the names that it does not have those of another. -/
def merge (a b : PropertyMap) : PropertyMap :=
  ⟨a.entries ++ b.entries.filter fun e => !a.contains e.1⟩

/-- The maps of a row merged, earlier ones winning. -/
def merged (maps : List PropertyMap) : PropertyMap := maps.foldr merge {}

theorem get?_merge (a b : PropertyMap) (name : String) :
    (a.merge b).get? name = (a.get? name).or (b.get? name) := by
  show valueUnder? name (a.entries ++ b.entries.filter fun e => !a.contains e.1) = _
  rw [valueUnder?_append, valueUnder?_filter fun n => !a.contains n]
  show (a.get? name).or (if !a.contains name then b.get? name else none) = _
  cases h : a.get? name <;> simp [contains, h]

/-- The first map that has a name answers. -/
theorem get?_merged (maps : List PropertyMap) (name : String) :
    (merged maps).get? name = maps.findSome? fun m => m.get? name := by
  induction maps with
  | nil => rfl
  | cons m rest ih =>
    show (m.merge (merged rest)).get? name = _
    rw [get?_merge, ih, List.findSome?_cons]
    cases m.get? name <;> rfl

end PropertyMap

/-! ## Flat sources -/

/-- One map, and maybe a text for the names that are not in it. -/
structure FlatSource where
  map : PropertyMap
  default? : Option String := none
deriving Repr, Inhabited

/-- What answers to a name: the text, or that there is no such property. -/
def answered (text? : Option String) (name : String) : Effect σ String :=
  match text? with
  | some text => pure text
  | none => failWith (.propertyNotFound name Fault.noPropertyText)

section Answered

variable {text? : Option String} {name text : String} {f : Failure} {s s' : σ}

theorem answered_eq_ok_iff :
    answered text? name s = .ok text s' ↔ text? = some text ∧ s' = s := by
  cases text? with
  | some found =>
    show EStateM.Result.ok found s = .ok text s' ↔ _
    simp [eq_comm]
  | none => exact ⟨nofun, fun h => absurd h.1 nofun⟩

theorem answered_eq_error_iff : answered text? name s = .error f s' ↔
    text? = none ∧ f = ⟨.propertyNotFound name Fault.noPropertyText, []⟩ ∧ s' = s := by
  cases text? with
  | some found => exact ⟨nofun, fun h => absurd h.1 nofun⟩
  | none =>
    show EStateM.Result.error ⟨.propertyNotFound name Fault.noPropertyText, []⟩ s
      = .error f s' ↔ _
    simp [eq_comm]

end Answered

theorem handling_answered (text? : Option String) (name : String)
    (handler : Failure → Effect σ String) (s : σ) :
    handling Fault.isPropertyNotFound (answered text? name) handler s
      = match text? with
        | some text => .ok text s
        | none => handler ⟨.propertyNotFound name Fault.noPropertyText, []⟩ s := by
  cases text? with
  | some text => exact handling_ok rfl
  | none => exact handling_of_kind rfl rfl

theorem PropertyMap.source_eq (m : PropertyMap) (name : String) :
    (m.source name : Effect σ String) = answered (m.get? name) name := by
  unfold source answered
  cases m.get? name <;> rfl

namespace FlatSource

/-- The flat source as a source. -/
def source (n : FlatSource) : Source σ :=
  match n.default? with
  | none => n.map.source
  | some text => DefaultedSource.lookup ⟨n.map.source, text⟩

/-- The text of a name: the one in the map, or else the default. -/
def lookup? (n : FlatSource) (name : String) : Option String :=
  (n.map.get? name).or n.default?

theorem source_eq (n : FlatSource) (name : String) :
    (n.source name : Effect σ String) = answered (n.lookup? name) name := by
  obtain ⟨m, default?⟩ := n
  funext s
  cases default? with
  | none =>
    rw [source, lookup?, Option.or_none]
    exact congrFun (m.source_eq name) s
  | some text =>
    show handling Fault.isPropertyNotFound (m.source name) (fun _ => pure text) s = _
    rw [m.source_eq, handling_answered, lookup?]
    cases m.get? name <;> rfl

/-- The source with a default; a default of its own comes before it. -/
def withDefault (n : FlatSource) (text : String) : FlatSource :=
  ⟨n.map, some (n.default?.getD text)⟩

theorem lookup?_withDefault (n : FlatSource) (text name : String) :
    (n.withDefault text).lookup? name = some ((n.lookup? name).getD text) := by
  unfold withDefault lookup?
  cases n.map.get? name <;> cases n.default? <;> rfl

theorem source_withDefault (n : FlatSource) (text : String) :
    DefaultedSource.lookup ⟨(n.source : Source σ), text⟩ = (n.withDefault text).source := by
  funext name s
  show handling Fault.isPropertyNotFound (n.source name) (fun _ => pure text) s = _
  rw [source_eq, source_eq, handling_answered, lookup?_withDefault]
  cases n.lookup? name <;> rfl

/-! ## Chains of flat sources -/

/-- The members of a chain up to and including the first that has a default. -/
def reached (row : List FlatSource) : List FlatSource :=
  row.take (row.findIdx (fun n => n.default?.isSome) + 1)

/-- What a chain comes to: the maps of the members that are reached, earlier ones winning, and the
first default there is. -/
def chain (row : List FlatSource) : FlatSource where
  map := PropertyMap.merged ((reached row).map map)
  default? := row.findSome? default?

theorem reached_cons_of_some {n : FlatSource} {text : String} (h : n.default? = some text)
    (rest : List FlatSource) : reached (n :: rest) = [n] := by
  simp [reached, List.findIdx_cons, h]

theorem reached_cons_of_none {n : FlatSource} (h : n.default? = none) (rest : List FlatSource) :
    reached (n :: rest) = n :: reached rest := by
  simp [reached, List.findIdx_cons, h]

/-- **The flat chain answers with the first answer of its members.** -/
theorem lookup?_chain (row : List FlatSource) (name : String) :
    (chain row).lookup? name = row.findSome? fun n => n.lookup? name := by
  induction row with
  | nil => rfl
  | cons n rest ih =>
    rw [lookup?, chain, PropertyMap.get?_merged] at ih ⊢
    rw [List.findSome?_cons, List.findSome?_cons, lookup?]
    cases h : n.default? with
    | some text =>
      -- this member always answers, so nothing behind it is reached
      rw [reached_cons_of_some h]
      cases hn : n.map.get? name <;> simp [hn]
    | none =>
      rw [reached_cons_of_none h, List.map_cons, List.findSome?_cons, ← ih]
      cases hn : n.map.get? name <;> simp

/-- **A chain answers with the first answer of its members.** -/
theorem chain_source (row : List FlatSource) (name : String) (s : σ) :
    Source.chain (row.map FlatSource.source) name s
      = answered (row.findSome? fun n => n.lookup? name) name s := by
  induction row with
  | nil => rfl
  | cons n rest ih =>
    rw [List.map_cons, Source.chain, source_eq, handling_answered, List.findSome?_cons]
    cases n.lookup? name with
    | some text => rfl
    | none => exact ih

theorem source_chain (row : List FlatSource) :
    (Source.chain (row.map FlatSource.source) : Source σ) = (chain row).source := by
  funext name s
  rw [chain_source, source_eq, lookup?_chain]

end FlatSource

/-! ## Pure sources -/

/-- Maps with defaults around them and in chains, to any depth. -/
inductive PureSource where
  | map (m : PropertyMap)
  | defaulted (inner : PureSource) (text : String)
  | chain (members : List PureSource)

namespace PureSource

mutual

/-- The source as it is built. -/
def source : PureSource → Source σ
  | map m => m.source
  | defaulted inner text => DefaultedSource.lookup ⟨inner.source, text⟩
  | chain members => Source.chain (sources members)

/-- The sources of a row. -/
def sources : List PureSource → List (Source σ)
  | [] => []
  | p :: rest => p.source :: sources rest

end

mutual

/-- The flat form. -/
def flat : PureSource → FlatSource
  | map m => { map := m }
  | defaulted inner text => inner.flat.withDefault text
  | chain members => FlatSource.chain (flats members)

/-- The flat forms of a row. -/
def flats : List PureSource → List FlatSource
  | [] => []
  | p :: rest => p.flat :: flats rest

end

mutual

/-- **A pure source is its flat form.** -/
theorem source_eq_flat : ∀ p : PureSource, (p.source : Source σ) = p.flat.source
  | map m => rfl
  | defaulted inner text => by
    rw [source, source_eq_flat inner, flat, FlatSource.source_withDefault]
  | chain members => by
    rw [source, sources_eq_flats members, flat, FlatSource.source_chain]

theorem sources_eq_flats : ∀ row : List PureSource,
    (sources row : List (Source σ)) = (flats row).map FlatSource.source
  | [] => rfl
  | p :: rest => by rw [sources, source_eq_flat p, sources_eq_flats rest, flats, List.map_cons]

end

/--
**A pure source is one map with, maybe, one default.** It gives the same answer to every name as its
flat form, and leaves every state as it is. So it answers with the text that the map has under the
name, the empty one included, or else with the default. It fails only if it has no default and the
map does not have the name, and then by saying that there is no property of this name.
-/
theorem flat_answers (p : PureSource) :
    (p.source : Source σ) = p.flat.source ∧
    ∀ name (s : σ),
      (∀ text s', p.source name s = .ok text s' ↔
        (p.flat.map.get? name).or p.flat.default? = some text ∧ s' = s) ∧
      ∀ f s', p.source name s = .error f s' ↔
        p.flat.default? = none ∧ p.flat.map.contains name = false ∧
          f = ⟨.propertyNotFound name Fault.noPropertyText, []⟩ ∧ s' = s := by
  refine ⟨source_eq_flat p, fun name s => ?_⟩
  have hanswer : p.source name s = answered (p.flat.lookup? name) name s := by
    rw [source_eq_flat, FlatSource.source_eq]
  rw [hanswer]
  refine ⟨fun text s' => answered_eq_ok_iff, fun f s' => ?_⟩
  have hnone : p.flat.lookup? name = none ↔
      p.flat.default? = none ∧ p.flat.map.contains name = false := by
    simp [FlatSource.lookup?, PropertyMap.contains, and_comm]
  rw [← and_assoc, ← hnone]
  exact answered_eq_error_iff

/-- The map behind the first default is not reached, and the empty text counts. -/
example : (chain [.map ⟨[("a", "")]⟩, .defaulted (.map ⟨[("a", "x"), ("b", "y")]⟩) "d",
      .map ⟨[("c", "z")]⟩]).flat = ⟨⟨[("a", ""), ("b", "y")]⟩, some "d"⟩ := rfl

end PureSource

end Phrasebook
