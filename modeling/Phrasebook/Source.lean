import Phrasebook.Effect
import Phrasebook.Tree

/-!
# Property sources

A source answers names with texts. It says that it has no property of a name by failing with
`propertyNotFound`; every other failure is its own and passes through the ways of combining
sources untouched.
-/

namespace Phrasebook

/-- A source of properties: it answers a name, possibly changing the caller's state. -/
abbrev Source (σ : Type) : Type := String → Effect σ String

variable {σ : Type}

/-! ## Maps -/

/-- A fixed map from names to texts. -/
structure PropertyMap where
  entries : List (String × String) := []
deriving Repr, Inhabited

namespace PropertyMap

/-- The text under a name. -/
def get? (m : PropertyMap) (name : String) : Option String := valueUnder? name m.entries

/-- Whether the map has a name. -/
def contains (m : PropertyMap) (name : String) : Bool := (m.get? name).isSome

/-- The number of names. -/
def size (m : PropertyMap) : Nat := m.entries.length

/-- The map as a source. -/
def source (m : PropertyMap) : Source σ := fun name =>
  match m.get? name with
  | some text => pure text
  | none => failWith (.propertyNotFound name Fault.noPropertyText)

theorem source_of_some {m : PropertyMap} {name text : String} (h : m.get? name = some text)
    (s : σ) : m.source name s = .ok text s := by
  simp only [source, h]
  rfl

theorem source_of_none {m : PropertyMap} {name : String} (h : m.get? name = none) (s : σ) :
    m.source name s = .error ⟨.propertyNotFound name Fault.noPropertyText, []⟩ s := by
  simp only [source, h]
  rfl

end PropertyMap

/-! ## Sources made of sources -/

/-- A source with a text for the names that it does not have. -/
structure DefaultedSource (σ : Type) where
  source : Source σ
  default : String

/-- The text of the source, or else the default. -/
def DefaultedSource.lookup (d : DefaultedSource σ) : Source σ := fun name =>
  handling Fault.isPropertyNotFound (d.source name) fun _ => pure d.default

/-- The first source of the row that has the name answers. -/
def Source.chain : List (Source σ) → Source σ
  | [], name => failWith (.propertyNotFound name Fault.noPropertyText)
  | source :: rest, name =>
    handling Fault.isPropertyNotFound (source name) fun _ => Source.chain rest name

theorem Source.chain_of_found {source : Source σ} {rest : List (Source σ)} {name text : String}
    {s s' : σ} (h : source name s = .ok text s') :
    Source.chain (source :: rest) name s = .ok text s' :=
  handling_ok h

theorem Source.chain_of_missed {source : Source σ} {rest : List (Source σ)} {name : String}
    {s s' : σ} {f : Failure} (h : source name s = .error f s')
    (hf : f.fault.isPropertyNotFound = true) :
    Source.chain (source :: rest) name s = Source.chain rest name s' :=
  handling_of_kind h hf

/-- A source that notes each name in the caller's state before it asks the inner one. -/
def Source.noting (note : String → σ → σ) (inner : Source σ) : Source σ := fun name => do
  modify (note name)
  inner name

end Phrasebook
