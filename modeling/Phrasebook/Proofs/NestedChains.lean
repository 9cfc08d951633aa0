import Phrasebook.Source

/-!
# Chains in chains

The members of a chain may be chains, these may have chains among theirs, and any of them may be
empty. From outside none of this can be told: a chain of chains is asked like the one chain of all
its members, from left to right (`Nest.chain_source_cons`, by induction on the nesting). What makes
it so is that a chain reports a miss like any of its members does, and hands on everything else.

`Search` says what asking one chain comes to: the members are called one after the other up to the
first that does not miss the name, and its answer is the answer, a failure of its own included.
-/

namespace Phrasebook

variable {σ α τ : Type}

/-! ## A chain among other members -/

theorem Source.chain_of_foreign {source : Source σ} {rest : List (Source σ)} {name : String}
    {s s' : σ} {f : Failure} (h : source name s = .error f s')
    (hf : f.fault.isPropertyNotFound = false) :
    Source.chain (source :: rest) name s = .error f s' :=
  handling_of_other h hf

/-- Members that answer alike may stand for each other, also from different states on. -/
theorem Source.chain_cons_congr {a b : Source σ} {name : String} {s t : σ}
    (h : a name s = b name t) (rest : List (Source σ)) :
    Source.chain (a :: rest) name s = Source.chain (b :: rest) name t := by
  simp only [Source.chain, handling, h]

/-- What comes behind the same members may be exchanged. -/
theorem Source.chain_append_congr {a b : List (Source σ)} (h : Source.chain a = Source.chain b) :
    ∀ before : List (Source σ), Source.chain (before ++ a) = Source.chain (before ++ b)
  | [] => h
  | source :: before => by
    funext name
    simp only [List.cons_append, Source.chain, Source.chain_append_congr h before]

/-- **In a chain, a chain stands for its members.** -/
theorem Source.chain_chain (inner outer : List (Source σ)) :
    Source.chain (Source.chain inner :: outer) = Source.chain (inner ++ outer) := by
  funext name s
  induction inner generalizing s with
  | nil => exact Source.chain_of_missed rfl rfl
  | cons source inner ih =>
    rw [List.cons_append]
    cases h : source name s with
    | ok text s' => rw [chain_of_found (chain_of_found h), chain_of_found h]
    | error f s' =>
      cases hf : f.fault.isPropertyNotFound with
      | true =>
        have hinner : chain (source :: inner) name s = chain inner name s' := chain_of_missed h hf
        rw [chain_cons_congr hinner, ih, chain_of_missed h hf]
      | false => rw [chain_of_foreign (chain_of_foreign h hf) hf, chain_of_foreign h hf]

/-! ## Nests -/

/-- Members in chains, to any depth. -/
inductive Nest (α : Type) where
  | member (a : α)
  | chain (nests : List (Nest α))

namespace Nest

mutual

/-- The members of a nest, from left to right. -/
def members : Nest α → List α
  | member a => [a]
  | chain nests => membersOfAll nests

/-- The members of a row of nests. -/
def membersOfAll : List (Nest α) → List α
  | [] => []
  | nest :: rest => nest.members ++ membersOfAll rest

end

mutual

/-- The nest as a source, each member being the source that `f` says. -/
def source (f : α → Source σ) : Nest α → Source σ
  | member a => f a
  | chain nests => Source.chain (sources f nests)

/-- A row of nests as sources. -/
def sources (f : α → Source σ) : List (Nest α) → List (Source σ)
  | [] => []
  | nest :: rest => nest.source f :: sources f rest

end

mutual

/-- A nest in a chain stands for its members. -/
theorem chain_source_cons (f : α → Source σ) (outer : List (Source σ)) : ∀ nest : Nest α,
    Source.chain (nest.source f :: outer) = Source.chain (nest.members.map f ++ outer)
  | member a => rfl
  | chain nests => by
    rw [source, Source.chain_chain, members]
    exact chain_sources_append f outer nests

/-- A row of nests in a chain stands for all their members. -/
theorem chain_sources_append (f : α → Source σ) (outer : List (Source σ)) :
    ∀ nests : List (Nest α),
      Source.chain (sources f nests ++ outer) = Source.chain ((membersOfAll nests).map f ++ outer)
  | [] => rfl
  | nest :: rest => by
    have hrest := chain_sources_append f outer rest
    rw [sources, List.cons_append, chain_source_cons f _ nest, membersOfAll, List.map_append,
      List.append_assoc]
    exact Source.chain_append_congr hrest _

end

end Nest

/-! ## What asking a chain comes to -/

/-- The name is missed, and nothing else is wrong. -/
def IsMiss : EStateM.Result Failure σ String → Prop
  | .ok _ _ => False
  | .error f _ => f.fault.isPropertyNotFound = true

/-- The members of a row miss the name, one after the other. -/
inductive Missed (f : α → Source σ) (name : String) : List α → σ → σ → Prop
  | nil (s : σ) : Missed f name [] s s
  | cons {a : α} {rest : List α} {s s₁ s₂ : σ} {miss : Failure}
    (head : f a name s = .error miss s₁) (hmiss : miss.fault.isPropertyNotFound = true)
    (tail : Missed f name rest s₁ s₂) : Missed f name (a :: rest) s s₂

/--
What asking a row of members for a name comes to, and which of them are called.

* `exhausted`: all of them are called and miss the name, and so does the row
* `settled`: the last one called is the first that does not miss the name, and what it gives is what
  the row gives, whether this is a text or a failure
-/
inductive Search (f : α → Source σ) (name : String) (members : List α) (s : σ) :
    List α → EStateM.Result Failure σ String → Prop
  | exhausted {s' : σ} (h : Missed f name members s s') :
    Search f name members s members (.error ⟨.propertyNotFound name Fault.noPropertyText, []⟩ s')
  | settled {before after : List α} {a : α} {s₁ : σ} (hmembers : members = before ++ a :: after)
    (h : Missed f name before s s₁) (ha : ¬IsMiss (f a name s₁)) :
    Search f name members s (before ++ [a]) (f a name s₁)

section Search

variable {f : α → Source σ} {name : String} {members called : List α} {s s' : σ}
  {r : EStateM.Result Failure σ String}

/-- Members that miss the name leave it to those behind them. -/
theorem Missed.chain_append (h : Missed f name members s s') (rest : List (Source σ)) :
    Source.chain (members.map f ++ rest) name s = Source.chain rest name s' := by
  induction h with
  | nil s => rfl
  | cons head hmiss _ ih => exact (Source.chain_of_missed head hmiss).trans ih

/-- A member that does not miss the name settles it. -/
theorem chain_cons_of_settled {source : Source σ} (h : ¬IsMiss (source name s))
    (rest : List (Source σ)) : Source.chain (source :: rest) name s = source name s := by
  cases hs : source name s with
  | ok text s' => exact Source.chain_of_found hs
  | error f s' =>
    rw [hs] at h
    exact Source.chain_of_foreign hs (Bool.not_eq_true _ ▸ h)

/-- **Asking a chain comes to what a search of its members comes to.** -/
theorem Search.chain_eq (h : Search f name members s called r) :
    Source.chain (members.map f) name s = r := by
  cases h with
  | exhausted h =>
    have hall := h.chain_append []
    rw [List.append_nil] at hall
    exact hall
  | settled hmembers h ha =>
    rw [hmembers, List.map_append, List.map_cons, h.chain_append, chain_cons_of_settled ha]

/-- Before a search that goes on there may be a member that misses the name. -/
theorem Search.cons {a : α} {miss : Failure} {s₁ : σ} (head : f a name s = .error miss s₁)
    (hmiss : miss.fault.isPropertyNotFound = true) (h : Search f name members s₁ called r) :
    Search f name (a :: members) s (a :: called) r := by
  cases h with
  | exhausted h => exact .exhausted (.cons head hmiss h)
  | settled hmembers h ha => exact .settled (by rw [hmembers]; rfl) (.cons head hmiss h) ha

/-- **There is a search of every row.** -/
theorem exists_search (f : α → Source σ) (name : String) (members : List α) (s : σ) :
    ∃ called r, Search f name members s called r := by
  induction members generalizing s with
  | nil => exact ⟨_, _, .exhausted (.nil s)⟩
  | cons a rest ih =>
    by_cases ha : IsMiss (f a name s)
    · cases head : f a name s with
      | ok text s₁ =>
        rw [head] at ha
        exact ha.elim
      | error miss s₁ =>
        rw [head] at ha
        obtain ⟨called, r, h⟩ := ih s₁
        exact ⟨_, _, .cons head ha h⟩
    · exact ⟨_, _, .settled (List.nil_append (a :: rest)).symm (.nil s) ha⟩

end Search

/-! ## Calls -/

/-- A result with something beside its state. -/
def beside (t : τ) : EStateM.Result Failure σ String → EStateM.Result Failure (σ × τ) String
  | .ok text s => .ok text (s, t)
  | .error f s => .error f (s, t)

/-- A member beside the row of all calls so far: who was called, and for which name. -/
def Source.calledAs (a : α) (source : Source σ) : Source (σ × List (α × String)) := fun name s =>
  beside (s.2 ++ [(a, name)]) (source name s.1)

/-- The members of a row, each with its calls noted. -/
def calling (f : α → Source σ) (a : α) : Source (σ × List (α × String)) :=
  (f a).calledAs a

section Calls

variable {f : α → Source σ} {name : String} {members called : List α} {s s' : σ}
  {r : EStateM.Result Failure σ String}

theorem isMiss_beside (t : τ) (r : EStateM.Result Failure σ String) :
    IsMiss (beside t r) ↔ IsMiss r := by
  cases r <;> rfl

/-- Members that miss the name have been called. -/
theorem Missed.calling (h : Missed f name members s s') (calls : List (α × String)) :
    Missed (calling f) name members (s, calls) (s', calls ++ members.map fun a => (a, name)) := by
  induction h generalizing calls with
  | nil s => simpa using Missed.nil (s, calls)
  | @cons a rest s s₁ s₂ miss head hmiss _ ih =>
    have hcall : Phrasebook.calling f a name (s, calls)
        = .error miss (s₁, calls ++ [(a, name)]) := by
      simp only [Phrasebook.calling, Source.calledAs, head, beside]
    have htail := ih (calls ++ [(a, name)])
    rw [List.append_assoc] at htail
    exact .cons hcall hmiss htail

/-- **A search calls the members that it says, in order, and no other.** -/
theorem Search.calling (h : Search f name members s called r) (calls : List (α × String)) :
    Search (calling f) name members (s, calls) called
      (beside (calls ++ called.map fun a => (a, name)) r) := by
  cases h with
  | exhausted h => exact .exhausted (h.calling calls)
  | @settled before after a s₁ hmembers h ha =>
    have hcall : Phrasebook.calling f a name (s₁, calls ++ before.map fun a => (a, name))
        = beside (calls ++ (before ++ [a]).map fun a => (a, name)) (f a name s₁) := by
      simp only [Phrasebook.calling, Source.calledAs, List.map_append, List.map_cons, List.map_nil,
        List.append_assoc]
    rw [← hcall]
    refine .settled hmembers (h.calling calls) ?_
    rwa [hcall, isMiss_beside]

end Calls

/--
**A chain of chains is the chain of its members.** However chains are nested, and whatever their
members are, the nest is the same source as the flat chain of the members from left to right. It is
so too when each member notes its calls, so both call the same members in the same order: those that
a search of the members calls. The answer is what the search comes to.
-/
theorem Nest.chain_asks_members (f : α → Source σ) (nests : List (Nest α)) :
    (chain nests).source f = Source.chain ((chain nests).members.map f) ∧
    (chain nests).source (calling f) = Source.chain ((chain nests).members.map (calling f)) ∧
    ∀ name s calls, ∃ called r, Search f name (chain nests).members s called r ∧
      (chain nests).source f name s = r ∧
      (chain nests).source (calling f) name (s, calls)
        = beside (calls ++ called.map fun a => (a, name)) r := by
  have hflat : ∀ {ω : Type} (g : α → Source ω),
      (chain nests).source g = Source.chain ((chain nests).members.map g) := by
    intro ω g
    have hnests := chain_sources_append g [] nests
    rwa [List.append_nil, List.append_nil] at hnests
  refine ⟨hflat f, hflat (calling f), fun name s calls => ?_⟩
  obtain ⟨called, r, h⟩ := exists_search f name (chain nests).members s
  refine ⟨called, r, h, ?_, ?_⟩
  · rw [hflat]
    exact h.chain_eq
  · rw [hflat]
    exact (h.calling calls).chain_eq

/-- The empty chain calls nobody, and the map behind the one that has the name is not called. -/
example : (Nest.chain [.chain [], .member [], .chain [.member [("a", "x")]],
      .member [("a", "y")]]).source (calling fun entries => (PropertyMap.mk entries).source)
        "a" ((), [])
    = .ok "x" ((), [([], "a"), ([("a", "x")], "a")]) := rfl

end Phrasebook
