import Phrasebook.Failure

/-!
# Effects

Sources of properties may be functions of the caller that keep a state of their own, so everything
that asks one is an effect on that state. A failure does not undo it: what was asked before the
failure stays asked.

Translating also writes log records. The caller's functions cannot touch the log, therefore there
are two kinds of effects: `Effect` on the caller's state alone, and `Action` on a `World`, the
caller's state together with the log.
-/

namespace Phrasebook

/-- An effect on the caller's state that may fail. -/
abbrev Effect (σ α : Type) : Type := EStateM Failure σ α

/-! ## The log -/

/-- How much a log record matters. -/
inductive Level where
  | debug
  | info
  | warning
deriving Repr, DecidableEq, Inhabited

/-- The part of the library that writes a log record. -/
inductive Origin where
  | engine
  | lookup
  | interpolation
  | fallback
deriving Repr, DecidableEq, Inhabited

/-- A log record. -/
structure Record where
  level : Level
  origin : Origin
  message : String
deriving Repr, DecidableEq, Inhabited

/-! ## Worlds -/

/-- The caller's state and the log so far, oldest record first. -/
structure World (σ : Type) where
  caller : σ
  log : List Record := []
deriving Repr, Inhabited

/-- An effect on the caller's state and the log that may fail. -/
abbrev Action (σ α : Type) : Type := EStateM Failure (World σ) α

variable {σ α : Type}

/-- Lets an effect act on the caller's state of a world. -/
def Effect.act (e : Effect σ α) : Action σ α := fun w =>
  match e w.caller with
  | .ok a s => .ok a { w with caller := s }
  | .error f s => .error f { w with caller := s }

/-- Writes a log record. -/
def writeLog (level : Level) (origin : Origin) (message : String) : Action σ Unit :=
  modify fun w => { w with log := w.log ++ [⟨level, origin, message⟩] }

/-- Fails with a fault that arose from no other. -/
def failWith {ω : Type} (f : Fault) : EStateM Failure ω α :=
  throw ⟨f, []⟩

/-- Fails with the fault of a plain result, or returns its value. -/
def ofResult {ω : Type} (r : Except Fault α) : EStateM Failure ω α :=
  match r with
  | .ok a => pure a
  | .error f => failWith f

/-- Runs `x`; a failure whose fault is of the kind goes to the handler, any other stays. -/
def handling {ω : Type} (kind : Fault → Bool) (x : EStateM Failure ω α)
    (handler : Failure → EStateM Failure ω α) : EStateM Failure ω α := fun w =>
  match x w with
  | .ok a w' => .ok a w'
  | .error f w' => if kind f.fault then handler f w' else .error f w'

theorem handling_ok {ω : Type} {kind : Fault → Bool} {x : EStateM Failure ω α}
    {handler : Failure → EStateM Failure ω α} {w w' : ω} {a : α} (h : x w = .ok a w') :
    handling kind x handler w = .ok a w' := by
  simp [handling, h]

theorem handling_error {ω : Type} {kind : Fault → Bool} {x : EStateM Failure ω α}
    {handler : Failure → EStateM Failure ω α} {w w' : ω} {f : Failure} (h : x w = .error f w') :
    handling kind x handler w = if kind f.fault then handler f w' else .error f w' := by
  simp [handling, h]

/-- A failure of the kind goes to the handler. -/
theorem handling_of_kind {ω : Type} {kind : Fault → Bool} {x : EStateM Failure ω α}
    {handler : Failure → EStateM Failure ω α} {w w' : ω} {f : Failure} (h : x w = .error f w')
    (hk : kind f.fault = true) : handling kind x handler w = handler f w' := by
  rw [handling_error h, if_pos hk]

/-- A failure of another kind stays. -/
theorem handling_of_other {ω : Type} {kind : Fault → Bool} {x : EStateM Failure ω α}
    {handler : Failure → EStateM Failure ω α} {w w' : ω} {f : Failure} (h : x w = .error f w')
    (hk : kind f.fault = false) : handling kind x handler w = .error f w' := by
  rw [handling_error h, hk]
  rfl

/-- A handled effect fails in its handler, or with a fault of another kind. -/
theorem handling_eq_error {ω : Type} {kind : Fault → Bool} {x : EStateM Failure ω α}
    {handler : Failure → EStateM Failure ω α} {w w' : ω} {f : Failure}
    (h : handling kind x handler w = .error f w') :
    (x w = .error f w' ∧ kind f.fault = false) ∨
      ∃ g w₁, x w = .error g w₁ ∧ kind g.fault = true ∧ handler g w₁ = .error f w' := by
  cases hx : x w with
  | ok b w₁ => rw [handling_ok hx] at h; cases h
  | error g w₁ =>
    rw [handling_error hx] at h
    split at h
    · next hk => exact Or.inr ⟨g, w₁, rfl, hk, h⟩
    · next hk => cases h; exact Or.inl ⟨rfl, by simpa using hk⟩

/-! ## Effects one after the other -/

section Bind

variable {ε ω β : Type} {x : EStateM ε ω α} {f : α → EStateM ε ω β} {w w' : ω}

theorem bind_of_ok {a : α} (h : x w = .ok a w') : (x >>= f) w = f a w' := by
  simp only [bind, EStateM.bind, h]

theorem bind_of_error {e : ε} (h : x w = .error e w') : (x >>= f) w = .error e w' := by
  simp only [bind, EStateM.bind, h]

theorem get_eq : (get : EStateM ε ω ω) w = .ok w w := rfl

/-- A sequence succeeds only if its first part does. -/
theorem bind_eq_ok {b : β} (h : (x >>= f) w = .ok b w') :
    ∃ a w₁, x w = .ok a w₁ ∧ f a w₁ = .ok b w' := by
  cases hx : x w with
  | ok a w₁ => exact ⟨a, w₁, rfl, by rw [← h, bind_of_ok hx]⟩
  | error e w₁ => rw [bind_of_error hx] at h; cases h

/-- A sequence fails in its first part or after it. -/
theorem bind_eq_error {e : ε} (h : (x >>= f) w = .error e w') :
    x w = .error e w' ∨ ∃ a w₁, x w = .ok a w₁ ∧ f a w₁ = .error e w' := by
  cases hx : x w with
  | ok a w₁ => exact Or.inr ⟨a, w₁, rfl, by rw [← h, bind_of_ok hx]⟩
  | error e₁ w₁ => rw [bind_of_error hx] at h; cases h; exact Or.inl rfl

end Bind

/-! ## Acting in a world -/

theorem act_of_ok {e : Effect σ α} {w : World σ} {a : α} {s : σ} (h : e w.caller = .ok a s) :
    e.act w = .ok a { w with caller := s } := by
  simp only [Effect.act, h]

theorem act_of_error {e : Effect σ α} {w : World σ} {f : Failure} {s : σ}
    (h : e w.caller = .error f s) : e.act w = .error f { w with caller := s } := by
  simp only [Effect.act, h]

/-- An effect of the caller does not touch the log. -/
theorem act_eq_ok {e : Effect σ α} {w w' : World σ} {a : α} (h : e.act w = .ok a w') :
    e w.caller = .ok a w'.caller ∧ w'.log = w.log := by
  cases he : e w.caller with
  | ok b s => rw [act_of_ok he] at h; cases h; exact ⟨rfl, rfl⟩
  | error f s => rw [act_of_error he] at h; cases h

/-- An effect that fails in a world fails for the caller's state. -/
theorem act_eq_error {e : Effect σ α} {w w' : World σ} {f : Failure} (h : e.act w = .error f w') :
    e w.caller = .error f w'.caller ∧ w'.log = w.log := by
  cases he : e w.caller with
  | ok b s => rw [act_of_ok he] at h; cases h
  | error g s => rw [act_of_error he] at h; cases h; exact ⟨rfl, rfl⟩

end Phrasebook
