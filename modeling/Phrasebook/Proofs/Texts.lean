import Phrasebook.Value.Display

/-!
# Values without texts

What is made of the texts of values is there if all of them have one, and else it is the failure of
the one that has none (`Settles`). Only whole numbers can have none (`Scalar.intText?_eq_none_iff`),
and the containers that show them.
-/

namespace Phrasebook

/-! ## Results one after the other -/

/-- A sequence of results is good only if both parts are. -/
theorem result_bind_eq_ok {α β : Type} {x : Except Fault α} {f : α → Except Fault β} {b : β}
    (h : (x >>= f) = .ok b) : ∃ a, x = .ok a ∧ f a = .ok b := by
  cases x with
  | ok a => exact ⟨a, rfl, h⟩
  | error e => cases h

/-- A result that is only changed is good if it was. -/
theorem result_map_eq_ok {α β : Type} {x : Except Fault α} {f : α → β} {b : β}
    (h : (do return f (← x)) = .ok b) : ∃ a, x = .ok a ∧ b = f a := by
  obtain ⟨a, hx, ha⟩ := result_bind_eq_ok h
  cases ha
  exact ⟨a, hx, rfl⟩

/-! ## Results that want texts -/

/-- A result is there, or else it is the failure for want of a text. -/
structure Settles {α : Type} (good : Bool) (r : Except Fault α) : Prop where
  ok : good = true → ∃ a, r = .ok a
  error : good = false → r = .error (.mishap .noSuchValue)

theorem settles_ok {α : Type} (a : α) : Settles true (.ok a : Except Fault α) where
  ok _ := ⟨a, rfl⟩
  error h := nomatch h

theorem settles_error {α : Type} :
    Settles false (.error (.mishap .noSuchValue) : Except Fault α) where
  ok h := nomatch h
  error _ := rfl

theorem settles_bind {α β : Type} {b c : Bool} {x : Except Fault α} {f : α → Except Fault β}
    (hx : Settles b x) (hf : ∀ a, Settles c (f a)) : Settles (b && c) (x >>= f) := by
  cases b with
  | false =>
    rw [hx.error rfl]
    exact settles_error
  | true =>
    obtain ⟨a, rfl⟩ := hx.ok rfl
    exact hf a

theorem settles_map {α β : Type} {b : Bool} {x : Except Fault α} {f : α → β}
    (hx : Settles b x) : Settles b (do return f (← x)) := by
  have h := settles_bind hx fun a => settles_ok (f a)
  rwa [Bool.and_true] at h

/-! ## Texts of values -/

/-- The text of a value, when there is one. -/
theorem text_eq_ok_iff {v : Value} {s : String} : v.text = .ok s ↔ v.text? = some s := by
  unfold Value.text
  cases v.text? with
  | some t => simp
  | none => simp

theorem text_settles (v : Value) : Settles v.text?.isSome v.text := by
  unfold Value.text
  cases v.text? with
  | some s => exact settles_ok s
  | none => exact settles_error

theorem text?_natCast {n : Nat} (h : Nat.pow 10 Decimal.maxDigits ≤ n) :
    (Value.scalar (.int n)).text? = none :=
  Scalar.intText?_eq_none_iff.2 (Nat.le_trans h (Nat.le_of_eq (Int.natAbs_natCast n).symm))

/-- A whole number without a text. -/
def oversized : Value :=
  .scalar (.int (Nat.pow 10 Decimal.maxDigits))

theorem text?_oversized : oversized.text? = none := by
  unfold oversized
  exact text?_natCast (Nat.le_refl _)

end Phrasebook
