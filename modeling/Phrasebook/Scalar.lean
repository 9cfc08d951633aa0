import Phrasebook.Calendar
import Phrasebook.Decimal.Numeral
import Phrasebook.Failure

/-!
# Scalars

The single values that a document holds, each with two texts: the one that a translation shows, and
the one that it has inside the text of a container.

Two scalars are the same key of a mapping when they are equal as values: numbers by their exact
amount, whether whole, floating or a truth value, so that 1, 1.0 and true are one key; moments by
the instant. What is not a number is the same as nothing.
-/

namespace Phrasebook

/-- A single value of a document. -/
inductive Scalar where
  | null
  | bool (b : Bool)
  | int (n : Int)
  | float (x : Float)
  | text (s : String)
  | bytes (bs : List UInt8)
  | date (d : Date)
  | moment (m : Moment)
deriving Repr, Inhabited

namespace Scalar

/-! ## Texts -/

/-- The text of a whole number; one with too many digits has none. -/
def intText? (n : Int) : Option String :=
  let digits := Nat.repr n.natAbs
  if Decimal.maxDigits < digits.length then none
  else some (if n < 0 then "-" ++ digits else digits)

/-- A whole number has no text exactly from a power of ten on. -/
theorem intText?_eq_none_iff {n : Int} :
    intText? n = none ↔ Nat.pow 10 Decimal.maxDigits ≤ n.natAbs := by
  have hlength : ∀ k, 0 < k → ((Nat.repr n.natAbs).length ≤ k ↔ n.natAbs < Nat.pow 10 k) :=
    fun _ hk => Nat.length_repr_le_iff hk
  rw [intText?, ite_eq_left_iff, ← Nat.not_lt, ← hlength _ (by decide), Nat.not_le]
  simp

/-- The text that a translation shows for the scalar. Only a whole number may have none. -/
def text? : Scalar → Option String
  | null => some ""
  | bool b => some (if b then "true" else "false")
  | int n => intText? n
  | float x => some (Decimal.floatText x)
  | text s => some s
  | bytes bs => some (Text.quoteBytes bs)
  | date d => some d.text
  | moment m => some m.text

/-- The text of the scalar inside a container. -/
def display? : Scalar → Option String
  | null => some "None"
  | bool b => some (if b then "True" else "False")
  | int n => intText? n
  | float x => some (Decimal.floatText x)
  | text s => some (Text.quote s)
  | bytes bs => some (Text.quoteBytes bs)
  | date d => some d.display
  | moment m => some m.display

/-- What a message calls the type of the scalar. -/
def typeName : Scalar → String
  | null => "NoneType"
  | bool _ => "bool"
  | int _ => "int"
  | float _ => "float"
  | text _ => "str"
  | bytes _ => "bytes"
  | date _ => "date"
  | moment _ => "datetime"

/-! ## Sameness as keys -/

/-- The exact amount of a number. -/
inductive Amount where
  | whole (n : Int)
  | floating (p : Decimal.Parts)

/-- Whether a floating point number is this whole number. -/
def isWhole (p : Decimal.Parts) (n : Int) : Bool :=
  match p with
  | .finite negative m q =>
    let signed : Int := if negative then -(m : Int) else m
    if 0 ≤ q then signed * (Nat.pow 2 q.toNat : Nat) == n
    else signed == n * (Nat.pow 2 (-q).toNat : Nat)
  | _ => false

/-- Whether two amounts are equal. A floating zero has two signs and one amount. -/
def Amount.same : Amount → Amount → Bool
  | whole a, whole b => a == b
  | whole a, floating p => isWhole p a
  | floating p, whole b => isWhole p b
  | floating .nan, floating _ => false
  | floating p, floating r => p == r || (isWhole p 0 && isWhole r 0)

/-- The amount of a number or truth value. -/
def amount? : Scalar → Option Amount
  | bool b => some (.whole (if b then 1 else 0))
  | int n => some (.whole n)
  | float x => some (.floating (.ofFloat x))
  | _ => none

/-- Whether two scalars are one key. -/
def same : Scalar → Scalar → Bool
  | null, null => true
  | text a, text b => a == b
  | bytes a, bytes b => a == b
  | date a, date b => a == b
  | moment a, moment b => a.same b
  | a, b =>
    match a.amount?, b.amount? with
    | some x, some y => x.same y
    | _, _ => false

@[simp]
theorem same_text (a b : String) : same (text a) (text b) = (a == b) := rfl

example : same (int 1) (bool true) = true := by decide

end Scalar

end Phrasebook
