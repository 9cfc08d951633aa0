/-!
# Runs of characters

A property of characters is kept as the runs of code points that have it, in increasing order, each
with its first and its last member. A look-up may stop at the first run that starts beyond the
character.
-/

namespace Phrasebook.Text

/-- Whether `n` lies in one of the runs, given in increasing order. -/
def inRuns (n : Nat) : List (Nat × Nat) → Bool
  | [] => false
  | (first, last) :: rest => if n < first then false else n ≤ last || inRuns n rest

/-- A number below every run is in none of them. -/
theorem inRuns_eq_false_of_lt {n : Nat} {runs : List (Nat × Nat)}
    (h : ∀ r ∈ runs.head?, n < r.1) : inRuns n runs = false := by
  cases runs with
  | nil => rfl
  | cons r rest => simp_all [inRuns]

end Phrasebook.Text
