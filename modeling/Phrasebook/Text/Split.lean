/-!
# Splitting on a separator

A text is cut at every place where the separator occurs, found from left to right, occurrences not
overlapping. Joining the pieces with the separator gives the text back.
-/

namespace Phrasebook.Text

/-- Joins pieces with a separator between each two of them. -/
def join (sep : List Char) : List (List Char) → List Char
  | [] => []
  | [piece] => piece
  | piece :: next :: rest => piece ++ sep ++ join sep (next :: rest)

/-- Puts a character in front of the first piece. -/
def consFirst (c : Char) : List (List Char) → List (List Char)
  | [] => [[c]]
  | piece :: rest => (c :: piece) :: rest

/--
Cuts the text at the separator. The counter says how many characters of an occurrence are still to
be passed over.
-/
def splitFrom (sep : List Char) : Nat → List Char → List (List Char)
  | _, [] => [[]]
  | skip + 1, _ :: rest => splitFrom sep skip rest
  | 0, c :: rest =>
    if sep.isPrefixOf (c :: rest) then [] :: splitFrom sep (sep.length - 1) rest
    else consFirst c (splitFrom sep 0 rest)

/-- The pieces of a text between the occurrences of a separator; an empty separator does not cut. -/
def split (sep s : List Char) : List (List Char) :=
  if sep.isEmpty then [s] else splitFrom sep 0 s

/-- The run of characters before the first one without a property. -/
theorem takeWhile_append_stop {α : Type} {p : α → Bool} {l : List α} (h : ∀ a ∈ l, p a = true)
    {b : α} (hb : p b = false) (rest : List α) : (l ++ b :: rest).takeWhile p = l := by
  rw [List.takeWhile_append_of_pos h, List.takeWhile_cons_of_neg (by simp [hb]), List.append_nil]

theorem splitFrom_ne_nil (sep : List Char) (skip : Nat) (s : List Char) :
    splitFrom sep skip s ≠ [] := by
  fun_induction splitFrom sep skip s with
  | case1 => simp
  | case2 _ _ _ ih => exact ih
  | case3 => simp
  | case4 c rest _ ih =>
    cases h : splitFrom sep 0 rest with
    | nil => exact absurd h ih
    | cons => simp [consFirst]

theorem split_ne_nil (sep s : List Char) : split sep s ≠ [] := by
  unfold split
  split
  · simp
  · exact splitFrom_ne_nil sep 0 s

theorem join_nil_cons {sep : List Char} {ps : List (List Char)} (h : ps ≠ []) :
    join sep ([] :: ps) = sep ++ join sep ps := by
  cases ps with
  | nil => exact absurd rfl h
  | cons => simp [join]

theorem join_consFirst {sep : List Char} (c : Char) {ps : List (List Char)} (h : ps ≠ []) :
    join sep (consFirst c ps) = c :: join sep ps := by
  match ps, h with
  | [_], _ => rfl
  | _ :: _ :: _, _ => simp [consFirst, join]

end Phrasebook.Text
