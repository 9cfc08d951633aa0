import Phrasebook.Tree.Build

/-!
# Walking a value

A value can be walked as it stands, before anything is made of it. A segment leads on from a
mapping to the last entry whose key has it as text, from a row to the item at the place that it
writes, and from a single value nowhere.

`placeOf?` reads a place: decimal digits without sign and without leading zeros.
`placeOf?_eq_some_iff` says that these are exactly the texts of the natural numbers.
-/

namespace Phrasebook

/-! ## Places -/

/-- Decimal digits, at least one, and no zero in front of others. -/
def isPlace : List Char → Bool
  | [] => false
  | c :: rest => c.isDigit && rest.all Char.isDigit && (c != '0' || rest.isEmpty)

/-- The place that a segment writes. -/
def placeOf? (segment : String) : Option Nat :=
  if isPlace segment.toList then some (Nat.ofDigitChars 10 segment.toList 0) else none

theorem isPlace_cons_iff {c : Char} {rest : List Char} :
    isPlace (c :: rest) = true ↔
      c.isDigit = true ∧ (∀ d ∈ rest, d.isDigit = true) ∧ (c = '0' → rest = []) := by
  simp only [isPlace, Bool.and_eq_true, List.all_eq_true, Bool.or_eq_true, bne_iff_ne,
    List.isEmpty_iff, and_assoc, ne_eq, Decidable.imp_iff_not_or]

/-- The value of a digit, and the digit of that value. -/
theorem digitChar_of_isDigit {c : Char} (h : c.isDigit = true) :
    ∃ d < 10, c.toNat - '0'.toNat = d ∧ d.digitChar = c := by
  simp only [Char.isDigit, Bool.and_eq_true, decide_eq_true_eq, ge_iff_le,
    UInt32.le_iff_toNat_le] at h
  have hlo : 48 ≤ c.toNat := h.1
  have hhi : c.toNat ≤ 57 := h.2
  have hd : c.toNat - 48 < 10 := by omega
  refine ⟨c.toNat - 48, hd, rfl, ?_⟩
  rw [← Char.toNat_inj, Nat.toNat_digitChar_of_lt_ten hd]
  omega

/-- Digits behind a number that is not zero write the number that they spell together. -/
theorem toDigits_ofDigitChars {cs : List Char} (hcs : ∀ c ∈ cs, c.isDigit = true) {n : Nat}
    (hn : 0 < n) : Nat.toDigits 10 (Nat.ofDigitChars 10 cs n) = Nat.toDigits 10 n ++ cs := by
  induction cs generalizing n with
  | nil => rw [Nat.ofDigitChars_nil, List.append_nil]
  | cons c cs ih =>
    obtain ⟨d, hd, hval, hchar⟩ := digitChar_of_isDigit (hcs c List.mem_cons_self)
    rw [Nat.ofDigitChars_cons, hval, ih (fun e he => hcs e (List.mem_cons_of_mem c he)) (by omega),
      ← Nat.toDigits_append_toDigits (by decide) hn hd, Nat.toDigits_of_lt_base hd, hchar,
      List.append_assoc, List.singleton_append]

/-- A place is what its number is written as. -/
theorem toDigits_of_isPlace {cs : List Char} (h : isPlace cs = true) :
    Nat.toDigits 10 (Nat.ofDigitChars 10 cs 0) = cs := by
  cases cs with
  | nil => cases h
  | cons c rest =>
    obtain ⟨hc, hrest, hzero⟩ := isPlace_cons_iff.1 h
    obtain ⟨d, hd, hval, hchar⟩ := digitChar_of_isDigit hc
    rw [Nat.ofDigitChars_cons, hval, Nat.mul_zero, Nat.zero_add]
    rcases Nat.eq_zero_or_pos d with rfl | hpos
    · rw [hzero hchar.symm, ← hchar]
      rfl
    · rw [toDigits_ofDigitChars hrest hpos, Nat.toDigits_of_lt_base hd, hchar,
        List.singleton_append]

/-- A number is written as a place. -/
theorem isPlace_toDigits (n : Nat) : isPlace (Nat.toDigits 10 n) = true := by
  induction n using Nat.base_induction 10 (by decide) with
  | single d hd =>
    rw [Nat.toDigits_of_lt_base hd]
    refine isPlace_cons_iff.2 ⟨?_, fun _ h => absurd h List.not_mem_nil, fun _ => rfl⟩
    rw [Nat.isDigit_digitChar, decide_eq_true hd]
  | digit m d hd hm ih =>
    rw [← Nat.toDigits_append_toDigits (by decide) hm hd, Nat.toDigits_of_lt_base hd]
    have hvalue : Nat.ofDigitChars 10 (Nat.toDigits 10 m) 0 = m := Nat.ofDigitChars_ten_toDigits
    cases hcs : Nat.toDigits 10 m with
    | nil => exact absurd hcs Nat.toDigits_ne_nil
    | cons c rest =>
      rw [hcs] at ih hvalue
      obtain ⟨hc, hrest, hzero⟩ := isPlace_cons_iff.1 ih
      refine isPlace_cons_iff.2 ⟨hc, fun e he => ?_, ?_⟩
      · rcases List.mem_append.1 he with he | he
        · exact hrest e he
        · rw [List.mem_singleton.1 he, Nat.isDigit_digitChar, decide_eq_true hd]
      · rintro rfl
        -- a zero in front would be all of `m`
        rw [hzero rfl] at hvalue
        exact absurd hvalue (Nat.ne_of_lt hm)

theorem placeOf?_eq_some_iff {segment : String} {n : Nat} :
    placeOf? segment = some n ↔ segment = Nat.repr n := by
  rw [placeOf?, Option.ite_none_right_eq_some, Option.some.injEq, ← String.toList_inj,
    Nat.toList_repr]
  constructor
  · rintro ⟨h, rfl⟩
    exact (toDigits_of_isPlace h).symm
  · intro h
    rw [h]
    exact ⟨isPlace_toDigits n, Nat.ofDigitChars_ten_toDigits⟩

/-! ## Walking values -/

/-- A part of a tree as a value. -/
def Part.value : Part → Value
  | text s => .ofString s
  | tree t => .tree t

/-- The value of the last entry whose key has the segment as text. -/
def lastUnder? (segment : String) (entries : List (Key × Value)) : Option Value :=
  (entries.reverse.find? fun e => e.1.text? == some segment).map Prod.snd

/-- Where a segment leads from a value. -/
def Value.child? : Value → String → Option Value
  | .list items, segment => (placeOf? segment).bind fun i => items[i]?
  | .tuple items, segment => (placeOf? segment).bind fun i => items[i]?
  | .map entries, segment => lastUnder? segment entries
  | .tree t, segment => (valueUnder? segment t.parts).map Part.value
  | _, _ => none

/-- Where a path leads from a value. -/
def Value.at? : Value → List String → Option Value
  | v, [] => some v
  | v, segment :: rest => (v.child? segment).bind fun u => u.at? rest

/-- Whether a walk that ends at the value ends at a branch. -/
def Value.isBranch : Value → Bool
  | .list _ => true
  | .tuple _ => true
  | .map _ => true
  | .tree _ => true
  | _ => false

/-! ## Walking nodes -/

/-- Where a segment leads from a node. -/
def Node.child? : Node → String → Option Node
  | .leaf _, _ => none
  | .branch children, segment => valueUnder? segment children

/-- Where a path leads from a node. -/
def Node.at? : Node → List String → Option Node
  | n, [] => some n
  | n, segment :: rest => (n.child? segment).bind fun m => m.at? rest

/-- The node that a path reaches, when it reaches one. -/
def Reached.node? : Reached → Option Node
  | .node n => some n
  | _ => none

theorem node?_followFrom (depth : Nat) (n : Node) (path : List String) :
    (n.followFrom depth path).node? = n.at? path := by
  induction path generalizing depth n with
  | nil => cases n <;> rfl
  | cons segment rest ih =>
    cases n with
    | leaf text => rfl
    | branch children =>
      rw [Node.followFrom, Node.at?, Node.child?]
      cases valueUnder? segment children with
      | none => rfl
      | some child => exact ih (depth + 1) child

/-- A tree is walked from its node. -/
theorem Tree.at?_eq (t : Tree) (path : List String) : t.at? path = t.node.at? path := by
  rw [← node?_followFrom 0 t.node path, Tree.at?, Tree.follow]
  cases t.node.followFrom 0 path <;> rfl

/-! ## What documents hold -/

mutual

/-- Whether no part of the value is one of the containers around it. -/
def Value.selfFree : Value → Bool
  | .list items => Value.selfFreeAll items
  | .tuple items => Value.selfFreeAll items
  | .map entries => Value.selfFreeEntries entries
  | .enclosing _ _ => false
  | _ => true

/-- Whether no part of a row is one of the containers around it. -/
def Value.selfFreeAll : List Value → Bool
  | [] => true
  | v :: rest => v.selfFree && Value.selfFreeAll rest

/-- Whether no part of the entries is one of the containers around them. -/
def Value.selfFreeEntries : List (Key × Value) → Bool
  | [] => true
  | (_, v) :: rest => v.selfFree && Value.selfFreeEntries rest

end

mutual

/-- Whether every key and every single value in the value has a text. -/
def Value.hasTexts : Value → Bool
  | .scalar s => s.text?.isSome
  | .list items => Value.haveTexts items
  | .tuple items => Value.haveTexts items
  | .map entries => Value.entriesHaveTexts entries
  | .set members => (Value.set members).text?.isSome
  | _ => true

/-- Whether every key and every single value in a row has a text. -/
def Value.haveTexts : List Value → Bool
  | [] => true
  | v :: rest => v.hasTexts && Value.haveTexts rest

/-- Whether every key and every single value in the entries has a text. -/
def Value.entriesHaveTexts : List (Key × Value) → Bool
  | [] => true
  | (key, v) :: rest => key.text?.isSome && (v.hasTexts && Value.entriesHaveTexts rest)

end

end Phrasebook
