import Phrasebook.Value.Basic

/-!
# Texts of values

The text of a container shows its items in order, each in the form that it has inside a container:
texts quoted, truth values and nothing spelled out. A container that holds itself shows dots in
place of the inner copy.

A whole number with too many digits has no text, and so has no container that shows it.
-/

namespace Phrasebook

/-! ## Shapes -/

/-- The text of a row between two brackets. -/
def bracketed (opening closing : String) (items : List String) : String :=
  opening ++ ", ".intercalate items ++ closing

/-- The text of a tuple; a comma tells a tuple of one item from a value in brackets. -/
def tupleText (items : List String) : String :=
  match items with
  | [item] => "(" ++ item ++ ",)"
  | _ => bracketed "(" ")" items

/-- The text of a set. -/
def setText (members : List String) : String :=
  if members.isEmpty then "set()" else bracketed "\x7b" "\x7d" members

/-! ## Keys -/

mutual

/-- The text of a key inside a container. -/
def Key.display? : Key → Option String
  | .scalar s => s.display?
  | .tuple items => (Key.displayAll? items).map tupleText

/-- The texts of a row of keys. -/
def Key.displayAll? : List Key → Option (List String)
  | [] => some []
  | k :: rest => do
    let text ← k.display?
    return text :: (← Key.displayAll? rest)

end

/-- The segment that a key becomes. -/
def Key.text? : Key → Option String
  | .scalar s => s.text?
  | .tuple items => (Key.tuple items).display?

/-! ## Values -/

/-- What stands for the inner copy of a container that holds itself. -/
def Shape.dots : Shape → String
  | list => "[...]"
  | map => "\x7b...\x7d"

mutual

/-- The text of a value inside a container. -/
def Value.display? : Value → Option String
  | .scalar s => s.display?
  | .list items => (Value.displayAll? items).map (bracketed "[" "]")
  | .tuple items => (Value.displayAll? items).map tupleText
  | .map entries => (Value.displayEntries? entries).map (bracketed "\x7b" "\x7d")
  | .set members => (Key.displayAll? members).map setText
  | .tree t => some t.display
  | .enclosing shape _ => some shape.dots

/-- The texts of a row of values. -/
def Value.displayAll? : List Value → Option (List String)
  | [] => some []
  | v :: rest => do
    let text ← v.display?
    return text :: (← Value.displayAll? rest)

/-- The texts of the entries of a mapping. -/
def Value.displayEntries? : List (Key × Value) → Option (List String)
  | [] => some []
  | (key, v) :: rest => do
    let keyText ← key.display?
    let text ← v.display?
    return (keyText ++ ": " ++ text) :: (← Value.displayEntries? rest)

end

/-- The text that a translation shows for a value. -/
def Value.text? : Value → Option String
  | .scalar s => s.text?
  | v => v.display?

/-- The text of a value, or the fault that it has none. -/
def Value.text (v : Value) : Except Fault String :=
  match v.text? with
  | some s => .ok s
  | none => .error (.mishap .noSuchValue)

example : (Value.list [.scalar .null, .enclosing .list 0, .tuple [.scalar (.bool true)]]).text?
    = some "[None, [...], (True,)]" := by decide +kernel

end Phrasebook
