import Phrasebook.Tree.Build
import Phrasebook.Yaml.NodeValue

/-!
# Documents

A document is a text or bytes in the YAML format. Its value is made a tree.

A text that does not follow the rules of the format is a document fault. A text that does, but names
a value that does not exist, such as the thirtieth of February, is a mishap.
-/

namespace Phrasebook

/-- The source of a tree. -/
inductive Document where
  | text (s : String)
  | bytes (content : List UInt8)
deriving Repr, DecidableEq, Inhabited

namespace Document

/-- What a fault says about a text that does not follow the rules of the format. -/
def malformedText : String := "<yaml>"

/-- The fault of a document that cannot be read. -/
def fault : Yaml.Problem → Fault
  | .malformed => .document malformedText
  | .mishap m => .mishap m

/-- The characters of a document. -/
def characters : Document → Except Yaml.Problem (List Char)
  | text s => Yaml.allowed s.toList
  | bytes content => Yaml.readBytes content

/-- The value of a document. -/
def value (d : Document) : Except Yaml.Problem Value := do
  (← Yaml.Graph.ofTokens (.scan (← d.characters))).toValue

/-- The tree of a document. -/
def tree (d : Document) : Except Fault Tree :=
  match d.value with
  | .ok v => Tree.build v
  | .error p => .error (fault p)

end Document

end Phrasebook
