import Phrasebook.Interpolator
import Phrasebook.Text.Split

/-!
# Translators

A translator turns a key into a text. The base of all is a `Phrases`: a tree whose keys are paths,
written with a separator. The other translators wrap one: they absorb its translation failures with
a fixed text or with the key, or interpolate what it returns.

Wrapping order matters. A fallback around an interpolated translator also covers interpolation
failures; an interpolated translator around a fallback fills the fallback text.
-/

namespace Phrasebook

variable {σ : Type}

/-! ## Phrases -/

/-- The separator of keys unless another is given. -/
def defaultSeparator : String := "."

/-- A tree whose paths are written as keys with a separator. An empty separator makes the whole key
one segment. -/
structure Phrases where
  tree : Tree
  separator : String := defaultSeparator
deriving Inhabited

/-- The segments of a key. -/
def Phrases.splitKey (p : Phrases) (key : String) : List String :=
  (Text.split p.separator.toList key.toList).map String.ofList

/-- Where a key leads. -/
def Phrases.follow (p : Phrases) (key : String) : Reached :=
  p.tree.follow (p.splitKey key)

/-- Fails because a key does not lead to a text, with a log record that says why. -/
def keyFailure (key reason record : String) : Action σ String := do
  writeLog .debug .lookup record
  failWith (.keyNotFound key reason)

/-- The text at the end of the path of a key. -/
def Phrases.translate (p : Phrases) (key : String) : Action σ String :=
  let shown := "Key " ++ Text.quote key
  match p.follow key with
  | .node (.leaf text) => pure text
  | .node (.branch _) =>
    keyFailure key "incomplete path" (shown ++ " resolves to a branch, not a translation")
  | .missing segment =>
    keyFailure key Fault.noKeyText (shown ++ " has no segment " ++ Text.quote segment)
  | .pastLeaf depth =>
    keyFailure key Fault.noKeyText (shown ++ " runs past leaf at depth " ++ toString depth)

/-- A key that leads to a text is translated by it. -/
theorem Phrases.translate_of_leaf {p : Phrases} {key text : String}
    (h : p.follow key = .node (.leaf text)) (w : World σ) : p.translate key w = .ok text w := by
  simp only [Phrases.translate, h]
  rfl

/-- A key that leads to no text is not found, and one log record says so. -/
theorem Phrases.translate_of_not_leaf {p : Phrases} {key : String}
    (h : ∀ text, p.follow key ≠ .node (.leaf text)) (w : World σ) :
    ∃ reason message, p.translate key w = .error ⟨.keyNotFound key reason, []⟩
      { w with log := w.log ++ [⟨.debug, .lookup, message⟩] } := by
  unfold Phrases.translate
  cases hr : p.follow key with
  | node n =>
    cases n with
    | leaf text => exact absurd hr (h text)
    | branch children => exact ⟨_, _, rfl⟩
  | missing segment => exact ⟨_, _, rfl⟩
  | pastLeaf depth => exact ⟨_, _, rfl⟩

/-! ## Wrapping -/

/-- A way to turn keys into texts. -/
inductive Translator (σ : Type) where
  | phrases (p : Phrases)
  | function (f : String → Source σ → Effect σ String)
  | withDefault (text : String) (inner : Translator σ)
  | keyAsDefault (inner : Translator σ)
  | interpolated (inner : Translator σ) (interpolator : Interpolator σ)

namespace Translator

/-- What the log says when a fallback is used. -/
def fallbackText (what key : String) (f : Fault) : String :=
  "Using " ++ what ++ " for " ++ Text.quote key ++ ": " ++ f.message

/-- The translation of a key, with the properties of a source. -/
def translate : Translator σ → String → Source σ → Action σ String
  | phrases p, key, _ => p.translate key
  | function f, key, source => Effect.act (f key source)
  | withDefault text inner, key, source =>
    handling Fault.isTranslation (inner.translate key source) fun f => do
      writeLog .debug .fallback (fallbackText "default translation" key f.fault)
      return text
  | keyAsDefault inner, key, source =>
    handling Fault.isTranslation (inner.translate key source) fun f => do
      writeLog .debug .fallback (fallbackText "key as translation" key f.fault)
      return key
  | interpolated inner interpolator, key, source => do
    let template ← inner.translate key source
    handling Fault.isInterpolation (interpolator.interpolate template source) fun f =>
      throw (f.become (f.fault.forKey key))

/-- What a translator returns is interpolated, and a failure to do so is one for the key. -/
theorem interpolated_of_ok {t : Translator σ} {key template : String} {source : Source σ}
    {w w' : World σ} (h : t.translate key source w = .ok template w')
    (interpolator : Interpolator σ) :
    (interpolated t interpolator).translate key source w
      = handling Fault.isInterpolation (interpolator.interpolate template source)
        (fun f => throw (f.become (f.fault.forKey key))) w' :=
  bind_of_ok h

theorem interpolated_of_error {t : Translator σ} {key : String} {source : Source σ}
    {w w' : World σ} {f : Failure} (h : t.translate key source w = .error f w')
    (interpolator : Interpolator σ) :
    (interpolated t interpolator).translate key source w = .error f w' :=
  bind_of_error h

/-- Settings of a pipeline around a base translator. -/
structure Pipeline (σ : Type) where
  interpolator : Interpolator σ := .standard
  strict : Bool := true
  default? : Option String := none
  keyAsDefault : Bool := false

/-- The pipeline: interpolation first, then the fallback, which so covers interpolation failures
too. A default text wins over the key. -/
def build (base : Translator σ) (settings : Pipeline σ) : Translator σ :=
  let filled := interpolated base
    (if settings.strict then settings.interpolator else .lenient settings.interpolator)
  match settings.default? with
  | some text => withDefault text filled
  | none => if settings.keyAsDefault then keyAsDefault filled else filled

end Translator

/-! ## Messages -/

/-- A key together with the properties that its translation needs. -/
structure Message (σ : Type) where
  key : String
  source : Source σ

namespace Message

/-- A message whose properties are a fixed map. -/
def ofMap (key : String) (m : PropertyMap) : Message σ := ⟨key, m.source⟩

/-- The text of a message in a translator. -/
def translate (m : Message σ) (translator : Translator σ) : Action σ String :=
  translator.translate m.key m.source

/-- How a message is shown: by its key. -/
def display (m : Message σ) : String :=
  "TranslatableMessage(key=" ++ Text.quote m.key ++ ")"

end Message

end Phrasebook
