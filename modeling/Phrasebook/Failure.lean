import Phrasebook.Text.Quoted

/-!
# Failures

Everything that can go wrong, as causes. A `Failure` is the fault that is reported together with the
faults it arose from, nearest first.

Faults fall into overlapping kinds, because a failed interpolation of a translation is a failure of
the translation and of the interpolation at once. Fallbacks absorb translation failures, and the
lenient interpolator absorbs interpolation failures, by these kinds alone.
-/

namespace Phrasebook

/-- A fault that the library does not foresee: it comes from a caller's function, from a value that
does not exist, or from the place where files are kept. -/
inductive Mishap where
  /-- a caller's function gave up -/
  | raised (message : String)
  /-- a value of a kind that does not fit -/
  | wrongType (message : String)
  /-- no entry under the shown key -/
  | noEntry (shown : String)
  /-- a text that stands for no value, or a value without a text -/
  | noSuchValue
  /-- a number beyond what its use admits -/
  | outOfRange
  /-- a character is needed where the text has ended -/
  | noCharacter
  /-- a text that does not have the form its type demands -/
  | noForm
  /-- a text that is said to be its own part -/
  | endless
  /-- a directory where a file is needed -/
  | isDirectory
  /-- a file where a directory is needed -/
  | notDirectory
  /-- a path, or a name in it, longer than names of files may be -/
  | nameTooLong
deriving Repr, DecidableEq, Inhabited

/-- What is wrong with one setting. -/
inductive SettingProblem where
  | unknownName
  | notText
  | notUnicode
  | notTruthWord
  | notTruthValue
deriving Repr, DecidableEq, Inhabited

/-- The cause of a failure. -/
inductive Fault where
  /-- a fault of the library of no further kind -/
  | general (message : String)
  /-- a source has no property of this name -/
  | propertyNotFound (name message : String)
  /-- a template declares a property that could not be resolved -/
  | interpolation (template property reason : String)
  /-- a translator gave up -/
  | translation (message : String)
  /-- a key does not lead to a translation -/
  | keyNotFound (key reason : String)
  /-- the translation of a key was found but not interpolated; `inner` tells why -/
  | translationInterpolation (key template property inner : String)
  /-- a document does not give a tree -/
  | document (detail : String)
  /-- settings that are not valid, each with the name it was given under -/
  | settings (problems : List (String × SettingProblem))
  /-- a fault that the library does not foresee -/
  | mishap (m : Mishap)
deriving Repr, DecidableEq, Inhabited

namespace Fault

/-- The text of a fault. -/
def message : Fault → String
  | general m => m
  | propertyNotFound _ m => m
  | interpolation template property reason =>
    "interpolating " ++ Text.quote template ++ ": " ++ Text.quote property ++ ": " ++ reason
  | translation m => m
  | keyNotFound key reason => "translating " ++ Text.quote key ++ ": " ++ reason
  | translationInterpolation key _ _ inner => "translating " ++ Text.quote key ++ ": " ++ inner
  | document detail => "unmarshalling translations: " ++ detail
  | settings _ => ""
  | mishap (.raised m) => m
  | mishap (.wrongType m) => m
  | mishap (.noEntry shown) => shown
  | mishap _ => ""

/-- Why a source has no property, unless it says more. -/
def noPropertyText : String := "property not available"

/-- Why a key is not found, unless there is more to say. -/
def noKeyText : String := "not found"

/-! ## Kinds of faults -/

/-- Whether fallbacks absorb the fault. -/
def isTranslation : Fault → Bool
  | translation _ | keyNotFound _ _ | translationInterpolation _ _ _ _ => true
  | _ => false

/-- Whether the fault is a failed interpolation, of a bare template or of a translation. -/
def isInterpolation : Fault → Bool
  | interpolation _ _ _ | translationInterpolation _ _ _ _ => true
  | _ => false

/-- Whether a source has no such property. -/
def isPropertyNotFound : Fault → Bool
  | propertyNotFound _ _ => true
  | _ => false

/-- Whether a key does not lead to a translation. -/
def isKeyNotFound : Fault → Bool
  | keyNotFound _ _ => true
  | _ => false

/-- Whether a document does not give a tree. -/
def isDocument : Fault → Bool
  | document _ => true
  | _ => false

/-- Whether the library foresees the fault. -/
def isForeseen : Fault → Bool
  | settings _ | mishap _ => false
  | _ => true

/-- Whether something was looked up and is not there. -/
def isLookup : Fault → Bool
  | propertyNotFound _ _ | keyNotFound _ _ | mishap (.noEntry _) | mishap .noCharacter => true
  | _ => false

/-- Whether a value does not do for its use. -/
def isBadValue : Fault → Bool
  | interpolation _ _ _ | translationInterpolation _ _ _ _ | document _ | settings _
  | mishap .noSuchValue => true
  | _ => false

/-- The template and the property of a failed interpolation. -/
def interpolated? : Fault → Option (String × String)
  | interpolation template property _ => some (template, property)
  | translationInterpolation _ template property _ => some (template, property)
  | _ => none

theorem interpolated?_isSome (f : Fault) : f.interpolated?.isSome = f.isInterpolation := by
  cases f <;> rfl

/-- The failure of a translation whose interpolation failed with this fault. -/
def forKey (f : Fault) (key : String) : Fault :=
  match f.interpolated? with
  | some (template, property) => translationInterpolation key template property f.message
  | none => f

end Fault

/-- A fault and the faults of the library that it arose from, nearest first. -/
structure Failure where
  fault : Fault
  causes : List Fault := []
deriving Repr, DecidableEq, Inhabited

/-- The failure that a new fault makes out of an earlier one. -/
def Failure.become (inner : Failure) (outer : Fault) : Failure :=
  ⟨outer, if inner.fault.isForeseen then inner.fault :: inner.causes else inner.causes⟩

end Phrasebook
