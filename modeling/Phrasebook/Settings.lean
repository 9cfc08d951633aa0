import Phrasebook.Value.Basic

/-!
# Settings

Where bundles lie, which locale stands in for others, how keys are separated, and whether a failed
interpolation is a failure. Each setting may be given by an argument or by an environment variable;
an argument wins, and what neither gives has a default.

Names match without regard to case. The environment variable of a setting has a common start in
front of the setting's name; other variables are ignored, but an argument of an unknown name is a
problem. All problems are reported together.
-/

namespace Phrasebook

/-- The settings of an engine. -/
structure Settings where
  bundlesDir : String := "config/i18n"
  defaultLocale : String := "en"
  separator : String := "."
  strictInterpolation : Bool := true
deriving Repr, DecidableEq, Inhabited

namespace SettingProblem

/-- The code of a problem. -/
def code : SettingProblem → String
  | unknownName => "extra_forbidden"
  | notText => "string_type"
  | notUnicode => "string_unicode"
  | notTruthWord => "bool_parsing"
  | notTruthValue => "bool_type"

end SettingProblem

namespace Settings

/-! ## Names -/

/-- The four settings. -/
inductive Name where
  | bundlesDir
  | defaultLocale
  | separator
  | strictInterpolation
deriving Repr, DecidableEq, Inhabited

/-- How a setting is written. -/
def Name.text : Name → String
  | bundlesDir => "bundles_dir"
  | defaultLocale => "default_locale"
  | separator => "separator"
  | strictInterpolation => "strict_interpolation"

/-- All settings. -/
def Name.all : List Name := [bundlesDir, defaultLocale, separator, strictInterpolation]

/-- Lower case in ASCII, which is enough to compare with the names of settings. -/
def asciiLower (s : String) : String := s.map Char.toLower

/-- The setting that a name stands for, in any case. -/
def Name.ofText? (s : String) : Option Name :=
  Name.all.find? fun n => n.text == asciiLower s

/-! ## Values -/

/-- A text, or the problem with a value that should be one. -/
def readText : Value → Except SettingProblem String
  | .scalar (.text s) => .ok s
  | .scalar (.bytes bs) =>
    match String.fromUTF8? ⟨bs.toArray⟩ with
    | some s => .ok s
    | none => .error .notUnicode
  | _ => .error .notText

/-- The words for true. -/
def trueWords : List String := ["1", "on", "t", "true", "y", "yes"]

/-- The words for false. -/
def falseWords : List String := ["0", "off", "f", "false", "n", "no"]

/-- The truth value of a word, in any case. -/
def readWord (s : String) : Except SettingProblem Bool :=
  let word := asciiLower s
  if trueWords.contains word then .ok true
  else if falseWords.contains word then .ok false
  else .error .notTruthWord

/-- The first natural number that does not fit in 64 bits with sign. -/
def wordLimit : Nat := Nat.pow 2 63

/-- Whether a whole number fits in 64 bits with sign. -/
def fitsWord (n : Int) : Bool :=
  -(wordLimit : Int) ≤ n && n < wordLimit

/-- The whole number that a floating point number is, if it is one and lies between the ends of the
range of 64 bits. -/
def wholeOf? : Decimal.Parts → Option Int
  | .finite negative m q =>
    let magnitude? : Option Nat :=
      if 0 ≤ q then some (m * Nat.pow 2 q.toNat)
      else if m % Nat.pow 2 (-q).toNat = 0 then some (m / Nat.pow 2 (-q).toNat)
      else none
    (magnitude?.filter (· < wordLimit)).map fun n => if negative then -(n : Int) else n
  | _ => none

/-- The truth value of a whole number. One that needs more than 64 bits is no number for this
purpose. -/
def truthOf (n : Int) : Except SettingProblem Bool :=
  if n = 0 then .ok false
  else if n = 1 then .ok true
  else .error (if fitsWord n then .notTruthWord else .notTruthValue)

/-- A truth value, or the problem with a value that should be one. -/
def readTruth : Value → Except SettingProblem Bool
  | .scalar (.bool b) => .ok b
  | .scalar (.int n) => truthOf n
  | .scalar (.float x) =>
    match wholeOf? (.ofFloat x) with
    | some n => truthOf n
    | none => .error .notTruthValue
  | .scalar (.text s) => readWord s
  | .scalar (.bytes bs) =>
    match String.fromUTF8? ⟨bs.toArray⟩ with
    | some s => readWord s
    | none => .error .notTruthWord
  | _ => .error .notTruthValue

/-! ## Reading settings -/

/-- The value given for a setting: by the last argument of its name, or else by the last variable
of its name. -/
def given? (start : String) (environment : List (String × String))
    (arguments : List (String × Value)) (name : Name) : Option Value :=
  match arguments.reverse.find? fun a => asciiLower a.1 == name.text with
  | some (_, v) => some v
  | none =>
    (environment.reverse.find? fun e => asciiLower e.1 == asciiLower start ++ name.text).map
      fun e => .scalar (.text e.2)

/-- Reads one setting, or notes the problem under its name. -/
def readSetting {α : Type} (given : Name → Option Value) (name : Name) (default : α)
    (read : Value → Except SettingProblem α) : α × List (String × SettingProblem) :=
  match given name with
  | none => (default, [])
  | some v =>
    match read v with
    | .ok a => (a, [])
    | .error p => (default, [(name.text, p)])

/-- The settings that an environment and arguments give; `start` stands in front of the names of
environment variables. -/
def read (start : String) (environment : List (String × String))
    (arguments : List (String × Value)) : Except Fault Settings :=
  let given := given? start environment arguments
  let base : Settings := {}
  let (dir, p₁) := readSetting given .bundlesDir base.bundlesDir readText
  let (locale, p₂) := readSetting given .defaultLocale base.defaultLocale readText
  let (separator, p₃) := readSetting given .separator base.separator readText
  let (strict, p₄) := readSetting given .strictInterpolation base.strictInterpolation readTruth
  let unknown := (arguments.filter fun a => (Name.ofText? a.1).isNone).map
    fun a => (a.1, SettingProblem.unknownName)
  match p₁ ++ p₂ ++ p₃ ++ p₄ ++ unknown with
  | [] => .ok ⟨dir, locale, separator, strict⟩
  | problems => .error (.settings problems)

end Settings

end Phrasebook
