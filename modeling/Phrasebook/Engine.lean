import Phrasebook.Document
import Phrasebook.Files
import Phrasebook.Settings
import Phrasebook.Translator

/-!
# Engines

An engine holds one bundle of phrases per locale, all with the separator of its settings, read from
the files of a directory: the stem of a file's name is the locale, and its suffix says that it is a
bundle. Files are visited in the order of their names, and the first file of a locale wins.

A key is looked up in the locale that is asked for, then in the default locale; a key that neither
has stands for itself. Only a key that is not found leads on: a translation that is found but cannot
be interpolated is a failure.
-/

namespace Phrasebook

variable {σ : Type}

/-! ## Options -/

/-- What may be given to an engine on top of its settings. -/
structure EngineOptions where
  bundlesDir? : Option String := none
  defaultLocale? : Option String := none
  separator? : Option String := none
deriving Repr, Inhabited

/-- A text that is given and not empty, or else another. -/
def orIfEmpty (given? : Option String) (other : String) : String :=
  match given? with
  | some s => if s.isEmpty then other else s
  | none => other

/-- Without a locale of its own, what stands in stands for itself. -/
theorem orIfEmpty_self (s : String) : orIfEmpty (some s) s = s :=
  ite_self _

theorem orIfEmpty_orIfEmpty (given? : Option String) (other : String) :
    orIfEmpty (some (orIfEmpty given? other)) other = orIfEmpty given? other := by
  cases given? with
  | none => exact orIfEmpty_self other
  | some s =>
    by_cases h : s.isEmpty
    · simp [orIfEmpty, h]
    · simp [orIfEmpty, h]

/-- The settings with the options in force. An empty directory or locale counts as not given, an
empty separator does not. -/
def EngineOptions.apply (o : EngineOptions) (s : Settings) : Settings :=
  { s with
    bundlesDir := orIfEmpty o.bundlesDir? s.bundlesDir
    defaultLocale := orIfEmpty o.defaultLocale? s.defaultLocale
    separator := o.separator?.getD s.separator }

/-- The bundles of a number of locales, in the order in which they were read, and what to do with
them. No locale has two, and all keys are split as the settings say. -/
structure Engine where
  settings : Settings
  bundles : List (String × Phrases)
  distinct : (bundles.map Prod.fst).Nodup
  separated : ∀ b ∈ bundles, b.2.separator = settings.separator

namespace Engine

/-- The engine without bundles. -/
def bare (settings : Settings) : Engine where
  settings := settings
  bundles := []
  distinct := List.nodup_nil
  separated _ hb := absurd hb List.not_mem_nil

@[simp]
theorem bundles_bare (settings : Settings) : (bare settings).bundles = [] := rfl

instance : Inhabited Engine := ⟨bare default⟩

/-- The engine with a tree for a locale. -/
def put (e : Engine) (locale : String) (tree : Tree) : Engine where
  settings := e.settings
  bundles := putEntry locale ⟨tree, e.settings.separator⟩ e.bundles
  distinct := nodup_putEntry locale _ e.distinct
  separated b hb := by
    rcases mem_putEntry hb with rfl | hb
    · rfl
    · exact e.separated b hb

/-! ## Reading bundles -/

/-- The suffixes of bundles. -/
def suffixes : List String := [".yml", ".yaml", ".json"]

/-- The entries of a directory that are bundles by their names, in the order of the names. -/
def candidates (entries : List (String × FileTree)) : List (String × FileTree) :=
  (entries.filter fun e => suffixes.contains (splitName e.1).2).mergeSort
    fun a b => decide (a.1 ≤ b.1)

/-- The tree of the file at a path. A document fault names the path. -/
def readTree (path : Path) : FileTree → Action σ Tree
  | .directory _ => failWith (.mishap .isDirectory)
  | .file content =>
    handling Fault.isDocument (ofResult (Document.bytes content).tree) fun f =>
      match f.fault with
      | .document detail => throw (f.become (.document (path.text ++ ": " ++ detail)))
      | _ => throw f

/-- Adds the bundle that an entry of the directory is, unless its locale has one. -/
def addBundle (directory : Path) (e : Engine) (entry : String × FileTree) : Action σ Engine := do
  let path := directory.child entry.1
  let locale := (splitName entry.1).1
  if (valueUnder? locale e.bundles).isSome then
    writeLog .warning .engine
      ("Ignoring duplicate bundle " ++ path.text ++ " for locale " ++ Text.quote locale)
    return e
  let tree ← readTree path entry.2
  writeLog .info .engine
    ("Loaded " ++ toString tree.size ++ " top-level keys for locale " ++ Text.quote locale
      ++ " from " ++ path.text)
  return e.put locale tree

/-- The engine with these settings, its bundles read. A directory that does not exist has none. -/
def load (files : FileSystem) (settings : Settings) : Action σ Engine := do
  let directory := Path.ofString settings.bundlesDir
  match files.find? directory with
  | .error m => failWith (.mishap m)
  | .ok none =>
    writeLog .warning .engine ("Bundles directory " ++ directory.text ++ " does not exist")
    return bare settings
  | .ok (some (.file _)) => failWith (.mishap .notDirectory)
  | .ok (some (.directory entries)) =>
    (candidates entries).foldlM (addBundle directory) (bare settings)

/-! ## Bundles -/

/-- The locales that have a bundle, in order. -/
def locales (e : Engine) : List String :=
  (e.bundles.map Prod.fst).mergeSort fun a b => decide (a ≤ b)

/-- The locale that stands in for others. -/
def defaultLocale (e : Engine) : String := e.settings.defaultLocale

/-- The tree of a locale, empty if the locale has no bundle. -/
def bundle (e : Engine) (locale : String) : Tree :=
  ((valueUnder? locale e.bundles).map Phrases.tree).getD .empty

/-! ## Translating -/

/-- The interpolator of all translations. -/
def interpolator (e : Engine) : Interpolator σ :=
  if e.settings.strictInterpolation then .standard else .lenient .standard

/-- The translator of a locale, or of the default locale if none is given. -/
def translator? (e : Engine) (locale? : Option String) : Option (Translator σ) :=
  (valueUnder? (orIfEmpty locale? e.defaultLocale) e.bundles).map
    fun phrases => .interpolated (.phrases phrases) e.interpolator

/-- Translates in the first of the candidate locales that has the key; the key itself if none
has. -/
def translateIn (e : Engine) (key locale : String) (source : Source σ) :
    List String → Action σ String
  | [] => do
    writeLog .debug .engine
      ("Key " ++ Text.quote key ++ " not found in any locale, returning key")
    return key
  | candidate :: rest =>
    match e.translator? (some candidate) with
    | none => e.translateIn key locale source rest
    | some translator => do
      let found? ← handling Fault.isKeyNotFound (some <$> translator.translate key source)
        fun _ => pure none
      match found? with
      | none => e.translateIn key locale source rest
      | some text =>
        if candidate != locale then
          writeLog .warning .engine
            ("Key " ++ Text.quote key ++ " missing in locale " ++ Text.quote locale ++ ", used "
              ++ Text.quote candidate)
        return text

/-- The texts of properties, or the fault of the first that has none. -/
def propertyTexts : List (String × Value) → Except Fault (List (String × String))
  | [] => .ok []
  | (name, v) :: rest => do
    let text ← v.text
    return (name, text) :: (← propertyTexts rest)

/-- Translates a key in a locale, or in the default locale if none is given. Properties are asked
before the source. -/
def translate (e : Engine) (key : String) (locale? : Option String) (source? : Option (Source σ))
    (properties : List (String × Value)) : Action σ String := do
  let locale := orIfEmpty locale? e.defaultLocale
  let values : Source σ := (PropertyMap.mk (← ofResult (propertyTexts properties))).source
  let source := match source? with
    | none => values
    | some s => if properties.isEmpty then s else Source.chain [values, s]
  e.translateIn key locale source
    (if locale = e.defaultLocale then [locale] else [locale, e.defaultLocale])

end Engine

end Phrasebook
