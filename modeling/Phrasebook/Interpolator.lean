import Phrasebook.Source
import Phrasebook.Template

/-!
# Interpolators

An interpolator fills a template with properties. The placeholder interpolator asks the source for
every declaration in order, uses the default of a declaration where the source has no such
property, and fails at the first declaration that has neither. What it puts in is never read again.
Where one literal occurs several times, the answer at its first occurrence fills them all.

The lenient interpolator gives the raw template back where the inner one fails to interpolate.
-/

namespace Phrasebook

variable {σ : Type}

/-- A way to fill templates. -/
inductive Interpolator (σ : Type) where
  | placeholder (g : Grammar)
  | lenient (inner : Interpolator σ)
  | function (f : String → Source σ → Effect σ String)

/-- The interpolator of the standard grammar. -/
def Interpolator.standard : Interpolator σ := .placeholder .standard

/-! ## Resolving declarations -/

/-- The text for one declaration of a template. -/
def Declaration.resolve (template : String) (source : Source σ) (d : Declaration) :
    Effect σ String :=
  handling Fault.isPropertyNotFound (source d.name) fun f =>
    match d.default? with
    | some text => pure text
    | none => throw (f.become (.interpolation template d.name f.fault.message))

/-- The texts for a row of declarations, each under its literal; a literal keeps its first text. -/
def resolveAll (template : String) (source : Source σ) :
    List (String × String) → List Declaration → Effect σ (List (String × String))
  | table, [] => pure table
  | table, d :: rest => do
    let text ← d.resolve template source
    resolveAll template source
      (if (valueUnder? d.literal table).isSome then table else putEntry d.literal text table) rest

/-- Fills a template whose declarations follow a grammar. -/
def Grammar.fill (g : Grammar) (template : String) (source : Source σ) : Effect σ String := do
  let table ← resolveAll template source [] (g.declarations template)
  return String.ofList
    (fillSegments (fun d => ((valueUnder? d.literal table).getD "").toList) (g.segments template))

/-! ## Interpolating -/

/-- What the log says when the lenient interpolator gives a raw template back. -/
def suppressedText (f : Fault) : String :=
  "Interpolation suppressed, returning raw template: " ++ f.message

/-- Fills a template with the properties of a source. -/
def Interpolator.interpolate : Interpolator σ → String → Source σ → Action σ String
  | placeholder g, template, source => (g.fill template source).act
  | lenient inner, template, source =>
    handling Fault.isInterpolation (inner.interpolate template source) fun f => do
      writeLog .debug .interpolation (suppressedText f.fault)
      return template
  | function f, template, source => Effect.act (f template source)

end Phrasebook
