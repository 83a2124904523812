import SolidWorkshop.Source.Synthesis

/-!
# Editing sessions

A source text with the parameters extracted from it.  Values are set one by one or by name, and
the text can be written with the values as they are.  What was written last is remembered, so that
it can be extracted again.
-/

namespace SolidWorkshop.Source

/-- A source text, its parameters, and the text written last. -/
structure Session where
  source : String
  descriptors : List Descriptor
  last : String

namespace Session

/-- A session on a source text. -/
def ofSource (source : String) : Except Failure Session := do
  return ⟨source, ← extract source.toList, source⟩

/-- The place of a parameter by its index; a negative one counts from the end. -/
def at? (s : Session) (index : Int) : Except Failure (Nat × Descriptor) :=
  match Text.place? s.descriptors.length index with
  | none => .error .outOfRange
  | some place =>
    match s.descriptors[place]? with
    | some d => .ok (place, d)
    | none => .error .outOfRange

/-- Set the value of one parameter: the session, and the parameter as it is then. -/
def set (s : Session) (index : Int) (raw : Value) : Except Failure (Session × Descriptor) := do
  let (place, d) ← s.at? index
  let d ← d.set raw
  return ({ s with descriptors := s.descriptors.set place d }, d)

/-- The index of the first parameter of a name. -/
def indexOf? (s : Session) (name : String) : Option Nat :=
  s.descriptors.findIdx? (·.name == name)

/-- Set values by name.  What was set before a refusal stays. -/
def apply (s : Session) (edits : Edits) : Session × Option Failure :=
  let (descriptors, refusal) := applyEdits s.descriptors edits
  ({ s with descriptors }, refusal)

/-- The line of one parameter with its current value. -/
def render (s : Session) (index : Int) : Except Failure String := do
  let (_, d) ← s.at? index
  return String.ofList (← d.render)

/-- Write the current values of all parameters, or of some in a given order, into the session's
text or another one. -/
def synthesize (s : Session) (indices : Option (List Int)) (source : Option String) :
    Except Failure Session := do
  let descriptors ← match indices with
    | some indices => indices.mapM fun index => (s.at? index).map (·.2)
    | none => .ok s.descriptors
  let written ← Source.synthesize (source.getD s.source).toList descriptors
  return { s with last := String.ofList written }

/-- Start again from the text written last, or from another one. -/
def reextract (s : Session) (source : Option String) : Except Failure Session := do
  let source := source.getD s.last
  return { s with source, descriptors := ← extract source.toList }

/-- The overrides of all parameters. -/
def overrides (s : Session) : Except Failure (List Override) :=
  s.descriptors.mapM Descriptor.toOverride

end Session

end SolidWorkshop.Source
