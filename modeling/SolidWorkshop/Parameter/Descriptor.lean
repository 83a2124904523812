import SolidWorkshop.Parameter.Override
import SolidWorkshop.Text.Split

/-!
# Parameter descriptors

A descriptor stands for one assignment of the source text that a user may edit: the line it was
taken from, the place of the literal in it, and the value edited so far.  The places hold only
as long as the text is the one it was taken from.
-/

namespace SolidWorkshop

/-- An assignment that can be edited. -/
structure Descriptor where
  name : String
  sectionTitle : Option String
  line : Int
  rawLine : List Char
  rawValue : List Char
  valueStart : Int
  valueEnd : Int
  comment : String
  description : String
  kind : Kind
  value : Scalar
  default : Scalar
  options : Option (List Scalar)
  min : Option Number
  max : Option Number
  step : Option Number
  ambiguous : Bool
  deriving DecidableEq

namespace Descriptor

/-- The step of a slider that has none of its own: fine for a span of up to ten. -/
def defaultStep (span : Number) : Number :=
  if span.le (.int 10) then .float (.ofDecimal false 1 (-1)) else .int 1

/-- The step of the slider for a parameter with a range. -/
def sliderStep (d : Descriptor) : Except Failure (Option Number) :=
  match d.min, d.max with
  | some low, some high =>
    match d.step with
    | some step => .ok (some step)
    | none =>
      match high.sub? low with
      | some span => .ok (some (defaultStep span))
      | none => .error .integerTooLarge
  | _, _ => .ok none

/-- Take an edited value. -/
def set (d : Descriptor) (raw : Value) : Except Failure Descriptor := do
  return { d with value := ← coerce d.kind raw }

/-- The value is the one in the source text. -/
def isUnchanged (d : Descriptor) : Bool :=
  d.value.eq d.default

/-- The literal of the current value. -/
def literal (d : Descriptor) : Except Failure String :=
  SolidWorkshop.literal d.kind d.value.toValue

/-- The line with the current value in it. -/
def render (d : Descriptor) : Except Failure (List Char) :=
  if d.isUnchanged then .ok d.rawLine
  else do
    return Text.replaceBetween d.rawLine d.valueStart d.valueEnd (← d.literal).toList

/-- The override that tells the engine the current value. -/
def toOverride (d : Descriptor) : Except Failure Override :=
  if Override.isName d.name then .ok ⟨d.name, d.value, d.kind⟩
  else
    .error (.invalid "ParameterOverride"
      [⟨.patternMismatch Override.namePattern, [.key "name"], .text d.name⟩])

/-- The descriptor as a dynamic value, with a value for the step of its slider. -/
def toValue (d : Descriptor) (sliderStep : Value) : Value :=
  .dict [
    ("name", .text d.name),
    ("section", .ofOption .text d.sectionTitle),
    ("line", .int d.line),
    ("raw_line", .text (String.ofList d.rawLine)),
    ("raw_value", .text (String.ofList d.rawValue)),
    ("value_start", .int d.valueStart),
    ("value_end", .int d.valueEnd),
    ("comment", .text d.comment),
    ("description", .text d.description),
    ("type", .text d.kind.name),
    ("value", d.value.toValue),
    ("default", d.default.toValue),
    ("options", .ofOption (fun items => .list (items.map Scalar.toValue)) d.options),
    ("min", .ofOption Number.toValue d.min),
    ("max", .ofOption Number.toValue d.max),
    ("step", .ofOption Number.toValue d.step),
    ("ambiguous_annotation", .bool d.ambiguous),
    ("slider_step", sliderStep)]

end Descriptor

end SolidWorkshop
