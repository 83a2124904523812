import SolidWorkshop.Intake.Check
import SolidWorkshop.Parameter.Descriptor

/-!
# Requests

What the service is asked for: the parameters of a source text, edited values written back into
it, or a compile.  A compile takes explicit overrides or edited values, but not both.
-/

namespace SolidWorkshop

open Intake

/-- Check an override. -/
def Override.check : Check Override :=
  Check.record "ParameterOverride" fun fields =>
    Override.mk
      <$> Check.required fields "name" (fun v => (Check.text v).andThen fun name =>
        if Override.isName name then .good name
        else .fail (.patternMismatch Override.namePattern) v)
      <*> Check.required fields "value" Check.scalar
      <*> Check.defaulted fields "type" (Check.choice Kind.name Kind.all) .number

/-- Check a descriptor.  Its range is read as doubles. -/
def Descriptor.check : Check Descriptor :=
  Check.record "ParameterDescriptor" fun fields =>
    let bound (name : String) : Checked (Option Number) :=
      Check.defaulted fields name (Check.optional fun v => (Check.double v).map .float) none
    Descriptor.mk
      <$> Check.required fields "name" Check.text
      <*> Check.defaulted fields "section" (Check.optional Check.text) none
      <*> Check.required fields "line" Check.integer
      <*> (String.toList <$> Check.required fields "raw_line" Check.text)
      <*> (String.toList <$> Check.required fields "raw_value" Check.text)
      <*> Check.required fields "value_start" Check.integer
      <*> Check.required fields "value_end" Check.integer
      <*> Check.defaulted fields "comment" Check.text ""
      <*> Check.defaulted fields "description" Check.text ""
      <*> Check.required fields "type" (Check.choice Kind.name Kind.all)
      <*> Check.required fields "value" Check.scalar
      <*> Check.required fields "default" Check.scalar
      <*> Check.defaulted fields "options" (Check.optional (Check.list Check.option)) none
      <*> bound "min"
      <*> bound "max"
      <*> bound "step"
      <*> Check.defaulted fields "ambiguous_annotation" Check.truth false

/-- Overrides as a dynamic value. -/
def overridesValue (overrides : List Override) : Value :=
  .list (overrides.map Override.toValue)

/-- A list of overrides among the fields of a record. -/
def overridesField (fields : List (String × Value)) : Checked (List Override) :=
  Check.defaulted fields "overrides" (Check.list Override.check) []

/-- The question for the parameters of a source text. -/
structure ExtractRequest where
  source : String

/-- Check the question for the parameters of a source text. -/
def ExtractRequest.check : Check ExtractRequest :=
  Check.record "ExtractRequest" fun fields =>
    ExtractRequest.mk <$> Check.required fields "source_text" Check.text

/-- Edited values to be written into a source text. -/
structure SynthesizeRequest where
  source : String
  edits : List (String × Value)

/-- Check edited values to be written into a source text. -/
def SynthesizeRequest.check : Check SynthesizeRequest :=
  Check.record "SynthesizeRequest" fun fields =>
    SynthesizeRequest.mk
      <$> Check.required fields "source_text" Check.text
      <*> Check.defaulted fields "values" Check.dict []

/-- The parameters of a source text. -/
structure ExtractResponse where
  parameters : List Descriptor
  sections : List String
  ambiguous : List String

namespace ExtractResponse

/-- Check the parameters of a source text. -/
def check : Check ExtractResponse :=
  Check.record "ExtractResponse" fun fields =>
    ExtractResponse.mk
      <$> Check.defaulted fields "parameters" (Check.list Descriptor.check) []
      <*> Check.defaulted fields "sections" (Check.list Check.text) []
      <*> Check.defaulted fields "ambiguous" (Check.list Check.text) []

/-- The parameters of a source text as a dynamic value. -/
def toValue (r : ExtractResponse) : Except Failure Value := do
  let parameters ← r.parameters.mapM fun d => do
    return d.toValue (.ofOption Number.toValue (← d.sliderStep))
  return .dict [("parameters", .list parameters), ("sections", .list (r.sections.map .text)),
    ("ambiguous", .list (r.ambiguous.map .text))]

end ExtractResponse

/-- A source text with edited values in it, and the overrides for them. -/
structure SynthesizeResponse where
  source : String
  overrides : List Override

namespace SynthesizeResponse

/-- Check a source text with edited values in it. -/
def check : Check SynthesizeResponse :=
  Check.record "SynthesizeResponse" fun fields =>
    SynthesizeResponse.mk
      <$> Check.required fields "source_text" Check.text
      <*> overridesField fields

/-- A source text with edited values in it, as a dynamic value. -/
def toValue (r : SynthesizeResponse) : Value :=
  .dict [("source_text", .text r.source), ("overrides", overridesValue r.overrides)]

end SynthesizeResponse

/-- A source text to be compiled, with overrides or with edited values. -/
structure CompileRequest where
  source : String
  overrides : List Override
  edits : Option (List (String × Value))
  requestId : Option String
  metadata : List (String × Value)
  extra : List (String × Value)

namespace CompileRequest

/-- The names of the fields. -/
def fieldNames : List String :=
  ["source_text", "overrides", "values", "request_id", "metadata"]

/-- Why a request whose fields are in order is refused. -/
def refusal? (r : CompileRequest) : Option String :=
  if (Text.trim r.source.toList).isEmpty then some "source_text must not be empty"
  else if r.edits.isSome && !r.overrides.isEmpty then
    some "Provide either overrides or values, not both"
  else none

/-- Check a request for a compile; unknown fields are kept. -/
def check : Check CompileRequest := fun v =>
  Checked.andThen
    (Check.record "CompileRequest" (fun fields =>
      CompileRequest.mk
        <$> Check.required fields "source_text" Check.text
        <*> overridesField fields
        <*> Check.defaulted fields "values" (Check.optional Check.dict) none
        <*> Check.defaulted fields "request_id" (Check.optional Check.text) none
        <*> Check.defaulted fields "metadata" Check.dict []
        <*> .good (fields.filter fun (name, _) => !fieldNames.contains name)) v)
    fun r =>
      match r.refusal? with
      | some reason => .fail (.refused reason) v
      | none => .good r

/-- The request as a dynamic value. -/
def toValue (r : CompileRequest) : Value :=
  .dict ([
    ("source_text", .text r.source),
    ("overrides", overridesValue r.overrides),
    ("values", .ofOption .dict r.edits),
    ("request_id", .ofOption .text r.requestId),
    ("metadata", .dict r.metadata)] ++ r.extra)

end CompileRequest

/-- A request body taken out of its envelope. -/
structure Payload where
  data : Value
  metadata : List (String × Value)
  wrapped : Bool

namespace Payload

/-- Check an envelope: data and what is said about them. -/
def checkEnvelope : Check (List (String × Value) × List (String × Value)) :=
  Check.record "ToolEnvelope" fun fields =>
    Prod.mk
      <$> Check.defaulted fields "data" Check.dict []
      <*> Check.defaulted fields "meta" Check.dict []

/-- Take a request body out of its envelope; a body without one is its own data. -/
def unwrap (body : Value) : Except Failure Payload :=
  match body with
  | .dict fields =>
    match fields.lookup "data" with
    | some (.dict _) => do
      let (data, metadata) ← (checkEnvelope body).orInvalid "ToolEnvelope"
      return ⟨.dict data, metadata, true⟩
    | _ => .ok ⟨body, [], false⟩
  | _ => .error .notAnObject

end Payload

end SolidWorkshop
