import SolidWorkshop.Job.Board
import SolidWorkshop.Library.Resolution
import SolidWorkshop.Service.Settings
import SolidWorkshop.Source.Synthesis

/-!
# Views

What callers are told, as dynamic values: about the service, about the parameters of a source
text, and about a job and its end.
-/

namespace SolidWorkshop.Web

/-- The version of the service. -/
def version : String := "1.0.0"

/-- What the service says about itself. -/
def overviewValue (s : Service.Settings) : Value :=
  .dict [("service", .text s.serviceName), ("version", .text version), ("docs", .text "/docs"),
    ("health", .text "/health")]

/-- A number as a double, if it is in the range of doubles. -/
def widened (x : Number) : Number :=
  (x.toBinary64?.map Number.float).getD x

/-- A parameter with all numbers of its range as doubles. -/
def widenedRange (d : Descriptor) : Descriptor :=
  { d with min := d.min.map widened, max := d.max.map widened, step := d.step.map widened }

/-- A parameter as callers are told about it: all numbers of its range are doubles. -/
def parameterValue (d : Descriptor) : Except Failure Value := do
  let sliderStep ← d.sliderStep
  return (widenedRange d).toValue (.ofOption (fun x => (widened x).toValue) sliderStep)

/-- The parameters of a source text. -/
def parametersValue (source : String) : Except Failure Value := do
  let descriptors ← Source.extract source.toList
  let parameters ← descriptors.mapM parameterValue
  return .dict [
    ("parameters", .list parameters),
    ("sections", .list ((Source.sections descriptors).map .text)),
    ("ambiguous", .list ((Source.ambiguousNames descriptors).map .text))]

/-- Write edited values into a source text. -/
def synthesisValue (request : SynthesizeRequest) : Except Failure Value := do
  let (source, overrides) ← Source.customize request.source.toList request.edits
  return (SynthesizeResponse.mk (String.ofList source) overrides).toValue

/-- What a caller is told about a job that was just accepted. -/
def acceptanceOf (id : String) (status : Status) : Acceptance :=
  ⟨id, status, "/jobs/" ++ id, "/jobs/" ++ id ++ "/result"⟩

/-- The end of a job, or how far it has come. -/
def outcomeValue (r : Job.Record) : Value :=
  let progress := ("progress", Value.int r.progress)
  let more := match r.status with
    | .queued => [progress]
    | .running => [progress, ("detail", .text r.detail)]
    | .cancelled => []
    | .failed => [("error", .text ((r.fault.map (·.message)).getD "unknown error"))]
    | .succeeded => [("result", .ofOption CompileResult.toValue r.result)]
  .dict (("status", .text r.status.name) :: more)

/-- What a caller is told about a job that it cancels. -/
def cancelledValue (id : String) (status : Status) : Value :=
  .dict [("success", .bool true), ("job_id", .text id), ("status", .text status.name)]

end SolidWorkshop.Web
