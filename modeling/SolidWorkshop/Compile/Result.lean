import SolidWorkshop.Compile.Request

/-!
# Results

What is kept of a finished compile, and what a caller is told about a job that has been
accepted.
-/

namespace SolidWorkshop

open Intake

/-- What is kept of a finished compile. -/
structure CompileResult where
  success : Bool := true
  jobId : String := ""
  artifactPath : String := ""
  artifactUrl : String := ""
  artifactSize : Int := 0
  artifactDigest : String := ""
  exitCode : Option Int := none
  elapsed : Binary64 := .zero
  overrides : List Override := []

namespace CompileResult

/-- Check a result. -/
def check : Check CompileResult :=
  Check.record "CompileResult" fun fields =>
    CompileResult.mk
      <$> Check.defaulted fields "success" Check.truth true
      <*> Check.defaulted fields "job_id" Check.text ""
      <*> Check.defaulted fields "artifact_path" Check.text ""
      <*> Check.defaulted fields "artifact_url" Check.text ""
      <*> Check.defaulted fields "artifact_size" Check.integer 0
      <*> Check.defaulted fields "artifact_sha256" Check.text ""
      <*> Check.defaulted fields "exit_code" (Check.optional Check.integer) none
      <*> Check.defaulted fields "elapsed" Check.double .zero
      <*> overridesField fields

/-- The result as a dynamic value. -/
def toValue (r : CompileResult) : Value :=
  .dict [
    ("success", .bool r.success),
    ("job_id", .text r.jobId),
    ("artifact_path", .text r.artifactPath),
    ("artifact_url", .text r.artifactUrl),
    ("artifact_size", .int r.artifactSize),
    ("artifact_sha256", .text r.artifactDigest),
    ("exit_code", .ofOption .int r.exitCode),
    ("elapsed", .float r.elapsed),
    ("overrides", overridesValue r.overrides)]

end CompileResult

/-- The state of a job. -/
inductive Status where
  | queued
  | running
  | succeeded
  | failed
  | cancelled
  deriving DecidableEq

namespace Status

/-- The name of a state. -/
def name : Status → String
  | .queued => "queued"
  | .running => "running"
  | .succeeded => "succeeded"
  | .failed => "failed"
  | .cancelled => "cancelled"

/-- All states. -/
def all : List Status :=
  [.queued, .running, .succeeded, .failed, .cancelled]

/-- No more work is done for a job in this state. -/
def isFinished : Status → Bool
  | .succeeded | .failed | .cancelled => true
  | .queued | .running => false

end Status

/-- What a caller is told about a job that has been accepted. -/
structure Acceptance where
  jobId : String
  status : Status
  statusUrl : String
  resultUrl : String

namespace Acceptance

/-- Check what a caller is told about an accepted job. -/
def check : Check Acceptance :=
  Check.record "AsyncJobAccepted" fun fields =>
    Acceptance.mk
      <$> Check.required fields "job_id" Check.text
      <*> Check.defaulted fields "status" (Check.choice Status.name Status.all) .queued
      <*> Check.required fields "status_url" Check.text
      <*> Check.required fields "result_url" Check.text

/-- The acceptance as a dynamic value. -/
def toValue (a : Acceptance) : Value :=
  .dict [("job_id", .text a.jobId), ("status", .text a.status.name),
    ("status_url", .text a.statusUrl), ("result_url", .text a.resultUrl)]

end Acceptance

end SolidWorkshop
