import SolidWorkshop.Compile.Reply
import SolidWorkshop.Compile.Result
import SolidWorkshop.Time.Reading

/-!
# Views of jobs

What a caller is told about a job: its state, its progress, its log, and how it ended.
-/

namespace SolidWorkshop.Job

open Intake

/-- A line of a job's log. -/
structure Entry where
  line : LogLine
  time : Instant

namespace Entry

/-- Check a line of a job's log. -/
def check : Check Entry :=
  Check.record "LogEntry" fun fields =>
    (fun text level time => Entry.mk ⟨text, level⟩ time)
      <$> Check.required fields "text" Check.text
      <*> Check.defaulted fields "level" (Check.choice Level.name Level.all) .info
      <*> Check.required fields "timestamp" Instant.check

/-- A line of the log as a dynamic value. -/
def toValue (e : Entry) : Value :=
  .dict [("text", .text e.line.text), ("level", .text e.line.level.name),
    ("timestamp", .text e.time.text)]

end Entry

/-- What a caller is told about a job. -/
structure View where
  id : String
  status : Status
  createdAt : Instant
  startedAt : Option Instant
  finishedAt : Option Instant
  progress : Int
  detail : String
  summary : List (String × Value)
  logs : List Entry
  result : Option CompileResult
  fault : Option (List (String × Value))

namespace View

/-- Check what a caller is told about a job. -/
def check : Check View :=
  Check.record "JobRecordView" fun fields =>
    let time (name : String) : Checked (Option Instant) :=
      Check.defaulted fields name (Check.optional Instant.check) none
    View.mk
      <$> Check.required fields "id" Check.text
      <*> Check.required fields "status" (Check.choice Status.name Status.all)
      <*> Check.required fields "created_at" Instant.check
      <*> time "started_at"
      <*> time "finished_at"
      <*> Check.defaulted fields "progress" Check.integer 0
      <*> Check.defaulted fields "detail" Check.text ""
      <*> Check.defaulted fields "request_summary" Check.dict []
      <*> Check.defaulted fields "logs" (Check.list Entry.check) []
      <*> Check.defaulted fields "result" (Check.optional CompileResult.check) none
      <*> Check.defaulted fields "error" (Check.optional Check.dict) none

/-- What a caller is told about a job, as a dynamic value. -/
def toValue (v : View) : Value :=
  let time (t : Instant) : Value := .text t.text
  .dict [
    ("id", .text v.id),
    ("status", .text v.status.name),
    ("created_at", time v.createdAt),
    ("started_at", .ofOption time v.startedAt),
    ("finished_at", .ofOption time v.finishedAt),
    ("progress", .int v.progress),
    ("detail", .text v.detail),
    ("request_summary", .dict v.summary),
    ("logs", .list (v.logs.map Entry.toValue)),
    ("result", .ofOption CompileResult.toValue v.result),
    ("error", .ofOption .dict v.fault)]

end View

end SolidWorkshop.Job
