import SolidWorkshop.Job.View

/-!
# Records of jobs

What is kept of a job from its acceptance on: its state, its progress, its log, and how it ended.
-/

namespace SolidWorkshop.Job

/-- Why a job failed, and the status it is answered with. -/
structure Fault where
  message : String
  status : Int

/-- What is kept of a job. -/
structure Record where
  id : String
  request : CompileRequest
  createdAt : Instant
  status : Status := .queued
  startedAt : Option Instant := none
  finishedAt : Option Instant := none
  progress : Nat := 0
  detail : String := ""
  logs : List Entry := []
  result : Option CompileResult := none
  fault : Option Fault := none
  /-- The name of the artifact's file. -/
  artifact : Option String := none
  /-- Those who wait for the job go on. -/
  isDone : Bool := false

/-- The most characters of a message that the detail of a job shows. -/
def detailLimit : Nat := 200

/-- The beginning of a message. -/
def beginning (message : String) : String :=
  String.ofList (message.toList.take detailLimit)

namespace Record

/-- Add a line to the log. -/
def note (r : Record) (line : LogLine) (now : Instant) : Record :=
  { r with logs := r.logs ++ [⟨line, now⟩] }

/-- The job starts. -/
def start (r : Record) (now : Instant) : Record :=
  { r with status := .running, startedAt := some now, progress := 5, detail := "Starting compile..." }

/-- The compile of the job starts. -/
def compiling (r : Record) : Record :=
  { r with progress := 10, detail := "Compiling..." }

/-- The job fails. -/
def fail (r : Record) (message : String) (status : Int) : Record :=
  { r with
    status := .failed
    fault := some ⟨message, status⟩
    progress := 100
    detail := "Error: " ++ beginning message }

/-- The job succeeds with a result and an artifact. -/
def succeed (r : Record) (artifact : String) (result : CompileResult) : Record :=
  { r with
    artifact := some artifact
    result := some result
    status := .succeeded
    progress := 100
    detail := "Compilation complete" }

/-- No more work is done for the job, and those who wait for it go on. -/
def close (r : Record) (now : Instant) : Record :=
  { r with finishedAt := some now, isDone := true }

/-- A job that waits is cancelled. -/
def cancel (r : Record) (now : Instant) : Record :=
  { r.close now with status := .cancelled }

/-- The job has its end behind it. -/
def isFinished (r : Record) : Bool :=
  r.status.isFinished

/-- What is told about the request of a job. -/
def summary (r : Record) : List (String × Value) :=
  [("source_chars", .int r.request.source.length),
   ("overrides", .int r.request.overrides.length),
   ("values", .int (r.request.edits.getD []).length)]

/-- What is told about a fault. -/
def faultEntries (f : Fault) : List (String × Value) :=
  [("message", .text f.message), ("status_code", .int f.status)]

/-- What a caller is told about the job, with its log or without. -/
def view (r : Record) (withLogs : Bool) : View :=
  { id := r.id
    status := r.status
    createdAt := r.createdAt
    startedAt := r.startedAt
    finishedAt := r.finishedAt
    progress := r.progress
    detail := r.detail
    summary := r.summary
    logs := if withLogs then r.logs else []
    result := r.result
    fault := r.fault.map faultEntries }

end Record

end SolidWorkshop.Job
