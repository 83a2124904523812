import SolidWorkshop.Job.Record
import SolidWorkshop.Source.Synthesis
import SolidWorkshop.Storage.Digest
import SolidWorkshop.Storage.Name
import SolidWorkshop.Storage.Path

/-!
# The board of jobs

The jobs that are known by their ids, the queue of ids that wait for a worker, the workers, and
the artifacts.  A job is accepted while the queue has room, is taken by the first free worker, and
is dropped some time after its end.

An id in the queue stands for the job that has this id when a worker takes it.
-/

namespace SolidWorkshop.Job

/-- The rules of a board. -/
structure Policy where
  /-- The most ids in the queue; without a limit unless positive. -/
  maxQueue : Int
  /-- The most finished jobs that are kept. -/
  maxRecords : Int
  /-- How long a finished job is kept, in microseconds. -/
  lifetime : Int
  /-- Where the artifacts are. -/
  artifactsDir : Storage.Path

/-- What a worker is about. -/
inductive Worker where
  | idle
  /-- It works on a record, with these overrides. -/
  | busy (record : Nat) (overrides : List Override)

/-- The jobs, the queue, the workers and the artifacts. -/
structure Board where
  policy : Policy
  now : Instant := default
  records : Array Record := #[]
  /-- The records by their ids, in the order of their acceptance. -/
  jobs : List (String × Nat) := []
  queue : List String := []
  workers : List Worker := []
  /-- The artifacts by the names of their files. -/
  artifacts : List (String × ByteArray) := []
  /-- How many ids were made up. -/
  generated : Nat := 0

namespace Board

/-- The record of an id. -/
def find? (b : Board) (id : String) : Option Record :=
  (b.jobs.lookup id).bind fun place => b.records[place]?

/-- The record of an id, or the failure to find it. -/
def get (b : Board) (id : String) : Except Failure Record :=
  match b.find? id with
  | some record => .ok record
  | none => .error (.unknownJob id)

/-- The known jobs in the order of their acceptance. -/
def known (b : Board) : List Record :=
  b.jobs.filterMap fun (_, place) => b.records[place]?

/-- How many jobs wait or run. -/
def active (b : Board) : Nat :=
  (b.known.filter fun r => !r.isFinished).length

/-- Change a record. -/
def update (b : Board) (place : Nat) (change : Record → Record) : Board :=
  { b with records := b.records.modify place change }

/-- Let some time go by. -/
def advance (b : Board) (span : Int) : Board :=
  { b with now := b.now.later span }

/-- The queue has no room. -/
def isFull (b : Board) : Bool :=
  0 < b.policy.maxQueue && b.policy.maxQueue ≤ b.queue.length

/-- The id for a job: the one asked for if it can be the name of a file, or a new one; and how many
ids were made up then. -/
def idFor (b : Board) (wanted : String) : String × Nat :=
  let safe := Storage.safeName wanted ""
  if safe.isEmpty then ("generated-" ++ toString (b.generated + 1), b.generated + 1)
  else (safe, b.generated)

/-- The id that a request asks for, unless an id is given beside it. -/
def wanted (request : CompileRequest) (id : Option String) : String :=
  let given := id.getD ""
  if given.isEmpty then request.requestId.getD "" else given

/-- Accept a job: the board, and the job's id. -/
def submit (b : Board) (request : CompileRequest) (id : Option String) :
    Board × Except Failure String :=
  if b.isFull then (b, .error .queueFull)
  else
    let (id, generated) := b.idFor (wanted request id)
    let b := { b with generated }
    if (b.jobs.lookup id).isSome then (b, .error (.duplicateJob id))
    else
      ({ b with
        records := b.records.push { id, request, createdAt := b.now }
        jobs := b.jobs ++ [(id, b.records.size)]
        queue := b.queue ++ [id] }, .ok id)

/-- Cancel a job that waits.  A finished job stays as it is, and a running one cannot be
cancelled. -/
def cancel (b : Board) (id : String) : Board × Except Failure Status :=
  match b.jobs.lookup id with
  | none => (b, .error (.unknownJob id))
  | some place =>
    match b.records[place]? with
    | none => (b, .error (.unknownJob id))
    | some record =>
      match record.status with
      | .queued => (b.update place fun r => r.cancel b.now, .ok .cancelled)
      | .running => (b, .error .jobRunning)
      | status => (b, .ok status)

/-- The state of a job at the end of a wait for it. -/
def await (b : Board) (id : String) (limit : Number) : Except Failure Status := do
  let record ← b.get id
  if limit.le (.int 0) || !record.isDone then throw (.jobUnfinished id limit)
  return record.status

/-! ## Artifacts -/

/-- The name of the file of a job's artifact. -/
def artifactName (id : String) : String :=
  id ++ ".stl"

/-- The path of the file of a job's artifact. -/
def artifactPath (b : Board) (id : String) : String :=
  (b.policy.artifactsDir.join ⟨"", [artifactName id]⟩).text

/-- The most bytes that the name of a file may have. -/
def nameLimit : Nat := 255

/-- The artifact of a record, if its file is there. -/
def artifact? (b : Board) (record : Record) : Option ByteArray :=
  record.artifact.bind fun name => b.artifacts.lookup name

/-- Delete a file. -/
def unlink (b : Board) (name : String) : Board :=
  { b with artifacts := b.artifacts.filter fun file => file.1 != name }

/-! ## Dropping jobs -/

/-- Drop a job and its artifact. -/
def drop (b : Board) (id : String) : Board :=
  let rest := { b with jobs := b.jobs.filter fun job => job.1 != id }
  match (b.find? id).bind (·.artifact) with
  | some name => rest.unlink name
  | none => rest

/-- A finished job has been kept for its time. -/
def isExpired (b : Board) (record : Record) : Bool :=
  record.isFinished && record.finishedAt.any fun t => b.policy.lifetime < b.now.micros - t.micros

/-- The point in time that decides which finished job is dropped first. -/
def endOf (record : Record) : Instant :=
  record.finishedAt.getD record.createdAt

/-- Drop the finished jobs that have been kept for their time, and of the others the oldest that
are too many. -/
def prune (b : Board) : Board :=
  let b := ((b.known.filter b.isExpired).map (·.id)).foldl drop b
  let finished := b.known.filter (·.isFinished)
  let surplus := (finished.length - b.policy.maxRecords).toNat
  let oldest := finished.mergeSort fun r s => (endOf r).micros ≤ (endOf s).micros
  ((oldest.take surplus).map (·.id)).foldl drop b

/-! ## Workers -/

/-- The first worker without work. -/
def idle? (b : Board) : Option Nat :=
  b.workers.findIdx? fun worker =>
    match worker with
    | .idle => true
    | .busy .. => false

/-- Change what a worker is about. -/
def assign (b : Board) (worker : Nat) (work : Worker) : Board :=
  { b with workers := b.workers.set worker work }

/-- The source and the overrides that a request compiles. -/
def prepared (request : CompileRequest) : Except Failure (String × List Override) :=
  match request.edits with
  | none => .ok (request.source, request.overrides)
  | some edits => do
    let (source, overrides) ← Source.customize request.source.toList edits
    return (String.ofList source, overrides)

/-- A worker without work takes the first id of the queue: the board, and the compile that the job
asks for.  An id without a job, and one whose job is cancelled, is passed over. -/
def take (b : Board) (worker : Nat) : Board × Option CompileMessage :=
  match b.queue with
  | [] => (b, none)
  | id :: queue =>
    let b := { b with queue }
    match b.jobs.lookup id with
    | none => (b, none)
    | some place =>
      match b.records[place]? with
      | none => (b, none)
      | some record =>
        if record.status = .cancelled then (b, none)
        else
          let b := b.update place fun r => r.start b.now
          match prepared record.request with
          | .error failure =>
            let status := (failure.status?.map Int.ofNat).getD Reply.defaultStatus
            (b.update place fun r => (r.fail failure.message status).close b.now, none)
          | .ok (source, overrides) =>
            ((b.update place Record.compiling).assign worker (.busy place overrides),
              some ⟨source, overrides⟩)

/-- What is kept of the artifact of a job. -/
def resultFor (b : Board) (id : String) (overrides : List Override) (content : ByteArray)
    (exitCode : Option Int) (elapsed : Binary64) : CompileResult :=
  { success := true
    jobId := id
    artifactPath := b.artifactPath id
    artifactUrl := "/jobs/" ++ id ++ "/artifact"
    artifactSize := content.size
    artifactDigest := Storage.digest content
    exitCode, elapsed, overrides }

/-- A record gets the artifact of its compile.  A name that no file can have makes the job
fail. -/
def store (b : Board) (place : Nat) (record : Record) (overrides : List Override)
    (content : ByteArray) (exitCode : Option Int) (elapsed : Binary64) : Board :=
  let name := artifactName record.id
  if nameLimit < name.utf8ByteSize then
    let failure := Failure.nameTooLong (b.artifactPath record.id)
    b.update place fun r => r.fail failure.message Reply.defaultStatus
  else
    let result := b.resultFor record.id overrides content exitCode elapsed
    { b with artifacts := setEntry name content b.artifacts }.update place fun r =>
      r.succeed name result

/-- A busy worker receives a message of its compile. -/
def receive (b : Board) (worker : Nat) (reply : Reply) : Board :=
  match b.workers[worker]? with
  | some (.busy place overrides) =>
    match reply with
    | .log line =>
      b.update place fun r => { r.note line b.now with detail := beginning line.text }
    | .error message status =>
      b.update place fun r => (r.note (.error message) b.now).fail message status
    | .result content exitCode elapsed =>
      match b.records[place]? with
      | some record => b.store place record overrides content exitCode elapsed
      | none => b
  | _ => b

/-- The words for a compile that ended without its last message being seen. -/
def unfinishedMessage : String :=
  "Compile finished without a result"

/-- A busy worker has received all messages of its compile. -/
def finish (b : Board) (worker : Nat) : Board :=
  match b.workers[worker]? with
  | some (.busy place _) =>
    (b.update place fun r =>
      (if r.status = .running then r.fail unfinishedMessage Reply.defaultStatus else r).close
        b.now).assign worker .idle
  | _ => b

/-- The compile of a busy worker ended without a last message. -/
def desert (b : Board) (worker : Nat) : Board :=
  match b.workers[worker]? with
  | some (.busy place _) =>
    (b.update place fun r =>
      (r.fail Failure.workerStopped.message Reply.defaultStatus).close b.now).assign worker .idle
  | _ => b

/-- Some workers come in. -/
def admitWorkers (b : Board) (count : Nat) : Board :=
  { b with workers := b.workers ++ List.replicate count .idle }

/-- All workers go.  A job that runs then stays running, but is closed. -/
def dismiss (b : Board) : Board :=
  let closed := b.workers.foldl (fun b worker =>
    match worker with
    | .idle => b
    | .busy place _ => b.update place fun r => r.close b.now) b
  { closed with workers := [] }

end Board

end SolidWorkshop.Job
