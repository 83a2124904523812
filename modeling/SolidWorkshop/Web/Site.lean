import SolidWorkshop.Service.Assembly
import SolidWorkshop.Web.Body
import SolidWorkshop.Web.Conversation
import SolidWorkshop.Web.Route
import SolidWorkshop.Web.Target
import SolidWorkshop.Web.View

/-!
# The site

The service as its callers see it.  A call is answered at once, or it waits: for the end of the
job that it has submitted, or for the compile that its conversation is about.  Several calls may
wait at the same time.
-/

namespace SolidWorkshop.Web

open Compile Service

/-- A request. -/
structure Request where
  method : String
  target : String
  headers : List (String × String)
  body : ByteArray

/-- A call as it comes in. -/
inductive Incoming where
  | request (r : Request)
  /-- A conversation, and how many frames its client takes. -/
  | conversation (headers : List (String × String)) (room : Option Nat) (opening : Opening)

/-- What a call has come to. -/
inductive Call where
  | answered (r : Response)
  /-- It waits for the end of a job; whether the result goes into an envelope. -/
  | awaits (id : String) (wrapped : Bool)
  | talks (t : Conversation Underway)

/-- What a caller is given. -/
inductive Answer where
  | response (r : Response)
  | frames (fs : List Frame)

/-- The service with everything that is going on. -/
structure Site where
  settings : Settings
  /-- The place of the manual that reports of issues name. -/
  manual : Option String
  floor : Job.Floor Bench Underway
  /-- The calls that nobody has taken the answer of so far. -/
  calls : List Call := []

namespace Site

/-- A site as settings ask for it.  The engine is there if the settings lead to its place. -/
def ofSettings (s : Settings) (manual : Option String) (grant : Engine.Grant)
    (engine : Engine.Installation) (client : Library.Client) (server : Library.Server) : Site :=
  let path := s.engine.text
  let occupant := if path = engine.path then engine.occupant else .nothing
  { settings := s
    manual
    floor := s.floor
      { engine := { engine with path, occupant }, limits := s.limits, grant, client, server,
        library := s.library } }

/-- What all compiles share. -/
def bench (s : Site) : Bench :=
  s.floor.shared

/-- Change what all compiles share. -/
def withBench (s : Site) (bench : Bench) : Site :=
  { s with floor := { s.floor with shared := bench } }

/-- Change the board. -/
def withBoard (s : Site) (board : Job.Board) : Site :=
  { s with floor := { s.floor with board } }

/-- From now on the runs of the engine are these. -/
def withRuns (s : Site) (runs : List Engine.Start) : Site :=
  s.withBench { s.bench with engine := { s.bench.engine with runs }, started := 0 }

/-! ## Admission -/

/-- The header that holds the key of a caller. -/
def keyHeader : String := "x-api-key"

/-- The value of a header; the case of its name does not count. -/
def header? (headers : List (String × String)) (name : String) : Option String :=
  (headers.find? fun h => h.1.toLower = name).map (·.2)

/-- The caller has the key, or none is asked for. -/
def admits (s : Site) (headers : List (String × String)) : Bool :=
  match s.settings.apiKey with
  | none => true
  | some key => key.isEmpty || header? headers keyHeader == some key

/-! ## Endpoints -/

/-- The state of the service. -/
def healthValue (s : Site) : Value :=
  .dict [
    ("status", .text "ok"),
    ("service", .text s.settings.serviceName),
    ("queue_size", .int s.floor.board.queue.length),
    ("active_jobs", .int s.floor.board.active),
    ("openscad_exists", .bool (s.bench.engine.occupant ≠ .nothing)),
    ("engine_version", .ofOption (fun e => .text e.version) s.bench.loaded?),
    ("cached_libraries", .list (s.bench.libraries.labels.map .text)),
    ("max_concurrent_jobs", .int s.settings.maxConcurrentJobs)]

/-- Submit a job for a request that has been read. -/
def submit (s : Site) (request : CompileRequest) : Site × Except Failure String :=
  let (board, accepted) := s.floor.board.submit request none
  (s.withBoard board, accepted)

/-- Compile and wait for the end. -/
def run (s : Site) (body : ByteArray) : Site × Call :=
  match readCompileRequest body with
  | .error response => (s, .answered response)
  | .ok (request, wrapped) =>
    match s.submit request with
    | (s, .error failure) => (s, .answered (.ofFailure failure))
    | (s, .ok id) =>
      if Engine.isNoTime s.settings.syncWaitTimeout then
        (s, .answered (.ofFailure (.jobUnfinished id s.settings.syncWaitTimeout)))
      else (s, .awaits id wrapped)

/-- Accept a job. -/
def enqueue (s : Site) (body : ByteArray) : Site × Response :=
  match readCompileRequest body with
  | .error response => (s, response)
  | .ok (request, _) =>
    match s.submit request with
    | (s, .error failure) => (s, .ofFailure failure)
    | (s, .ok id) => (s, .modelled (acceptanceOf id .queued).toValue)

/-- The check for the question whether a log is wanted. -/
def logsWanted (t : Target) : Except Response Bool :=
  match t.lookup? "logs" with
  | none => .ok true
  | some word =>
    match (Intake.Check.truth (.text word)).under (.key "logs") with
    | .good wanted => .ok wanted
    | .bad issues => .error (.invalid (issues.map (Intake.Issue.under (.key "query"))))

/-- The artifact of a job. -/
def artifactOf (b : Job.Board) (r : Job.Record) : Response :=
  match b.artifact? r with
  | some content => ⟨200, .solid content⟩
  | none => .refusedWith 404 "STL not available"

/-- The answer of an endpoint about a job that a caller with the key asks for. -/
def aboutJob (s : Site) (admitted : Bool) (id : String) (tell : Job.Record → Response) :
    Response :=
  if admitted then .ofExcept ((s.floor.board.get id).map tell)
  else .refusedWith 401 "Invalid API key"

/-- Take up a request that was led to an endpoint. -/
def serve (s : Site) (r : Request) (t : Target) (endpoint : Endpoint) : Site × Call :=
  let admitted := s.admits r.headers
  let stranger := Call.answered (.refusedWith 401 "Invalid API key")
  let tell (response : Response) : Site × Call := (s, .answered response)
  let ofModel {α : Type} (check : Intake.Check α) (f : α → Except Failure Value) : Site × Call :=
    tell (match readModel check r.body with
      | .error response => response
      | .ok request => .ofExcept ((f request).map .modelled))
  match endpoint with
  | .overview => tell (.strict 200 (overviewValue s.settings))
  | .health => tell (.strict 200 s.healthValue)
  | .description => tell ⟨200, .nothing⟩
  | .parameters => ofModel ExtractRequest.check fun request => parametersValue request.source
  | .synthesize => ofModel SynthesizeRequest.check synthesisValue
  | .run => if admitted then s.run r.body else (s, stranger)
  | .submit =>
    if admitted then
      let (s, response) := s.enqueue r.body
      (s, .answered response)
    else (s, stranger)
  | .job id =>
    tell (match logsWanted t with
      | .error response => response
      | .ok wanted => s.aboutJob admitted id fun record => .modelled (record.view wanted).toValue)
  | .result id => tell (s.aboutJob admitted id fun record => .strict 200 (outcomeValue record))
  | .artifact id => tell (s.aboutJob admitted id (artifactOf s.floor.board))
  | .cancel id =>
    if admitted then
      let (board, cancelled) := s.floor.board.cancel id
      (s.withBoard board, .answered (.ofExcept (cancelled.map fun status =>
        .strict 200 (cancelledValue id status))))
    else (s, stranger)

/-- Take up a request. -/
def answerRequest (s : Site) (r : Request) : Site × Call :=
  let t := Target.ofText r.target
  match Route.find r.method.toUpper t.path with
  | .found endpoint => s.serve r t endpoint
  | .unknown => (s, .answered (.refusedWith 404 "Not Found"))
  | .wrongMethod => (s, .answered (.refusedWith 405 "Method Not Allowed"))
  | .moved => (s, .answered ⟨307, .nothing⟩)

/-- Take up a call. -/
def receive (s : Site) : Incoming → Site × Call
  | .request r => s.answerRequest r
  | .conversation headers room opening =>
    if s.admits headers then
      let (bench, t) := Conversation.start withEngine s.manual s.bench room opening
      (s.withBench bench, .talks t)
    else (s, .talks (.refused room))

/-! ## Work -/

/-- The most stretches of a compile. -/
def maxStretches : Nat := 8

/-- Let a call go on as far as it can. -/
def settleCall (s : Site) : Call → Site × Call
  | .talks t =>
    let (bench, t) := Conversation.settle withEngine maxStretches s.bench t
    (s.withBench bench, .talks t)
  | call => (s, call)

/-- Let some calls go on as far as they can. -/
def settleCalls (s : Site) : List Call → Site × List Call
  | [] => (s, [])
  | call :: rest =>
    let (s, call) := s.settleCall call
    let (s, rest) := s.settleCalls rest
    (s, call :: rest)

/-- Work until nothing is left to do. -/
def settle (s : Site) : Site :=
  let s := { s with floor := s.floor.settle withEngine }
  let (s, calls) := s.settleCalls s.calls
  { s with calls }

/-- Change every compile that is waited for. -/
def changeWork (s : Site) (change : Underway → Underway) : Site :=
  let changeCall : Call → Call
    | .talks t => .talks { t with work := t.work.map change }
    | call => call
  { s with floor := s.floor.change change, calls := s.calls.map changeCall }

/-- Let all runs go that wait for it. -/
def release (s : Site) : Site :=
  s.changeWork Underway.letGo

/-- Delete the artifact of a job behind the service's back. -/
def unlink (s : Site) (id : String) : Site :=
  s.withBoard (s.floor.board.unlink (Job.Board.artifactName id))

/-! ## Waiting -/

/-- A job has come to its end. -/
def isDone (s : Site) (id : String) : Bool :=
  (s.floor.board.find? id).any (·.isDone)

/-- A run of the engine waits for more than the end of its own work. -/
def isHeld (s : Site) : Bool :=
  s.floor.works.any fun work => work.2.isHeld

/-- Wait for the end of a job for some time: the time limits of the runs that are in the way come
first, if there is time for them.  The fuel bounds their number. -/
def waitFor (id : String) : Nat → Number → Site → Site
  | 0, _, s => s.settle
  | fuel + 1, limit, s =>
    let s := s.settle
    if s.isDone id || !s.isHeld then s
    else
      match limit.sub? s.settings.engineTimeout with
      | some rest =>
        if rest.le (.int 0) then s else waitFor id fuel rest (s.changeWork Underway.expire)
      | none => s

/-- The response to a caller who has waited for the end of a job.  Nobody expects the job to be
dropped meanwhile. -/
def endOf (s : Site) (id : String) (wrapped : Bool) : Response :=
  match s.floor.board.find? id with
  | none => .internal
  | some record =>
    if !record.isDone then .ofFailure (.jobUnfinished id s.settings.syncWaitTimeout)
    else
      match record.status, record.result with
      | .succeeded, some result =>
        let v := result.toValue
        .strict 200 (if wrapped then .dict [("result", v)] else v)
      | .cancelled, _ => .refusedWith 409 "Job cancelled"
      | _, _ =>
        match record.fault with
        | some fault => .refusedWith fault.status fault.message
        | none => .refusedWith 500 "Unknown compile error"

/-- Wait for the answer to a call. -/
def finish (s : Site) (call : Call) : Site × Answer :=
  match call with
  | .answered r => (s, .response r)
  | .awaits id wrapped =>
    let waits := s.floor.board.queue.length + s.floor.works.length + 1
    let s := waitFor id waits s.settings.syncWaitTimeout s
    (s, .response (s.endOf id wrapped))
  | .talks t =>
    let (bench, t) := Conversation.settle withEngine maxStretches s.bench t
    let late := { t with work := t.work.map Underway.expire }
    let (bench, t) := Conversation.settle withEngine maxStretches bench late
    (s.withBench bench, .frames t.line.frames)

/-- Wait for the answers to some calls, in their order. -/
def finishAll (s : Site) : List Call → Site × List Answer
  | [] => (s, [])
  | call :: rest =>
    let (s, answer) := s.finish call
    let (s, answers) := s.finishAll rest
    (s, answer :: answers)

/-! ## Calls -/

/-- Take up a call and wait for its answer. -/
def call (s : Site) (incoming : Incoming) : Site × Answer :=
  let (s, call) := s.receive incoming
  let (s, answer) := s.finish call
  (s.settle, answer)

/-- Take up a call without waiting for its answer. -/
def takeUp (s : Site) (incoming : Incoming) : Site :=
  let (s, call) := s.receive incoming
  settle { s with calls := s.calls ++ [call] }

/-- Wait for the answers to all calls that were only taken up. -/
def join (s : Site) : Site × List Answer :=
  let s := s.settle
  let calls := s.calls
  let (s, answers) := { s with calls := [] }.finishAll calls
  (s.settle, answers)

end Site

end SolidWorkshop.Web
