import SolidWorkshop.Compile.Artifact
import SolidWorkshop.Compile.Bench

/-!
# Stages of a compile

A compile waits for the engine, for the library if its source uses it, and for the run of the
engine on a workspace of its own.  The artifact that the run leaves there decides about success;
the status of the run is only told.

Work is done between the waits.  A compile can be stopped while it waits: what it shares with
others goes on, its own run is stopped and its workspace is given back.  Some waits have no end: the
engine may never answer the question for its version, and a run that has been stopped is waited for
until nobody holds its streams open.
-/

namespace SolidWorkshop.Compile

open Engine

/-- A run of the engine on its workspace. -/
structure Build where
  workspace : Workspace
  definitions : List String
  since : Binary64
  /-- How the run comes to its end when nobody interferes. -/
  finish : Finish
  /-- What has to happen before that. -/
  pending : Pending
  /-- The streams of the run stay open when it has ended. -/
  lingers : Bool

namespace Build

/-- Let a run go that waits for it. -/
def letGo (r : Build) : Build :=
  match r.pending with
  | .release status => { r with finish := .ofStatus r.lingers status, pending := .ofExit r.lingers }
  | _ => r

/-- Let the time limit of a run come. -/
def expire (r : Build) : Build :=
  { r with pending := .nothing }

end Build

/-- How far a compile has come. -/
inductive Stage where
  /-- It waits for the engine. -/
  | loading (probe : Probe)
  /-- It waits for the library. -/
  | resolving (engine : Loaded) (found : Library.Resolution)
  /-- It waits for the run of the engine. -/
  | building (build : Build)
  /-- It waits for the end of a run that has been stopped, and whose streams stay open. -/
  | stopping
  | ended (outcome : Ended)

namespace Stage

/-- How a compile ended. -/
def outcome? : Stage → Option Ended
  | .ended outcome => some outcome
  | _ => none

end Stage

/-- What a stretch of work led to, and what was told and done meanwhile. -/
structure Progress where
  bench : Bench
  stage : Stage
  log : List LogLine := []
  spawns : List Spawn := []
  requests : List String := []

namespace Progress

/-- The progress with earlier lines and processes in front. -/
def after (p : Progress) (log : List LogLine) (spawns : List Spawn) : Progress :=
  { p with log := log ++ p.log, spawns := spawns ++ p.spawns }

end Progress

/-- The line of the log for some definitions. -/
def definitionsLine (definitions : List String) : List LogLine :=
  if definitions.isEmpty then []
  else [.info ("Overrides: " ++ ", ".intercalate definitions)]

/-- Make a workspace ready for a compile: stage the library and write the source. -/
def prepare (message : CompileMessage) (library : String) (files : List (String × ByteArray)) :
    Except Failure Workspace :=
  let (w, staged) :=
    if files.isEmpty then (Workspace.fresh, .ok 0) else Workspace.fresh.stage library files
  match staged with
  | .error failure => .error failure
  | .ok _ =>
    match w.writeAt inputFile message.source.toUTF8 with
    | (_, some failure) => .error failure
    | (w, none) => .ok w

/-- The line of the log at the start of a build. -/
def startingLine : LogLine :=
  .info "Starting OpenSCAD instance..."

/-- Go on with a run that has been started. -/
def observe (b : Bench) (engine : Loaded) (workspace : Workspace) (definitions : List String)
    (run : Run) : Progress :=
  let since := b.clock
  let b := b.pass run.seconds
  let told := run.told engine.timeout
  match told.failure with
  | some failure =>
    let spawns := if (run.finish engine.timeout).isStopped then [Spawn.killed] else []
    if run.isHopeless engine.timeout then
      { bench := b, stage := .stopping, log := told.log, spawns }
    else { bench := b.giveBack, stage := .ended (.error failure), log := told.log, spawns }
  | none =>
    let workspace := match run.product with
      | some entry => workspace.put [outputFile] entry
      | none => workspace
    { bench := b, log := told.log,
      stage := .building
        ⟨workspace, definitions, since, run.finish engine.timeout, run.pending engine.timeout,
          run.lingers⟩ }

/-- Start the engine on a workspace that is ready. -/
def launch (b : Bench) (engine : Loaded) (workspace : Workspace) (definitions : List String) :
    Progress :=
  if holdsZero definitions then
    { bench := b.giveBack, stage := .ended (.error .zeroInArgument) }
  else
    let command := b.engine.path :: [inputFile, "-o", outputFile] ++ defineFlags definitions
    let spawns := [Spawn.build command workspace.listing]
    let started := { b with started := b.started + 1 }
    match b.nextRun with
    | .refused reason =>
      { bench := started.giveBack, stage := .ended (.error (.spawnFailed reason)), spawns }
    | .run run => (observe started engine workspace definitions run).after [] spawns

/-- Build with the engine and the files of the library.  A workspace that cannot be made whole is
left as it is. -/
def build (b : Bench) (message : CompileMessage) (engine : Loaded) (files : Library.Files) :
    Progress :=
  match Workspace.make b.grant with
  | (workspace, some failure) =>
    { bench := b.leave workspace, stage := .ended (.error failure), log := [startingLine] }
  | (_, none) =>
    match prepare message b.library.name files.named with
    | .error failure =>
      { bench := b.giveBack, stage := .ended (.error failure), log := [startingLine] }
    | .ok workspace =>
      match expressions message.overrides with
      | .error failure =>
        { bench := b.giveBack, stage := .ended (.error failure), log := [startingLine] }
      | .ok definitions =>
        (launch b engine workspace definitions).after
          (startingLine :: definitionsLine definitions ++ [.info "Compiling..."]) []

/-- Go on once the engine is there. -/
def equip (b : Bench) (message : CompileMessage) (engine : Loaded) : Progress :=
  if Library.isReferenced b.library.name message.source.toList then
    match b.libraries.peek? b.library.key with
    | some files => (build b message engine files).after [Library.cachedLine b.library files] []
    | none =>
      let found := Library.resolve b.library b.client b.server
      { bench := b, stage := .resolving engine found, log := found.log, requests := found.requests }
  else build b message engine []

/-- Begin a compile. -/
def enter (b : Bench) (message : CompileMessage) : Progress :=
  match b.loaded? with
  | some engine => equip b message engine
  | none =>
    { bench := b.asked, stage := .loading b.ask, log := b.askingLine, spawns := b.ask.spawns }

/-- The line of the log for the status of a run. -/
def statusLine (status : Int) : List LogLine :=
  if status = 0 then [] else [.warning ("OpenSCAD exited with status " ++ toString status ++ ".")]

/-- The line of the log for a run that exceeded its time. -/
def timeoutLine (limit : Number) : LogLine :=
  .error ("Engine timed out after " ++ limit.text ++ "s and was stopped.")

/-- Collect what a run has left in its workspace. -/
def collect (b : Bench) (r : Build) (status : Int) : Progress :=
  let elapsed := (b.clock.sub r.since).roundPlaces 3
  match r.workspace.read [outputFile] with
  | .error failure =>
    { bench := b.giveBack, stage := .ended (.error failure), log := statusLine status }
  | .ok none =>
    { bench := b.giveBack, stage := .ended (.error .artifactMissing), log := statusLine status }
  | .ok (some content) =>
    { bench := b.giveBack,
      stage := .ended (.ok ⟨content, some status, elapsed, r.definitions⟩),
      log := statusLine status ++
        [.success ("Compilation finished: STL " ++ Storage.fileSize content.size)] }

/-- Go on once the run has come to its end. -/
def complete (b : Bench) (r : Build) : Progress :=
  let late := [timeoutLine b.limits.timeout]
  match r.finish with
  | .exited status => collect b r status
  | .overdue status => (collect b r status).after late []
  | .timedOut =>
    if r.lingers then { bench := b, stage := .stopping, log := late, spawns := [.killed] }
    else (collect b r stoppedStatus).after late [.killed]
  | .broken =>
    if r.lingers then { bench := b, stage := .stopping, spawns := [.killed] }
    else { bench := b.giveBack, stage := .ended (.error .cancelled), spawns := [.killed] }

/-- Go on once what is waited for is there. -/
def advance (b : Bench) (message : CompileMessage) : Stage → Progress
  | .loading probe =>
    let later := (b.answerLoad 1 probe).1
    match probe.loaded b.limits with
    | none => { bench := b, stage := .loading probe }
    | some (.error failure) =>
      { bench := later, stage := .ended (.error failure), log := loadedLines (.error failure) }
    | some (.ok engine) => (equip later message engine).after (loadedLines (.ok engine)) []
  | .resolving engine found =>
    let b := b.answerResolve found
    match found.outcome with
    | .error failure => { bench := b, stage := .ended (.error failure), log := found.closing }
    | .ok files => (build b message engine files).after found.closing []
  | .building r => complete b r
  | .stopping => { bench := b, stage := .stopping }
  | .ended outcome => { bench := b, stage := .ended outcome }

/-- Stop a run.  One whose streams stay open keeps its workspace, since its end is waited for. -/
def Build.stop (b : Bench) (r : Build) : Bench × List Spawn :=
  match r.finish with
  | .overdue _ => (b.giveBack, [])
  | .exited _ | .timedOut | .broken => (if r.lingers then b else b.giveBack, [.killed])

/-- Stop a compile where it waits.  What others may wait for too goes on. -/
def stop (b : Bench) : Stage → Bench × List Spawn
  | .loading probe => ((b.answerLoad 1 probe).1, [])
  | .resolving _ found => (b.answerResolve found, [])
  | .building r => r.stop b
  | .stopping => (b.giveBack, [])
  | .ended _ => (b, [])

/-- The stage once every time limit has come. -/
def Stage.expire : Stage → Stage
  | .building r => .building r.expire
  | stage => stage

/-- The most waits of a compile. -/
def maxWaits : Nat := 3

/-- Go on through all waits, when nobody lets a run go; the fuel bounds their number. -/
def finishWithin (message : CompileMessage) : Nat → Progress → Progress
  | 0, p => p
  | fuel + 1, p =>
    match p.stage with
    | .ended _ => p
    | stage =>
      let next := advance p.bench message stage.expire
      finishWithin message fuel
        { next.after p.log p.spawns with requests := p.requests ++ next.requests }

/-- Compile from beginning to end. -/
def run (b : Bench) (message : CompileMessage) : Progress :=
  finishWithin message maxWaits (enter b message)

end SolidWorkshop.Compile
