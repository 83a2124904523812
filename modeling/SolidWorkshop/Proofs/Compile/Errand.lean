import SolidWorkshop.Compile.Stage
import SolidWorkshop.Proofs.Engine.Staging
import SolidWorkshop.Proofs.Flight.Move

/-!
# Errands

A consumer asks for a compile, and a worker runs the errand.  It waits for the engine, for the
library, and for a process that works in a workspace; at each of these waits it may be cancelled,
and while it clears up after one cancellation it may be hit by another.  The consumer may go away
at any time: then it cancels the worker and waits for its end.

Whoever waits for the engine or the library shares a population with others, so that what happens
to these is a history to which the errand and everybody else add their moves.
-/

namespace SolidWorkshop.Compile

open Engine

/-- What an errand is for. -/
structure Purpose where
  message : CompileMessage
  library : Library.Config := {}
  keepWorkspaces : Bool := false

/-- What the system may refuse. -/
inductive Refusal where
  /-- The directory for a workspace. -/
  | workspace (reason : String)
  /-- The directory for libraries in a workspace that has been made. -/
  | libraries (reason : String)
  /-- A process, or the connection to it. -/
  | process (reason : String)

/-- What the system does when a workspace is to be made. -/
def grantOf : Option Refusal → Grant
  | some (.workspace reason) => .refused reason
  | some (.libraries reason) => .bare reason
  | some (.process _) | none => .granted

/-- The process of an errand. -/
inductive Process where
  | absent
  | running
  /-- It has ended, by itself or because it was stopped, and this has still to be noted. -/
  | ended
  | noted (status : Int)
  deriving DecidableEq

namespace Process

/-- Stop a process. -/
def stop : Process → Process
  | .running => .ended
  | process => process

/-- The process has been started, and has come to its end. -/
def hasEnded : Process → Bool
  | .ended | .noted _ => true
  | .absent | .running => false

end Process

/-- What is to be done after a run. -/
inductive Sequel where
  /-- What it has left is collected. -/
  | collect
  | fail (failure : Failure)

/-- What a worker remembers of its run. -/
structure Attempt where
  definitions : List String
  since : Binary64
  limit : Number

/-- What a worker waits for. -/
inductive Wait where
  /-- There is no worker yet. -/
  | absent
  /-- Its first turn. -/
  | turn
  | engine (waiter : Nat)
  | library (engine : Loaded) (waiter : Nat)
  /-- The connection to a process that has been started. -/
  | connection (attempt : Attempt)
  /-- The end of a process to which there will be no connection. -/
  | withdrawal (failure : Failure)
  /-- The end of the run, or its time limit. -/
  | run (attempt : Attempt)
  /-- That nobody watches the run any more, since it takes too long or the worker was cancelled. -/
  | watchers (attempt : Attempt) (isCancelled : Bool)
  /-- The end of a process that has been stopped, and that its streams are closed. -/
  | exit (attempt : Attempt) (sequel : Sequel)
  /-- Nothing more. -/
  | past (outcome : Ended)

namespace Wait

/-- No worker is at work. -/
def isOver : Wait → Bool
  | .absent | .past _ => true
  | _ => false

/-- The worker clears up, or has done so. -/
def isClearing : Wait → Bool
  | .withdrawal _ | .watchers .. | .exit .. | .absent | .past _ => true
  | _ => false

/-- The worker has a workspace. -/
def hasWorkspace : Wait → Bool
  | .connection _ | .withdrawal _ | .run _ | .watchers .. | .exit .. => true
  | _ => false

/-- The worker waits for nothing but the end of a process. -/
def isLast : Wait → Bool
  | .withdrawal _ | .exit .. => true
  | _ => false

/-- A worker that waits for this may have a process in this condition. -/
def Admits : Wait → Process → Prop
  | .connection _, process | .run _, process | .watchers .., process => process ≠ .absent
  | .withdrawal _, process | .exit .., process => process.hasEnded = true
  | _, process => process ≠ .running

end Wait

/-- What the consumer of an errand is about. -/
inductive Consumer where
  /-- It has not asked for the first message. -/
  | idle
  | following
  /-- It waits for the worker to end. -/
  | leaving
  | gone
  deriving DecidableEq

/-- An errand, with all that it holds and all that has happened to what it shares. -/
structure Errand where
  consumer : Consumer := .idle
  wait : Wait := .absent
  /-- The worker is to be cancelled in its next turn. -/
  isCancelled : Bool := false
  process : Process := .absent
  /-- Nobody holds the streams of the process open any more. -/
  isClosed : Bool := false
  /-- What those who watch the run have found. -/
  watched : Option Sequel := none
  /-- The time limit of the run has come. -/
  isLate : Bool := false
  workspace : Workspace := .removed
  clock : Binary64 := .zero
  /-- What has happened to the engines being loaded, the latest first. -/
  loads : List (Flight.Move Unit Loaded) := []
  /-- What has happened to the libraries being resolved, the latest first. -/
  libraries : List (Flight.Move Library.Key Library.Files) := []

namespace Errand

section Asking

variable {κ ν : Type} [DecidableEq κ]

/-- Somebody asks for a key and has the first turn at once. -/
def asking (key : κ) (moves : List (Flight.Move κ ν)) : List (Flight.Move κ ν) :=
  .turn (Flight.State.after moves).agenda.length :: .get key :: moves

/-- The waiter that asks next. -/
def nextWaiter (moves : List (Flight.Move κ ν)) : Nat :=
  (Flight.State.after moves).waiters.size

/-- How the wait of a waiter ended. -/
def told? (moves : List (Flight.Move κ ν)) (waiter : Nat) : Option (Outcome ν) :=
  ((Flight.State.after moves).waiters[waiter]?).bind (·.outcome)

end Asking

/-! ## The worker -/

/-- The worker ends, and its workspace is given back. -/
def finish (p : Purpose) (s : Errand) (outcome : Ended) : Errand :=
  { s with
    wait := .past outcome
    isCancelled := false
    workspace := if p.keepWorkspaces then s.workspace else .removed }

/-- The worker ends before it has a workspace to give back. -/
def abandon (s : Errand) (outcome : Ended) : Errand :=
  { s with wait := .past outcome, isCancelled := false }

/-- What a run has left. -/
def bring (s : Errand) (a : Attempt) (status : Int) : Ended :=
  match s.workspace.read [outputFile] with
  | .error failure => .error failure
  | .ok none => .error .artifactMissing
  | .ok (some content) =>
    .ok ⟨content, some status, (s.clock.sub a.since).roundPlaces 3, a.definitions⟩

/-- The process has ended: do what is to be done after the run. -/
def conclude (p : Purpose) (s : Errand) (a : Attempt) (status : Int) : Sequel → Errand
  | .collect => s.finish p (s.bring a status)
  | .fail failure => s.finish p (.error failure)

/-- Nobody watches the run any more: stop the process unless its end has been noted. -/
def terminate (p : Purpose) (s : Errand) (a : Attempt) (sequel : Sequel) : Errand :=
  match s.process with
  | .noted status => s.conclude p a status sequel
  | process =>
    { s with process := process.stop, wait := .exit a sequel, isCancelled := false }

/-- Start the engine on a workspace. -/
def launch (p : Purpose) (refusal : Option Refusal) (s : Errand) (engine : Loaded)
    (definitions : List String) : Errand :=
  if holdsZero definitions then s.finish p (.error .zeroInArgument)
  else
    match refusal with
    | some (.process reason) => s.finish p (.error (.spawnFailed reason))
    | _ =>
      { s with
        process := .running
        isClosed := false
        watched := none
        isLate := false
        wait := .connection ⟨definitions, s.clock, engine.timeout⟩ }

/-- Build in a workspace that has been handed out for it. -/
def carryOut (p : Purpose) (refusal : Option Refusal) (s : Errand) (engine : Loaded)
    (files : Library.Files) : Errand :=
  match furnish p.message p.library.name files.named with
  | (workspace, some failure) => { s with workspace }.finish p (.error failure)
  | (workspace, none) =>
    match expressions p.message.overrides with
    | .error failure => { s with workspace }.finish p (.error failure)
    | .ok definitions => { s with workspace }.launch p refusal engine definitions

/-- Make a workspace and build in it.  What there is of one that cannot be made whole stays: nobody
has it to give it back. -/
def build (p : Purpose) (refusal : Option Refusal) (s : Errand) (engine : Loaded)
    (files : Library.Files) : Errand :=
  match Workspace.make (grantOf refusal) with
  | (workspace, some failure) => { s with workspace }.abandon (.error failure)
  | (workspace, none) => { s with workspace }.carryOut p refusal engine files

/-- Go on with what a wait has brought. -/
def goOn {ν : Type} (p : Purpose) (s : Errand) (next : Errand → ν → Errand) : Outcome ν → Errand
  | .value v => next s v
  | .failure failure => s.finish p (.error failure)
  | .cancelled => s.finish p (.error .cancelled)

/-- Go on once the engine is there: ask for the library if the source uses it. -/
def equip (p : Purpose) (refusal : Option Refusal) (s : Errand) (engine : Loaded) : Errand :=
  if Library.isReferenced p.library.name p.message.source.toList then
    let waiter := nextWaiter s.libraries
    let s := { s with libraries := asking p.library.key s.libraries }
    match told? s.libraries waiter with
    | some outcome => s.goOn p (fun s => s.build p refusal engine) outcome
    | none => { s with wait := .library engine waiter }
  else s.build p refusal engine []

/-- The first turn: ask for the engine. -/
def enter (p : Purpose) (refusal : Option Refusal) (s : Errand) : Errand :=
  let waiter := nextWaiter s.loads
  let s := { s with loads := asking () s.loads }
  match told? s.loads waiter with
  | some outcome => s.goOn p (equip p refusal) outcome
  | none => { s with wait := .engine waiter }

/-- Give up the connection to a process. -/
def withdraw (s : Errand) (failure : Failure) : Errand :=
  { s with process := s.process.stop, wait := .withdrawal failure, isCancelled := false }

/-- The process is connected: have the run watched, unless there is no time for it. -/
def connect (s : Errand) (a : Attempt) : Errand :=
  { s with wait := if isNoTime a.limit then .watchers a false else .run a }

/-- A turn of the worker, if it has something to go on with.  A cancellation comes up in the next
turn, whatever else there is to go on with, except that a watched run which has come to its end is
taken for what it is. -/
def work (p : Purpose) (refusal : Option Refusal) (s : Errand) : Option Errand :=
  match s.wait with
  | .absent | .past _ => none
  | .turn => some (if s.isCancelled then s.finish p (.error .cancelled) else s.enter p refusal)
  | .engine waiter =>
    if s.isCancelled then some (s.finish p (.error .cancelled))
    else (told? s.loads waiter).map (s.goOn p (equip p refusal))
  | .library engine waiter =>
    if s.isCancelled then some (s.finish p (.error .cancelled))
    else (told? s.libraries waiter).map (s.goOn p fun s => s.build p refusal engine)
  | .connection a =>
    match s.isCancelled, refusal with
    | true, _ => some (s.withdraw .cancelled)
    | false, some (.process reason) => some (s.withdraw (.spawnFailed reason))
    | false, _ => some (s.connect a)
  | .withdrawal failure =>
    match s.isCancelled, s.process with
    | true, _ => some (s.finish p (.error .cancelled))
    | false, .noted _ => some (s.finish p (.error failure))
    | false, _ => none
  | .run a =>
    match s.watched with
    | some sequel => some (s.terminate p a sequel)
    | none =>
      if s.isCancelled then some { s with wait := .watchers a true, isCancelled := false }
      else if s.isLate then some { s with wait := .watchers a false }
      else none
  | .watchers a isCancelled =>
    if s.isCancelled || isCancelled then some (s.terminate p a (.fail .cancelled))
    else some (s.terminate p a (s.watched.getD .collect))
  | .exit a sequel =>
    if s.isCancelled then some (s.finish p (.error .cancelled))
    else
      match s.process, s.isClosed with
      | .noted status, true => some (s.conclude p a status sequel)
      | _, _ => none

/-! ## All that happens -/

/-- Cancel the worker.  If it shares a population, this goes on without it. -/
def cancel (s : Errand) : Errand :=
  match s.wait with
  | .engine waiter => { s with isCancelled := true, loads := .cancel waiter :: s.loads }
  | .library _ waiter => { s with isCancelled := true, libraries := .cancel waiter :: s.libraries }
  | _ => { s with isCancelled := true }

/-- One thing that happens. -/
inductive Event where
  /-- The consumer asks for the first message. -/
  | ask
  /-- The consumer has its last message, finds that there will be none, or is closed or
  cancelled. -/
  | leave
  /-- The worker has ended while the consumer waited for this. -/
  | part
  /-- Somebody else cancels the worker. -/
  | interrupt
  /-- The worker has a turn, in which the system may refuse something. -/
  | work (refusal : Option Refusal)
  /-- Something happens to the engines being loaded. -/
  | load (move : Flight.Move Unit Loaded)
  /-- Something happens to the libraries being resolved. -/
  | resolve (move : Flight.Move Library.Key Library.Files)
  /-- The process writes into the workspace. -/
  | write (entries : List (Place × Entry))
  /-- The process comes to its end. -/
  | exit
  /-- The end of the process is noted. -/
  | note (status : Int)
  /-- The last one who holds the streams of the process open lets go of them. -/
  | close
  /-- Those who watch the run have come to an end. -/
  | watch (sequel : Sequel)
  /-- The time limit of the run comes. -/
  | limit
  | pass (seconds : Binary64)

/-- The errand after something has happened, if it can. -/
def step? (p : Purpose) (s : Errand) : Event → Option Errand
  | .ask =>
    match s.consumer with
    | .idle => some { s with consumer := .following, wait := .turn }
    | _ => none
  | .leave =>
    match s.consumer with
    | .idle => some { s with consumer := .gone }
    | .following =>
      if s.wait.isOver then some { s with consumer := .gone }
      else some { s.cancel with consumer := .leaving }
    | .leaving => if s.wait.isOver then none else some s.cancel
    | .gone => none
  | .part =>
    match s.consumer with
    | .leaving => if s.wait.isOver then some { s with consumer := .gone } else none
    | _ => none
  | .interrupt => if s.wait.isOver then none else some s.cancel
  | .work refusal => s.work p refusal
  | .load move => some { s with loads := move :: s.loads }
  | .resolve move => some { s with libraries := move :: s.libraries }
  | .write entries =>
    match s.process with
    | .running => some { s with workspace := { s.workspace with entries } }
    | _ => none
  | .exit =>
    match s.process with
    | .running => some { s with process := .ended }
    | _ => none
  | .note status =>
    match s.process with
    | .ended => some { s with process := .noted status }
    | _ => none
  | .close =>
    match s.process with
    | .absent => none
    | _ => some { s with isClosed := true }
  | .watch sequel =>
    match s.wait, s.watched with
    | .run _, none | .watchers .., none => some { s with watched := some sequel }
    | _, _ => none
  | .limit =>
    match s.wait with
    | .run _ => some { s with isLate := true }
    | _ => none
  | .pass seconds => some { s with clock := s.clock.sub seconds.neg }

/-- The errand after some things have happened, one after another. -/
def run? (p : Purpose) (s : Errand) (events : List Event) : Option Errand :=
  events.foldlM (step? p) s

/-- An errand that nobody has asked for. -/
def IsIdle (s : Errand) : Prop :=
  s = { clock := s.clock, loads := s.loads, libraries := s.libraries }

end Errand

end SolidWorkshop.Compile
