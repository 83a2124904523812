import SolidWorkshop.Compile.Compiler
import SolidWorkshop.Job.Board

/-!
# The floor

The workers of a board at work with a compiler.  A free worker takes the first id of the queue and
starts its compile; whatever the compile puts out goes to the job's record.
-/

namespace SolidWorkshop.Job

open Compile

/-- A board, what its compiles share, and the compiles that its busy workers wait for. -/
structure Floor (σ π : Type) where
  board : Board
  shared : σ
  works : List (Nat × π) := []
  /-- The board is tidied up whenever nothing is left to do. -/
  isTidy : Bool := false
  /-- Who tidies up: those who came in with the workers, and whether the last one is known. -/
  cleaners : Nat := 0
  hasCleaner : Bool := false

namespace Floor

variable {σ π : Type}

/-- What became of a worker's compile: its messages are received, and the worker waits or becomes
free. -/
def settleWork (f : Floor σ π) (worker : Nat) (s : Stretch σ π) : Floor σ π :=
  let board := s.replies.foldl (fun b reply => b.receive worker reply) f.board
  let works := f.works.filter fun work => work.1 != worker
  match s.next with
  | .waits work => { f with board, shared := s.shared, works := (worker, work) :: works }
  | .over => { f with board := board.finish worker, shared := s.shared, works }
  | .deserted => { f with board := board.desert worker, shared := s.shared, works }

/-- A free worker takes the first id of the queue. -/
def take (f : Floor σ π) (c : Compiler σ π) (worker : Nat) : Floor σ π :=
  let (board, message) := f.board.take worker
  let f := { f with board }
  match message with
  | none => f
  | some message => f.settleWork worker (c.start f.shared message)

/-- The first compile that can go on by itself. -/
def ready? (f : Floor σ π) (c : Compiler σ π) : Option (Nat × Stretch σ π) :=
  f.works.findSome? fun (worker, work) => (c.resume f.shared work).map fun s => (worker, s)

/-- One step of one worker; none when nothing is left to do. -/
def step? (f : Floor σ π) (c : Compiler σ π) : Option (Floor σ π) :=
  match f.ready? c with
  | some (worker, s) => some (f.settleWork worker s)
  | none =>
    match f.board.idle?, f.board.queue with
    | some worker, _ :: _ => some (f.take c worker)
    | _, _ => none

/-- Take steps until nothing is left to do; the fuel bounds their number. -/
def settleWithin (c : Compiler σ π) : Nat → Floor σ π → Floor σ π
  | 0, f => f
  | fuel + 1, f =>
    match f.step? c with
    | some f => settleWithin c fuel f
    | none => f

/-- The most steps that a compile takes. -/
def maxSteps : Nat := 8

/-- Take steps until nothing is left to do, and tidy up. -/
def settle (f : Floor σ π) (c : Compiler σ π) : Floor σ π :=
  let f := settleWithin c (maxSteps * (f.board.queue.length + f.works.length + 1)) f
  if f.isTidy && 0 < f.cleaners then { f with board := f.board.prune } else f

/-- Change the compiles that are waited for. -/
def change (f : Floor σ π) (g : π → π) : Floor σ π :=
  { f with works := f.works.map fun (worker, work) => (worker, g work) }

/-- Some workers come in, and someone who tidies up. -/
def startUp (f : Floor σ π) (workers : Nat) : Floor σ π :=
  { f with
    board := f.board.admitWorkers workers
    cleaners := f.cleaners + 1
    hasCleaner := true }

/-- All workers go, and the last one who tidies up.  The compiles under way are stopped. -/
def shutDown (f : Floor σ π) (c : Compiler σ π) : Floor σ π :=
  { f with
    board := f.board.dismiss
    shared := f.works.foldl (fun shared (_, work) => c.stop shared work) f.shared
    works := []
    cleaners := if f.hasCleaner then f.cleaners - 1 else f.cleaners
    hasCleaner := false }

end Floor

end SolidWorkshop.Job
