import SolidWorkshop.Compile.Reply
import SolidWorkshop.Engine.Arguments
import SolidWorkshop.Engine.Loader
import SolidWorkshop.Library.Resolution
import SolidWorkshop.Storage.Size

/-!
# The bench

What all compiles share: the engine and what has been loaded of it, the library and what has been
found of it, the clock, and the count of runs.
-/

namespace SolidWorkshop.Compile

open Engine

/-- What all compiles share. -/
structure Bench where
  engine : Installation
  limits : Limits
  /-- What the system does when a workspace is to be made. -/
  grant : Grant := .granted
  client : Library.Client
  server : Library.Server
  library : Library.Config
  loads : Loads := {}
  /-- The engine has been asked for its version and never answers. -/
  isMute : Bool := false
  libraries : Library.Store := {}
  clock : Binary64 := .zero
  /-- How many runs were started for compiles. -/
  started : Nat := 0
  /-- How many workspaces were there still when their compile had ended. -/
  kept : Nat := 0

namespace Bench

/-- The engine, once it has been loaded. -/
def loaded? (b : Bench) : Option Loaded :=
  b.loads.peek? ()

/-- Let some time go by. -/
def pass (b : Bench) (seconds : Binary64) : Bench :=
  { b with clock := b.clock.sub seconds.neg }

/-- Ask the engine for its version, or wait with those who have asked already. -/
def ask (b : Bench) : Probe :=
  if b.isMute then ⟨[], .zero, none⟩ else b.engine.ask b.limits.probeTimeout

/-- The bench once the engine has been asked. -/
def asked (b : Bench) : Bench :=
  { b.pass b.ask.seconds with isMute := b.ask.answer.isNone }

/-- The line of the log for the one who asks. -/
def askingLine (b : Bench) : List LogLine :=
  if b.isMute then [] else [loadingLine]

/-- Tell those who wait for the engine what came of the question for its version. -/
def answerLoad (b : Bench) (callers : Nat) (probe : Probe) :
    Bench × List (Except Failure Loaded) :=
  match probe.loaded b.limits with
  | none => (b, [])
  | some answer =>
    let (loads, outcomes) := b.loads.share () callers (.ofExcept answer)
    ({ b with loads }, outcomes.map Outcome.toExcept)

/-- This changes nothing but what is known of the engine. -/
theorem answerLoad_eq (b : Bench) (callers : Nat) (probe : Probe) :
    ∃ loads, (b.answerLoad callers probe).1 = { b with loads } := by
  unfold answerLoad
  split
  · exact ⟨b.loads, rfl⟩
  · exact ⟨_, rfl⟩

/-- What some callers who ask for the engine at once are given. -/
structure Shared where
  bench : Bench
  log : List LogLine
  spawns : List Spawn
  results : List (Except Failure Loaded)

/-- Several callers ask for the engine at once: the first one's question loads it, and the others
wait for the same answer.  Without an answer nobody is given anything. -/
def load (b : Bench) (callers : Nat) : Shared :=
  match b.loaded? with
  | some engine => ⟨b, [], [], List.replicate callers (.ok engine)⟩
  | none =>
    if callers = 0 then ⟨b, [], [], []⟩
    else
      let (later, results) := b.asked.answerLoad callers b.ask
      ⟨later, b.askingLine ++ ((b.ask.loaded b.limits).map loadedLines).getD [], b.ask.spawns,
        results⟩

/-- Tell those who wait for the library what came of a resolution. -/
def answerResolve (b : Bench) (found : Library.Resolution) : Bench :=
  { b with libraries := (b.libraries.share b.library.key 1 (.ofExcept found.outcome)).1 }

/-- What the next run of the engine does; the last one repeats. -/
def nextRun (b : Bench) : Start :=
  (b.engine.runs[b.started]?).getD (b.engine.runs.getLast?.getD (.run {}))

/-- Give a workspace back. -/
def giveBack (b : Bench) : Bench :=
  if b.limits.keepWorkspaces then { b with kept := b.kept + 1 } else b

/-- Leave what there is of a workspace where it is. -/
def leave (b : Bench) (workspace : Workspace) : Bench :=
  if workspace.isPresent then { b with kept := b.kept + 1 } else b

end Bench

end SolidWorkshop.Compile
