import SolidWorkshop.Engine.Run
import SolidWorkshop.Flight

/-!
# Loading the engine

Before its first compile the engine is asked for its version.  The answer is kept, so that the
engine is asked once; whoever needs the engine meanwhile waits for the same answer.
-/

namespace SolidWorkshop.Engine

/-- What stands at the place of the engine. -/
inductive Occupant where
  /-- A file that can be run. -/
  | program
  /-- A file that cannot be run. -/
  | plain
  | directory
  | nothing
  deriving DecidableEq

/-- The engine as it is installed: its place, and what its runs do. -/
structure Installation where
  path : String
  occupant : Occupant
  /-- The run that is asked for the version. -/
  probe : Start
  /-- The runs of compiles in turn; the last one repeats. -/
  runs : List Start

/-- How the engine is used. -/
structure Limits where
  /-- The time limit of a compile. -/
  timeout : Number := .int 300
  /-- The time limit of the question for the version. -/
  probeTimeout : Number := .int 60
  keepWorkspaces : Bool := false

/-- The engine once it has been loaded. -/
structure Loaded where
  version : String
  timeout : Number

/-- A process that was started, or that one was stopped. -/
inductive Spawn where
  /-- The engine was asked for its version. -/
  | probe (command : List String)
  /-- The engine was started on a workspace. -/
  | build (command : List String) (files : List (String × Entry))
  /-- A process was stopped. -/
  | killed

/-- The arguments that ask for the version. -/
def probeArguments : List String :=
  ["--version"]

/-- The characters that end a line of the engine's answer. -/
def endsLine (c : Char) : Bool :=
  let n := c.toNat
  (10 ≤ n && n ≤ 13) || (0x1c ≤ n && n ≤ 0x1e) || n == 0x85 || n == 0x2028 || n == 0x2029

/-- The version that stands for an empty answer. -/
def unknownVersion : String := "unknown version"

/-- The version in an answer: its first line. -/
def versionOf (answer : List Char) : String :=
  let text := Text.trim answer
  if text.isEmpty then unknownVersion
  else String.ofList (Text.trim (text.takeWhile fun c => !endsLine c))

/-- What the question for the version led to. -/
structure Probe where
  spawns : List Spawn
  seconds : Binary64
  /-- The answer; none if it never comes. -/
  answer : Option (Except Failure String)

/-- Ask the engine for its version. -/
def Installation.ask (i : Installation) (limit : Number) : Probe :=
  if i.occupant ≠ .program then ⟨[], .zero, some (.error (.engineMissing i.path))⟩
  else
    let spawn := Spawn.probe (i.path :: probeArguments)
    match i.probe with
    | .refused reason => ⟨[spawn], .zero, some (.error (.engineNotStarted i.path reason))⟩
    | .run r =>
      let silence := Except.error (.engineSilent i.path limit)
      match r.finish limit with
      | .timedOut => ⟨[spawn, .killed], r.seconds, if r.lingers then none else some silence⟩
      | .overdue _ => ⟨[spawn], r.seconds, some silence⟩
      | .broken => ⟨[spawn], r.seconds, some (.error .cancelled)⟩
      | .exited status =>
        if status ≠ 0 then ⟨[spawn], r.seconds, some (.error (.engineStatus i.path status))⟩
        else
          let answer := Text.Utf8.decodeLenient (r.stdout ++ r.stderr)
          ⟨[spawn], r.seconds, some (.ok (versionOf answer.toList))⟩

/-- The engines loaded so far, and those being loaded. -/
abbrev Loads := Flight.State Unit Loaded

/-- The line of the log at the start of loading. -/
def loadingLine : LogLine :=
  .info "Loading OpenSCAD engine..."

/-- The lines of the log at the end of loading. -/
def loadedLines : Except Failure Loaded → List LogLine
  | .ok engine => [.success ("OpenSCAD engine loaded (" ++ engine.version ++ ").")]
  | .error failure =>
    if failure.area = .engine then
      [.error ("Error loading OpenSCAD engine: " ++ failure.message)]
    else []

/-- The engine with the version it answered. -/
def Probe.loaded (p : Probe) (limits : Limits) : Option (Except Failure Loaded) :=
  p.answer.map fun answer => answer.map fun version => ⟨version, limits.timeout⟩

end SolidWorkshop.Engine
