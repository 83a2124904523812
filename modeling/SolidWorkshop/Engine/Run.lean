import SolidWorkshop.Engine.Workspace
import SolidWorkshop.Log
import SolidWorkshop.Number
import SolidWorkshop.Text.Utf8

/-!
# Runs of the engine

The engine is a program of its own.  What one run of it does is given as data: what it writes to
its two streams, what it leaves at the place of the artifact, how long it takes, and how it ends.
A process that outlives the run may hold its streams open for good.  Here is what the log is told
about the streams, and what becomes of a run that is watched with a time limit.
-/

namespace SolidWorkshop.Engine

/-- How a run ends after all its output. -/
inductive Ending where
  /-- It exits. -/
  | exits (status : Int)
  /-- It exits once it is let go. -/
  | waits (status : Int)
  /-- It goes on until it is stopped. -/
  | endless
  /-- Whoever waits for it is stopped. -/
  | breaks

/-- One run of the engine. -/
structure Run where
  stdout : ByteArray := .empty
  stderr : ByteArray := .empty
  /-- What the run leaves at the place of the artifact. -/
  product : Option Entry := none
  seconds : Binary64 := .zero
  ending : Ending := .exits 0
  /-- Its streams stay open when it has ended. -/
  lingers : Bool := false

/-- An attempt to start the engine. -/
inductive Start where
  /-- The process cannot be started. -/
  | refused (reason : String)
  | run (run : Run)

/-- The status of a run that has been stopped. -/
def stoppedStatus : Int := -9

/-- The most bytes that a line of output may have. -/
def lineLimit : Nat := 1024 * 1024

/-- The byte that ends a line. -/
def newline : UInt8 := 10

/-- Put a byte behind the pieces read so far: the finished lines, and the bytes of the line that
has begun, both in reverse. -/
def readByte (state : List (List UInt8) × List UInt8) (b : UInt8) :
    List (List UInt8) × List UInt8 :=
  if b = newline then (state.2.reverse :: state.1, []) else (state.1, b :: state.2)

/-- The lines of a stream, and the bytes behind the last line end. -/
def splitLines (stream : ByteArray) : List (List UInt8) × List UInt8 :=
  let (lines, rest) := stream.toList.foldl readByte ([], [])
  (lines.reverse, rest.reverse)

/-- The text of a line without line ends. -/
def lineText (line : List UInt8) : List Char :=
  Text.dropEndWhile (fun c => c = '\r' || c = '\n')
    (Text.Utf8.decodeLenient ⟨line.toArray⟩).toList

/-- What the log is told about a stream, and why reading it broke off. -/
structure Told where
  log : List LogLine
  failure : Option Failure

namespace Told

/-- Two streams, the second behind the first; the first failure counts. -/
def append (first second : Told) : Told :=
  ⟨first.log ++ second.log, first.failure.orElse fun _ => second.failure⟩

end Told

/-- Tell the log a line with some text in it. -/
def tellLine (level : List Char → Level) (line : List UInt8) : List LogLine :=
  let text := lineText line
  if text.isEmpty then [] else [⟨String.ofList text, level text⟩]

/-- Tell the log some ended lines and the bytes behind them, after what it has been told, the last
line first.  A line that is too long breaks the reading off; the bytes behind the last line end are
a line only when the stream is closed. -/
def tellLines (level : List Char → Level) (isOpen : Bool) (rest : List UInt8)
    (told : List LogLine) : List (List UInt8) → Told
  | [] =>
    if lineLimit < rest.length then ⟨told.reverse, some (.lineTooLong false)⟩
    else ⟨told.reverse ++ if isOpen then [] else tellLine level rest, none⟩
  | line :: lines =>
    if lineLimit < line.length then ⟨told.reverse, some (.lineTooLong true)⟩
    else tellLines level isOpen rest ((tellLine level line).reverse ++ told) lines

/-- Tell the log a stream. -/
def tellStream (level : List Char → Level) (isOpen : Bool) (stream : ByteArray) : Told :=
  let (lines, rest) := splitLines stream
  tellLines level isOpen rest [] lines

namespace Run

/-- What the log is told about the output of a run. -/
def output (r : Run) : Told :=
  (tellStream (fun _ => .info) r.lingers r.stdout).append
    (tellStream Level.ofDiagnostic r.lingers r.stderr)

end Run

/-- How a watched run came to its end. -/
inductive Finish where
  /-- With a status of its own. -/
  | exited (status : Int)
  /-- With a status of its own, but its streams were open until its time was up. -/
  | overdue (status : Int)
  /-- It exceeded its time and was stopped. -/
  | timedOut
  /-- Whoever waited for it was stopped, and the run with it. -/
  | broken

namespace Finish

/-- The run had to be stopped. -/
def isStopped : Finish → Bool
  | .exited _ | .overdue _ => false
  | .timedOut | .broken => true

/-- How a watched run comes to its end when it exits. -/
def ofStatus (lingers : Bool) (status : Int) : Finish :=
  if lingers then .overdue status else .exited status

end Finish

/-- How a run comes to its end when it is watched until then and nobody lets it go. -/
def Ending.finish (lingers : Bool) : Ending → Finish
  | .exits status => .ofStatus lingers status
  | .waits _ | .endless => .timedOut
  | .breaks => .broken

/-- What has to happen before a watched run comes to its end. -/
inductive Pending where
  | nothing
  /-- Someone lets it go, or its time limit comes. -/
  | release (status : Int)
  /-- Its time limit comes. -/
  | limit
  deriving DecidableEq

/-- What has to happen before a run that has exited is over for those who watch it. -/
def Pending.ofExit (lingers : Bool) : Pending :=
  if lingers then .limit else .nothing

/-- What has to happen before a run with this ending comes to it. -/
def Ending.pending (lingers : Bool) : Ending → Pending
  | .exits _ => .ofExit lingers
  | .breaks => .nothing
  | .waits status => .release status
  | .endless => .limit

/-- A time limit that allows for nothing. -/
def isNoTime (limit : Number) : Bool :=
  limit.le (.int 0)

namespace Run

/-- What the log is told about the output of a run that is watched with a time limit. -/
def told (r : Run) (limit : Number) : Told :=
  if isNoTime limit then ⟨[], none⟩ else r.output

/-- How a run that is watched with a time limit comes to its end. -/
def finish (r : Run) (limit : Number) : Finish :=
  if isNoTime limit then .timedOut else r.ending.finish r.lingers

/-- What has to happen before a run that is watched with a time limit comes to its end. -/
def pending (r : Run) (limit : Number) : Pending :=
  if isNoTime limit then .nothing else r.ending.pending r.lingers

/-- The run has to be stopped, and its streams are open even then: its end is waited for in
vain. -/
def isHopeless (r : Run) (limit : Number) : Bool :=
  r.lingers && (r.finish limit).isStopped

end Run

end SolidWorkshop.Engine
