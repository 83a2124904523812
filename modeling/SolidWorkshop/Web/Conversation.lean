import SolidWorkshop.Compile.Compiler
import SolidWorkshop.Json.Reader

/-!
# Conversations

A client opens a line, sends one message, and is sent the messages of the compile that it asks
for: lines of the log and errors as text, the artifact as one binary frame.  Then the line is
closed.

A client may go away after some frames.  The first frame that it does not take cuts the line, and
the compile is stopped where it waits then.
-/

namespace SolidWorkshop.Web

open Compile

/-- A frame for a client. -/
inductive Frame where
  | accept
  | text (v : Value)
  | binary (content : ByteArray)
  | close (code : Nat) (reason : String)

namespace Frame

/-- The frame of a message. -/
def ofReply : Reply → Frame
  | .result artifact _ _ => .binary artifact
  | reply => .text reply.toValue

/-- The frame that ends a conversation. -/
def goodbye : Frame := .close 1000 ""

/-- The frame for a client that may not open a line. -/
def notAdmitted : Frame := .close 1008 ""

/-- The frame for a compile that ended without a last message. -/
def deserted : Frame := .close 1011 Failure.workerStopped.message

end Frame

/-- The line to a client. -/
structure Line where
  /-- The frames that the client has taken. -/
  frames : List Frame := []
  /-- How many more it takes; without an end when there is no number. -/
  room : Option Nat := none
  /-- A frame was not taken. -/
  isCut : Bool := false

/-- Send frames over a line, as far as they are taken. -/
def Line.send (l : Line) (frames : List Frame) : Line :=
  if l.isCut then l
  else
    match l.room with
    | none => { l with frames := l.frames ++ frames }
    | some room =>
      { frames := l.frames ++ frames.take room
        room := some (room - frames.length)
        isCut := room < frames.length }

/-- What a client does once the line is open. -/
inductive Opening where
  | text (words : String)
  | binary
  | leaves

/-- The words for a message that cannot be read. -/
def unreadable (reason : String) : String :=
  "Invalid compile request: " ++ reason

/-- Read the message of a client: the reason when it is refused.  A report of issues may name the
manual about them. -/
def readMessage (manual : Option String) (words : String) : Except String CompileMessage :=
  match Json.readText words with
  | .error reason => .error reason.message
  | .ok v =>
    match CompileMessage.check v with
    | .good message => .ok message
    | .bad issues => .error (Intake.report manual "CompileRequestMessage" issues)

/-- A conversation: the line, and the compile that it waits for. -/
structure Conversation (π : Type) where
  line : Line
  work : Option π := none

namespace Conversation

variable {σ π : Type}

/-- The conversation goes on with what a stretch of work put out. -/
def hear (c : Compiler σ π) (line : Line) (s : Stretch σ π) : σ × Conversation π :=
  let line := line.send (s.replies.map Frame.ofReply)
  match s.next with
  | .waits work =>
    if line.isCut then (c.stop s.shared work, { line }) else (s.shared, { line, work := some work })
  | .over => (s.shared, { line := line.send [.goodbye] })
  | .deserted => (s.shared, { line := line.send [.deserted] })

/-- A client that may open a line does so. -/
def start (c : Compiler σ π) (manual : Option String) (shared : σ) (room : Option Nat)
    (opening : Opening) : σ × Conversation π :=
  let line := Line.send { room } [.accept]
  let refuse (reason : String) : σ × Conversation π :=
    (shared, { line := line.send [.ofReply (.error (unreadable reason) 0), .goodbye] })
  if line.isCut then (shared, { line })
  else
    match opening with
    | .leaves => (shared, { line })
    | .binary => refuse "expected a JSON text frame"
    | .text words =>
      match readMessage manual words with
      | .error reason => refuse reason
      | .ok message => hear c line (c.start shared message)

/-- A conversation with a client that may not open a line. -/
def refused (room : Option Nat) : Conversation π :=
  { line := Line.send { room } [.notAdmitted] }

/-- Go on as long as the compile can go on by itself; the fuel bounds the number of stretches. -/
def settle (c : Compiler σ π) : Nat → σ → Conversation π → σ × Conversation π
  | 0, shared, t => (shared, t)
  | fuel + 1, shared, t =>
    match t.work with
    | none => (shared, t)
    | some work =>
      match c.resume shared work with
      | none => (shared, t)
      | some s =>
        let (shared, t) := hear c t.line s
        settle c fuel shared t

end Conversation

end SolidWorkshop.Web
