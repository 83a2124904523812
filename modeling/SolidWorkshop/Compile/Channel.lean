import SolidWorkshop.Compile.Artifact

/-!
# The channel of a compile

A compile is served by a worker that puts its messages into an outbox; the consumer takes them out
one after another.  When the outbox is empty the consumer leaves a getter there and waits until
the getter has a message or the worker has ended.  A consumer that goes away stops the worker.

Work is done in turns.  A turn takes the first entry of an agenda, and what it causes goes to the
end of the agenda.
-/

namespace SolidWorkshop.Compile

/-- One thing that a compile does on its way. -/
inductive Act where
  /-- It logs a line. -/
  | log (line : LogLine)
  /-- It gives up its turn. -/
  | pause
  /-- It waits to be let go. -/
  | hold

/-- What a compile does, and how it ends. -/
structure Behaviour where
  acts : List Act
  outcome : Ended

namespace Behaviour

/-- The messages of acts without a wait. -/
def logged : List Act → List Reply
  | [] => []
  | .log line :: rest => .log line :: logged rest
  | _ :: rest => logged rest

/-- All messages of a compile. -/
def messages (b : Behaviour) : List Reply :=
  logged b.acts ++ b.outcome.reply?.toList

end Behaviour

namespace Channel

/-- What the worker is about. -/
inductive Worker where
  /-- It has a turn on the agenda. -/
  | ready
  /-- It waits to be let go. -/
  | held
  | ended
  deriving DecidableEq

/-- What the getter is about. -/
inductive Getter where
  /-- There is none. -/
  | absent
  /-- It has a turn on the agenda. -/
  | ready
  /-- It waits for a message. -/
  | listening
  /-- It has taken a message out of the outbox. -/
  | holding (message : Reply)

/-- What the consumer is about. -/
inductive Consumer where
  | waiting
  /-- It has a turn on the agenda. -/
  | ready
  /-- It has got its last message or has gone away. -/
  | content
  /-- It has found that the worker ended without a last message. -/
  | deserted
  deriving DecidableEq

/-- An entry of the agenda. -/
inductive Event where
  /-- The worker works. -/
  | work
  /-- The getter looks into the outbox. -/
  | look
  /-- The consumer is told that the getter or the worker is done. -/
  | tell
  /-- The consumer takes up its work. -/
  | wake
  deriving DecidableEq

/-- The channel with everything that is going on. -/
structure State where
  /-- What the worker has still to do. -/
  rest : Behaviour
  worker : Worker := .ready
  /-- The worker was stopped from outside, or stopped itself. -/
  isStopped : Bool := false
  outbox : List Reply := []
  getter : Getter := .ready
  consumer : Consumer := .waiting
  /-- What the consumer has got. -/
  delivered : List Reply := []
  /-- After how many messages the consumer goes away. -/
  patience : Option Nat := none
  agenda : List Event := [.work, .look]

namespace State

/-- Put an event at the end of the agenda. -/
def plan (s : State) (event : Event) : State :=
  { s with agenda := s.agenda ++ [event] }

/-- Put a message into the outbox; a getter that listens gets a turn. -/
def put (s : State) (message : Reply) : State :=
  let s := { s with outbox := s.outbox ++ [message] }
  match s.getter with
  | .listening => { s with getter := .ready }.plan .look
  | _ => s

/-- The worker ends. -/
def endWorker (s : State) : State :=
  { s with worker := .ended }.plan .tell

/-- The worker works until it gives up its turn, waits or ends. -/
def workOn (s : State) : List Act → State
  | [] =>
    let s := { s with rest := { s.rest with acts := [] } }
    match s.rest.outcome.reply? with
    | some message => (s.put message).endWorker
    | none => { s with isStopped := true }.endWorker
  | .log line :: acts => (s.put (.log line)).workOn acts
  | .pause :: acts => { s with rest := { s.rest with acts } }.plan .work
  | .hold :: acts => { s with rest := { s.rest with acts }, worker := .held }

/-- A turn of the getter: take a message out of the outbox, or listen for one. -/
def look (s : State) : State :=
  match s.getter, s.outbox with
  | .ready, message :: outbox => { s with getter := .holding message, outbox }.plan .tell
  | .ready, [] => { s with getter := .listening }
  | _, _ => s

/-- The consumer is told that something is done. -/
def tell (s : State) : State :=
  match s.consumer with
  | .waiting => { s with consumer := .ready }.plan .wake
  | _ => s

/-- The consumer goes away: a worker that has not ended is stopped. -/
def leave (s : State) : State :=
  let s := { s with consumer := .content, getter := .absent }
  if s.worker = .ended then s else { s with worker := .ended, isStopped := true }

/-- The consumer has taken some messages and would go on: say whether it is content with these. -/
def isContent (s : State) : Bool :=
  (s.delivered.getLast?.any Reply.isTerminal) || s.patience == some s.delivered.length

/-- The consumer takes messages out of the outbox until it is content; then it looks after the
worker, and leaves a getter if that is still at work. -/
def consume (s : State) : List Reply → State
  | [] =>
    let s := { s with outbox := [] }
    if s.isContent then s.leave
    else if s.worker = .ended then { s with consumer := .deserted }
    else { s with getter := .ready, consumer := .waiting }.plan .look
  | message :: outbox =>
    if s.isContent then { s with outbox := message :: outbox }.leave
    else consume { s with delivered := s.delivered ++ [message] } outbox

/-- A turn of the consumer: take what the getter has, or withdraw it, and go on. -/
def wake (s : State) : State :=
  let s := match s.getter with
    | .holding message => { s with delivered := s.delivered ++ [message] }
    | _ => s
  { s with getter := .absent }.consume s.outbox

/-- Do one event. -/
def perform (s : State) : Event → State
  | .work => if s.worker = .ready then s.workOn s.rest.acts else s
  | .look => s.look
  | .tell => s.tell
  | .wake => if s.consumer = .ready then s.wake else s

/-- Take one turn. -/
def turn (s : State) : State :=
  match s.agenda with
  | [] => s
  | event :: agenda => { s with agenda }.perform event

/-- Take turns until the agenda is empty; the fuel bounds their number. -/
def settleWithin : Nat → State → State
  | 0, s => s
  | fuel + 1, s => if s.agenda.isEmpty then s else settleWithin fuel s.turn

/-- Take turns until nothing is left to do.  Each act and each message takes at most four. -/
def quiesce (s : State) : State :=
  settleWithin (8 * (s.rest.acts.length + 4)) s

end State

/-- What a consumer has got of a compile, and what became of it. -/
structure Heard where
  messages : List Reply
  /-- The worker ended without a last message. -/
  isDeserted : Bool
  /-- The worker was reached at all. -/
  isServed : Bool
  /-- The worker was stopped. -/
  isStopped : Bool

/-- Consume the messages of a compile, going away after some of them if a number is given. -/
def consume (behaviour : Behaviour) (patience : Option Nat) : Heard :=
  if patience = some 0 then ⟨[], false, false, false⟩
  else
    let s := State.quiesce { rest := behaviour, patience }
    ⟨s.delivered, s.consumer = .deserted, true, s.isStopped⟩

end Channel

end SolidWorkshop.Compile
