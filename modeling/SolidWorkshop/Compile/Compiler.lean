import SolidWorkshop.Compile.Channel
import SolidWorkshop.Compile.Stage

/-!
# Compilers

A compiler takes a message and works on it in stretches.  Between them the compile waits for
something; it may be able to go on by itself, or it may have to be let go first.  Two compilers
are given here: the one that uses the engine, and one that follows a script.
-/

namespace SolidWorkshop.Compile

/-- What a compile is about after a stretch of work. -/
inductive Next (π : Type) where
  /-- It waits. -/
  | waits (work : π)
  /-- Its last message is out. -/
  | over
  /-- It ended without a last message. -/
  | deserted

/-- What a stretch of work led to, and the messages that it put out. -/
structure Stretch (σ π : Type) where
  shared : σ
  replies : List Reply
  next : Next π

/-- A compiler: `σ` is what its compiles share, and `π` is a compile that waits. -/
structure Compiler (σ π : Type) where
  start : σ → CompileMessage → Stretch σ π
  /-- Go on with a compile that can go on by itself. -/
  resume : σ → π → Option (Stretch σ π)
  /-- Stop a compile. -/
  stop : σ → π → σ

/-! ## The engine -/

/-- A compile with the engine that waits. -/
structure Underway where
  message : CompileMessage
  stage : Stage

namespace Underway

/-- The compile cannot go on by itself. -/
def isHeld (u : Underway) : Bool :=
  match u.stage with
  | .loading probe => probe.answer.isNone
  | .building r => r.pending ≠ .nothing
  | .stopping => true
  | .resolving .. | .ended _ => false

/-- Let a compile go that waits for it. -/
def letGo (u : Underway) : Underway :=
  match u.stage with
  | .building r => { u with stage := .building r.letGo }
  | _ => u

/-- Let the time limit of a compile come. -/
def expire (u : Underway) : Underway :=
  { u with stage := u.stage.expire }

end Underway

/-- What became of a compile with the engine. -/
def Progress.stretch (p : Progress) (message : CompileMessage) : Stretch Bench Underway :=
  let logged := p.log.map Reply.log
  match p.stage with
  | .ended outcome =>
    match outcome.reply? with
    | some reply => ⟨p.bench, logged ++ [reply], .over⟩
    | none => ⟨p.bench, logged, .deserted⟩
  | stage => ⟨p.bench, logged, .waits ⟨message, stage⟩⟩

/-- The compiler that uses the engine. -/
def withEngine : Compiler Bench Underway where
  start b message := (enter b message).stretch message
  resume b u :=
    if u.isHeld then none else some ((advance b u.message u.stage).stretch u.message)
  stop b u := (Compile.stop b u.stage).1

/-! ## Scripts -/

/-- The compiles that a script asks for in turn, the last one repeating, and those that were made
so far. -/
structure Script where
  behaviours : List Behaviour
  calls : List CompileMessage := []

/-- A scripted compile that waits. -/
structure Scripted where
  call : Nat
  rest : Behaviour
  isHeld : Bool

/-- The acts up to the first wait: the lines that they log, and the acts behind the wait. -/
def untilHold : List Act → List Reply × Option (List Act)
  | [] => ([], none)
  | .log line :: rest =>
    let (logged, held) := untilHold rest
    (.log line :: logged, held)
  | .pause :: rest => untilHold rest
  | .hold :: rest => ([], some rest)

/-- Work on a scripted compile until it waits or ends. -/
def Script.work (s : Script) (call : Nat) (b : Behaviour) : Stretch Script Scripted :=
  let (logged, held) := untilHold b.acts
  match held with
  | some acts => ⟨s, logged, .waits ⟨call, { b with acts }, true⟩⟩
  | none =>
    match b.outcome.reply? with
    | some reply => ⟨s, logged ++ [reply], .over⟩
    | none => ⟨s, logged, .deserted⟩

/-- What a script asks for in a call. -/
def Script.behaviour (s : Script) (call : Nat) : Behaviour :=
  (s.behaviours[call]?).getD (s.behaviours.getLast?.getD ⟨[], .error .cancelled⟩)

/-- The compiler that follows a script. -/
def withScript : Compiler Script Scripted where
  start s message :=
    let call := s.calls.length
    { s with calls := s.calls ++ [message] }.work call (s.behaviour call)
  resume s u := if u.isHeld then none else some (s.work u.call u.rest)
  stop s _ := s

end SolidWorkshop.Compile
