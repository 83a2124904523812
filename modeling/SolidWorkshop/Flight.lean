import SolidWorkshop.Failure

/-!
# Single flight

A store that finds the value of a key once.  Whoever asks for a key while its value is being
found waits for the same population; a value that has been found is kept, and a population that
fails or is cancelled keeps nothing.

Work is done in turns.  A turn takes the first entry of an agenda; what it causes goes to the end
of the agenda.  Asking, cancelling and answering happen between turns, whatever the agenda
holds.
-/

namespace SolidWorkshop

/-- How a population or a wait ends. -/
inductive Outcome (ν : Type) where
  | value (v : ν)
  | failure (cause : Failure)
  | cancelled

namespace Outcome

variable {ν : Type}

/-- A result as an outcome. -/
def ofExcept : Except Failure ν → Outcome ν
  | .ok v => .value v
  | .error cause => .failure cause

/-- An outcome as a result; what has not ended counts as cancelled. -/
def toExcept : Option (Outcome ν) → Except Failure ν
  | some (.value v) => .ok v
  | some (.failure cause) => .error cause
  | _ => .error .cancelled

end Outcome

namespace Flight

/-- One attempt to find the value of a key. -/
structure Population (κ ν : Type) where
  key : κ
  /-- Its first turn has come. -/
  started : Bool := false
  /-- It is to be cancelled in its next turn. -/
  doomed : Bool := false
  /-- What it has been told, to be taken up in its next turn. -/
  answer : Option (Outcome ν) := none
  /-- How it ended. -/
  outcome : Option (Outcome ν) := none
  /-- The waiters that are told its outcome. -/
  watchers : List Nat := []

/-- Someone who asks for a key. -/
structure Waiter (κ ν : Type) where
  key : κ
  /-- The population it waits for, once its first turn has come. -/
  joined : Option Nat := none
  /-- It is to be cancelled in its next turn. -/
  doomed : Bool := false
  /-- What it has been told, to be taken up in its next turn. -/
  answer : Option (Outcome ν) := none
  /-- How its wait ended. -/
  outcome : Option (Outcome ν) := none

/-- An entry of the agenda. -/
inductive Event where
  /-- A waiter's first turn. -/
  | ask (waiter : Nat)
  /-- A population's first turn. -/
  | populate (population : Nat)
  /-- A population takes up what it has been told. -/
  | resume (population : Nat)
  /-- The store takes up the outcome of a population. -/
  | settle (population : Nat)
  /-- A waiter is told the outcome of a population. -/
  | tell (population waiter : Nat)
  /-- A waiter takes up what it has been told. -/
  | wake (waiter : Nat)
  deriving DecidableEq

/-- The store with everything that is going on. -/
structure State (κ ν : Type) where
  values : List (κ × ν) := []
  inflight : List (κ × Nat) := []
  populations : Array (Population κ ν) := #[]
  waiters : Array (Waiter κ ν) := #[]
  agenda : List Event := []

variable {κ ν : Type} [DecidableEq κ]

namespace State

/-- The stored value of a key. -/
def peek? (s : State κ ν) (key : κ) : Option ν :=
  s.values.lookup key

/-- The keys with a stored value, in the order in which they were stored. -/
def keys (s : State κ ν) : List κ :=
  s.values.map (·.1)

/-- Forget all values. -/
def clear (s : State κ ν) : State κ ν :=
  { s with values := [] }

/-- Keep a value; a known key keeps its place. -/
def store (key : κ) (v : ν) : List (κ × ν) → List (κ × ν)
  | [] => [(key, v)]
  | (k, old) :: rest => if k = key then (k, v) :: rest else (k, old) :: store key v rest

/-- Put events at the end of the agenda. -/
def plan (s : State κ ν) (events : List Event) : State κ ν :=
  { s with agenda := s.agenda ++ events }

/-- Change a population. -/
def setPopulation (s : State κ ν) (p : Nat) (population : Population κ ν) : State κ ν :=
  { s with populations := s.populations.setIfInBounds p population }

/-- Change a waiter. -/
def setWaiter (s : State κ ν) (w : Nat) (waiter : Waiter κ ν) : State κ ν :=
  { s with waiters := s.waiters.setIfInBounds w waiter }

/-- Ask for a key: the state and the number of the waiter. -/
def ask (s : State κ ν) (key : κ) : State κ ν × Nat :=
  ({ s with waiters := s.waiters.push { key := key } }.plan [.ask s.waiters.size],
    s.waiters.size)

/-- End a population. -/
def endPopulation (s : State κ ν) (p : Nat) (population : Population κ ν) (outcome : Outcome ν) :
    State κ ν :=
  (s.setPopulation p { population with outcome := some outcome }).plan
    (.settle p :: population.watchers.map (.tell p))

/-- A waiter's first turn: take a stored value, join the population of the key, or start one. -/
def askTurn (s : State κ ν) (w : Nat) (waiter : Waiter κ ν) : State κ ν :=
  if waiter.doomed then s.setWaiter w { waiter with outcome := some .cancelled }
  else
    match s.peek? waiter.key with
    | some v => s.setWaiter w { waiter with outcome := some (.value v) }
    | none =>
      match s.inflight.lookup waiter.key with
      | some p =>
        match s.populations[p]? with
        | none => s
        | some population =>
          match population.outcome with
          | some outcome => s.setWaiter w { waiter with outcome := some outcome }
          | none =>
            (s.setWaiter w { waiter with joined := some p }).setPopulation p
              { population with watchers := population.watchers ++ [w] }
      | none =>
        let p := s.populations.size
        { s.setWaiter w { waiter with joined := some p } with
          inflight := s.inflight ++ [(waiter.key, p)],
          populations := s.populations.push { key := waiter.key, watchers := [w] } }.plan
            [.populate p]

/-- A population's first turn. -/
def populateTurn (s : State κ ν) (p : Nat) (population : Population κ ν) : State κ ν :=
  if population.doomed then s.endPopulation p population .cancelled
  else s.setPopulation p { population with started := true }

/-- A population takes up what it has been told. -/
def resumeTurn (s : State κ ν) (p : Nat) (population : Population κ ν) : State κ ν :=
  match population.answer with
  | none => s
  | some answer => s.endPopulation p population (if population.doomed then .cancelled else answer)

/-- The store takes up the outcome of a population: only a value is kept. -/
def settleTurn (s : State κ ν) (p : Nat) (population : Population κ ν) : State κ ν :=
  let s := { s with inflight := s.inflight.filter fun entry => entry != (population.key, p) }
  match population.outcome with
  | some (.value v) => { s with values := store population.key v s.values }
  | _ => s

/-- A waiter is told an outcome, unless it has been cancelled. -/
def tellTurn (s : State κ ν) (w : Nat) (waiter : Waiter κ ν) (outcome : Option (Outcome ν)) :
    State κ ν :=
  if waiter.answer.isSome then s
  else (s.setWaiter w { waiter with answer := outcome }).plan [.wake w]

/-- A waiter takes up what it has been told. -/
def wakeTurn (s : State κ ν) (w : Nat) (waiter : Waiter κ ν) : State κ ν :=
  s.setWaiter w { waiter with outcome := if waiter.doomed then some .cancelled else waiter.answer }

/-- Do one event. -/
def perform (s : State κ ν) : Event → State κ ν
  | .ask w => (s.waiters[w]?).elim s (s.askTurn w)
  | .populate p => (s.populations[p]?).elim s (s.populateTurn p)
  | .resume p => (s.populations[p]?).elim s (s.resumeTurn p)
  | .settle p => (s.populations[p]?).elim s (s.settleTurn p)
  | .tell p w =>
    (s.waiters[w]?).elim s fun waiter =>
      s.tellTurn w waiter ((s.populations[p]?).bind (·.outcome))
  | .wake w => (s.waiters[w]?).elim s (s.wakeTurn w)

/-- Take one turn. -/
def turn (s : State κ ν) : State κ ν :=
  match s.agenda with
  | [] => s
  | event :: rest => { s with agenda := rest }.perform event

/-- Take turns until the agenda is empty; the fuel bounds their number. -/
def settleWithin : Nat → State κ ν → State κ ν
  | 0, s => s
  | fuel + 1, s => if s.agenda.isEmpty then s else settleWithin fuel s.turn

/-- Take turns until nothing is left to do.  Every waiter has at most four turns and every
population at most four. -/
def quiesce (s : State κ ν) : State κ ν :=
  settleWithin (s.agenda.length + 16 * (s.waiters.size + s.populations.size) + 16) s

/-- The population of a key that has started and has not been told anything. -/
def open? (s : State κ ν) (key : κ) : Option Nat :=
  s.populations.findIdx? fun p =>
    p.key = key && p.started && p.answer.isNone && p.outcome.isNone

/-- Tell the open population of a key its answer; none when there is no open one. -/
def answer? (s : State κ ν) (key : κ) (answer : Outcome ν) : Option (State κ ν) := do
  let p ← s.open? key
  let population ← s.populations[p]?
  return (s.setPopulation p { population with answer := some answer }).plan [.resume p]

/-- Cancel the population in flight of a key; none when there is none. -/
def abort? (s : State κ ν) (key : κ) : Option (State κ ν) := do
  let p ← s.inflight.lookup key
  let population ← s.populations[p]?
  if population.outcome.isSome then return s
  else if population.started && population.answer.isNone then
    return (s.setPopulation p { population with answer := some .cancelled }).plan [.resume p]
  else return s.setPopulation p { population with doomed := true }

/-- Cancel a waiter, and say whether it was still waiting.  The population it waits for goes
on. -/
def cancel (s : State κ ν) (w : Nat) : State κ ν × Bool :=
  match s.waiters[w]? with
  | none => (s, false)
  | some waiter =>
    if waiter.outcome.isSome then (s, false)
    else if waiter.joined.isSome && waiter.answer.isNone then
      ((s.setWaiter w { waiter with answer := some .cancelled }).plan [.wake w], true)
    else (s.setWaiter w { waiter with doomed := true }, true)

/-- Some callers ask for a key at once, and the population that they start, if they do, is told
its answer: the state, and how the callers' waits end. -/
def share (s : State κ ν) (key : κ) (callers : Nat) (answer : Outcome ν) :
    State κ ν × List (Option (Outcome ν)) :=
  let first := s.waiters.size
  let asked := (Nat.repeat (fun s => (s.ask key).1) callers s).quiesce
  let done := match asked.answer? key answer with
    | some answered => answered.quiesce
    | none => asked
  (done, (List.range callers).map fun k => (done.waiters[first + k]?).bind (·.outcome))

/-- How often a population of a key has started. -/
def starts (s : State κ ν) (key : κ) : Nat :=
  (s.populations.filter fun p => p.key = key && p.started).size

end State

end Flight

end SolidWorkshop
