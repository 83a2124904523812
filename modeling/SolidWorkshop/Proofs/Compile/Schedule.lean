import Mathlib.Logic.Relation
import Mathlib.Tactic.SplitIfs
import SolidWorkshop.Compile.Channel

/-!
# Schedules of a channel

The turns of a channel in any order: whatever is on the agenda may come next, a worker that waits
may be let go at any time, and the consumer may be held up between any two messages.  The turns
that are taken in their order are one such schedule.
-/

namespace SolidWorkshop.Compile.Channel

open Relation

/-- The message that a getter holds. -/
def Getter.carried : Getter → List Reply
  | .holding message => [message]
  | _ => []

namespace State

/-- The consumer takes up its work and stops at its next message. -/
def resume (s : State) : State :=
  match s.getter with
  | .holding message =>
    { s with getter := .absent, delivered := s.delivered ++ [message] }.plan .wake
  | _ =>
    let s := { s with getter := .absent }
    if s.isContent then s.leave
    else
      match s.outbox with
      | message :: outbox =>
        { s with outbox, delivered := s.delivered ++ [message] }.plan .wake
      | [] =>
        if s.worker = .ended then { s with consumer := .deserted }
        else { s with getter := .ready, consumer := .waiting }.plan .look

/-- Do one event, of the consumer's work no more than one message. -/
def undertake (s : State) : Event → State
  | .wake => if s.consumer = .ready then s.resume else s
  | event => s.perform event

/-- Any event on the agenda is done, or a worker that waits is let go. -/
inductive Step : State → State → Prop
  | turn {s : State} {before after : List Event} {event : Event}
    (h : s.agenda = before ++ event :: after) :
    Step s ({ s with agenda := before ++ after }.undertake event)
  | release {s : State} (h : s.worker = .held) :
    Step s ({ s with worker := .ready }.plan .work)

/-- Steps in any order. -/
abbrev Run : State → State → Prop :=
  ReflTransGen Step

/-- The channel of a compile at its start, with a consumer that does not go away. -/
def start (b : Behaviour) : State :=
  { rest := b }

/-- The consumer has its end behind it. -/
def IsSettled (s : State) : Prop :=
  s.consumer = .content ∨ s.consumer = .deserted

/-! ## What a turn can do -/

/-- A message is put into the outbox, and a getter that listens gets a turn. -/
theorem put_cases (s : State) (message : Reply) :
    s.getter = .listening ∧
        s.put message = { s with
          outbox := s.outbox ++ [message]
          getter := .ready
          agenda := s.agenda ++ [.look] } ∨
      s.getter ≠ .listening ∧ s.put message = { s with outbox := s.outbox ++ [message] } := by
  unfold put
  cases hgetter : s.getter with
  | listening => exact Or.inl ⟨rfl, rfl⟩
  | _ => exact Or.inr ⟨nofun, rfl⟩

theorem workOn_nil_of_some
    {s : State} {message : Reply} (h : s.rest.outcome.reply? = some message) :
    s.workOn [] = ({ s with rest := { s.rest with acts := [] } }.put message).endWorker := by
  unfold workOn
  dsimp only
  rw [h]

theorem workOn_nil_of_none
    {s : State} (h : s.rest.outcome.reply? = none) :
    s.workOn [] =
      { s with rest := { s.rest with acts := [] }, isStopped := true }.endWorker := by
  unfold workOn
  dsimp only
  rw [h]

theorem exists_leave_eq (s : State) :
    ∃ isStopped, s.leave =
      { s with worker := .ended, isStopped, consumer := .content, getter := .absent } := by
  unfold leave
  dsimp only
  split_ifs with hended
  · refine ⟨s.isStopped, ?_⟩
    rw [← hended]
  · exact ⟨true, rfl⟩

/-- Without a getter that holds a message, the consumer goes on with what is in the outbox. -/
theorem resume_of_carried
    {s : State} (hgetter : s.getter.carried = []) :
    s.resume =
      if s.isContent then { s with getter := .absent }.leave
      else
        match s.outbox with
        | message :: outbox =>
          { s with
            getter := .absent
            outbox
            delivered := s.delivered ++ [message] }.plan .wake
        | [] =>
          if s.worker = .ended then { s with getter := .absent, consumer := .deserted }
          else { s with getter := .ready, consumer := .waiting }.plan .look := by
  unfold resume
  split
  · next message hholding =>
    rw [hholding] at hgetter
    contradiction
  · rfl

/-- The consumer gets the message that the getter holds or the first one of the outbox, has its
end behind it, or waits for a worker that has not ended. -/
theorem resume_cases (s : State) :
    (∃ message, s.getter = .holding message ∧
      s.resume =
        { s with getter := .absent, delivered := s.delivered ++ [message] }.plan .wake) ∨
    s.getter.carried = [] ∧
      (s.isContent = true ∧ s.resume = { s with getter := .absent }.leave ∨
      (∃ message outbox, s.outbox = message :: outbox ∧
        s.resume =
          { s with getter := .absent, outbox, delivered := s.delivered ++ [message] }.plan .wake) ∨
      s.isContent = false ∧ s.outbox = [] ∧ s.worker = .ended ∧
        s.resume = { s with getter := .absent, consumer := .deserted } ∨
      s.outbox = [] ∧ s.worker ≠ .ended ∧
        s.resume = { s with getter := .ready, consumer := .waiting }.plan .look) := by
  by_cases hgetter : s.getter.carried = []
  · refine Or.inr ⟨hgetter, ?_⟩
    rw [resume_of_carried hgetter]
    by_cases hcontent : s.isContent
    · rw [if_pos hcontent]
      exact Or.inl ⟨hcontent, rfl⟩
    · rw [if_neg hcontent]
      right
      cases houtbox : s.outbox with
      | cons message outbox => exact Or.inl ⟨message, outbox, rfl, rfl⟩
      | nil =>
        right
        dsimp only
        rw [← houtbox]
        split_ifs with hended
        · exact Or.inl ⟨Bool.not_eq_true _ ▸ hcontent, rfl, hended, rfl⟩
        · exact Or.inr ⟨rfl, hended, rfl⟩
  · left
    cases hholds : s.getter with
    | holding message =>
      refine ⟨message, rfl, ?_⟩
      unfold resume
      rw [hholds]
    | _ => exact absurd (by rw [hholds]; rfl) hgetter

/-! ## The turns in their order -/

theorem consume_outbox (messages outbox : List Reply) (s : State) :
    { s with outbox }.consume messages = s.consume messages := by
  induction messages generalizing s with
  | nil => rfl
  | cons message messages ih =>
    unfold consume
    exact congrArg (ite _ _) (ih { s with delivered := s.delivered ++ [message] })

theorem Step.first
    {s : State} {event : Event} {agenda : List Event} (h : s.agenda = event :: agenda) :
    Step s ({ s with agenda }.undertake event) :=
  @Step.turn s [] agenda event h

theorem step_plan_wake
    {s : State} (hready : s.consumer = .ready) :
    Step (s.plan .wake) s.resume := by
  have hstep := @Step.turn (s.plan .wake) s.agenda [] .wake rfl
  rw [List.append_nil] at hstep
  have hundertake : s.undertake .wake = s.resume := if_pos hready
  rw [← hundertake]
  exact hstep

/-- A consumer that has come up for its next message goes on to its last one for now. -/
theorem run_resume
    {s : State} (hready : s.consumer = .ready) (hgetter : s.getter.carried = []) :
    Run s.resume ({ s with getter := .absent }.consume s.outbox) := by
  obtain ⟨rest, worker, isStopped, outbox, getter, consumer, delivered, patience, agenda⟩ := s
  obtain rfl : consumer = .ready := hready
  rw [resume_of_carried hgetter]
  induction outbox generalizing getter delivered with
  | nil => exact .refl
  | cons message outbox ih =>
    unfold consume
    dsimp only
    split_ifs with hcontent hcontent' hcontent'
    · exact .refl
    · exact absurd hcontent hcontent'
    · exact absurd hcontent' hcontent
    · have hnext := ih .absent (delivered ++ [message]) rfl
      rw [← resume_of_carried rfl, ← consume_outbox outbox (message :: outbox)] at hnext
      exact .head (step_plan_wake rfl) hnext

/-- What a consumer does in its turn is a run. -/
theorem run_wake
    {s : State} (hready : s.consumer = .ready) :
    Run s.resume s.wake := by
  by_cases hgetter : s.getter.carried = []
  · have hrun := run_resume hready hgetter
    unfold wake
    split
    · next message hholding =>
      rw [hholding] at hgetter
      contradiction
    · exact hrun
  · obtain ⟨rest, worker, isStopped, outbox, getter, consumer, delivered, patience, agenda⟩ := s
    cases getter with
    | holding message =>
      have hready' : State.consumer ⟨rest, worker, isStopped, outbox, .absent, consumer,
        delivered ++ [message], patience, agenda⟩ = .ready := hready
      exact .head (step_plan_wake hready') (run_resume hready' rfl)
    | _ => exact absurd rfl hgetter

/-- A turn in its order is a run of at least one step. -/
theorem transGen_turn
    {s : State} (hagenda : s.agenda ≠ []) :
    TransGen Step s s.turn := by
  unfold turn
  split
  · next hnil => exact absurd hnil hagenda
  · next event agenda hcons =>
    have hstep := Step.first hcons
    cases event with
    | wake =>
      unfold undertake at hstep
      unfold perform
      dsimp only at hstep ⊢
      split_ifs at hstep ⊢ with hready
      · exact .head' hstep (run_wake hready)
      · exact .single hstep
    | _ => exact .single hstep

theorem run_settleWithin (fuel : Nat) (s : State) :
    Run s (s.settleWithin fuel) := by
  induction fuel generalizing s with
  | zero => exact .refl
  | succ fuel ih =>
    unfold settleWithin
    split_ifs with hagenda
    · exact .refl
    · have hnil : s.agenda ≠ [] := fun hnil => hagenda (List.isEmpty_iff.mpr hnil)
      exact (transGen_turn hnil).to_reflTransGen.trans (ih s.turn)

/-- The turns in their order are one of the runs. -/
theorem run_quiesce (s : State) :
    Run s s.quiesce :=
  run_settleWithin _ s

end State

end SolidWorkshop.Compile.Channel
