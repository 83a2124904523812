import SolidWorkshop.Proofs.Compile.Delivery
import SolidWorkshop.Proofs.Compile.Potential
import SolidWorkshop.Proofs.Compile.Progress

/-!
# What a consumer gets

In every schedule a consumer that does not go away gets the messages of the compile, each once and
in their order, and has its end behind it after the last of them.  The turns in their order are
one of the schedules.
-/

namespace SolidWorkshop.Compile.Channel.State

open Relation

section Request

variable {b : Behaviour} {s : State}

theorem alert_of_run
    (hrun : Run (start b) s) :
    s.Alert ∧ s.HasTurn := by
  induction hrun with
  | refl =>
    refine ⟨⟨?_, nofun, fun _ _ => ?_, fun _ => nofun, fun _ => nofun⟩, fun _ => ?_⟩
    · rintro - (hended | hcarried)
      · contradiction
      · exact absurd rfl hcarried
    · simp [start]
    · simp [start]
  | tail _ hstep ih => exact ⟨ih.1.step hstep, ih.2.step hstep⟩

/-- Where nothing is left to be done by itself, the consumer has got all that the worker has put
out: no message is left in the outbox because nobody was told of it. -/
theorem delivered_of_agenda_nil
    (hrun : Run (start b) s) (hagenda : s.agenda = []) :
    s.delivered ++ s.pending = b.messages := by
  have hkeeps := keeps_of_run hrun
  obtain ⟨halert, -⟩ := alert_of_run hrun
  have hnone : ∀ event, event ∉ s.agenda := by
    rw [hagenda]
    exact fun _ => List.not_mem_nil
  have hsettled : s.IsSettled → s.delivered ++ s.pending = b.messages := by
    intro hsettled
    have hdelivered := (hkeeps.settled hsettled).eq_messages
    have hmessages := hkeeps.messages
    rw [hdelivered, List.append_assoc, List.append_assoc, List.append_right_eq_self] at hmessages
    obtain ⟨-, hmessages⟩ := List.append_eq_nil_iff.mp hmessages
    obtain ⟨-, hpending⟩ := List.append_eq_nil_iff.mp hmessages
    rw [hpending, List.append_nil, hdelivered]
  cases hconsumer : s.consumer with
  | waiting =>
    cases hgetter : s.getter with
    | absent => exact absurd hgetter (halert.present hconsumer)
    | ready => exact absurd (halert.look hconsumer hgetter) (hnone .look)
    | listening =>
      have hmessages := hkeeps.messages
      rw [hgetter, halert.listen hconsumer hgetter, List.append_nil] at hmessages
      rw [← hmessages]
      simp [Getter.carried]
    | holding message =>
      have hcarried : s.getter.carried ≠ [] := by
        rw [hgetter]
        exact List.cons_ne_nil message []
      exact absurd (halert.tell hconsumer (Or.inr hcarried)) (hnone .tell)
  | ready => exact absurd (halert.wake hconsumer) (hnone .wake)
  | content => exact hsettled (Or.inl hconsumer)
  | deserted => exact hsettled (Or.inr hconsumer)

theorem isSettled_of_no_step
    (hrun : Run (start b) s) (hstuck : ∀ t, ¬Step s t) :
    s.IsSettled := by
  obtain ⟨halert, hturn⟩ := alert_of_run hrun
  apply isSettled_of_agenda_nil halert hturn
  · cases hagenda : s.agenda with
    | nil => rfl
    | cons event agenda => exact absurd (Step.first hagenda) (hstuck _)
  · exact fun hheld => hstuck _ (.release hheld)

/-- In every schedule the consumer gets the messages of the compile one after another and each
once.  It has its end behind it after the last of them and not before, gets nothing more then, and
no schedule is longer than five turns for each act and ten more. -/
theorem every_schedule_tells (b : Behaviour) :
    (∀ s, Run (start b) s →
      (∃ more consumer, b.Tells (s.delivered ++ more) consumer) ∧
      (s.IsSettled → b.Tells s.delivered s.consumer ∧
        ∀ t, Step s t → t.consumer = s.consumer ∧ t.delivered = s.delivered) ∧
      ((∀ t, ¬Step s t) → s.IsSettled)) ∧
    ∀ trace, List.IsChain Step (start b :: trace) → trace.length ≤ 5 * b.acts.length + 10 := by
  constructor
  · intro s hrun
    have hkeeps := keeps_of_run hrun
    refine ⟨?_, ?_, isSettled_of_no_step hrun⟩
    · refine ⟨s.getter.carried ++ s.outbox ++ s.pending, ?_⟩
      have hmessages := hkeeps.messages
      rw [List.append_assoc, List.append_assoc, ← List.append_assoc s.getter.carried] at hmessages
      rw [hmessages]
      cases hreply : b.outcome.reply? with
      | none => exact ⟨_, Behaviour.tells_deserted hreply⟩
      | some reply => exact ⟨_, Behaviour.tells_content hreply⟩
    · exact fun hsettled => ⟨hkeeps.settled hsettled, fun t hstep => hsettled.step hstep⟩
  · intro trace htrace
    exact (length_le_potential htrace).trans (potential_start_le b)

/-- Do the event at a place of the agenda. -/
def pick (s : State) (place : Nat) : State :=
  match s.agenda[place]? with
  | some event => { s with agenda := s.agenda.eraseIdx place }.undertake event
  | none => s

/-- Whatever places are picked, this is a schedule. -/
theorem run_picks (places : List Nat) (s : State) :
    Run s (places.foldl pick s) := by
  induction places generalizing s with
  | nil => exact .refl
  | cons place places ih =>
    refine ReflTransGen.trans ?_ (ih (s.pick place))
    unfold pick
    split
    · next event hevent =>
      obtain ⟨hlt, hget⟩ := List.getElem?_eq_some_iff.mp hevent
      have hsplit : s.agenda = s.agenda.take place ++ event :: s.agenda.drop (place + 1) := by
        rw [← hget, ← List.drop_eq_getElem_cons hlt, List.take_append_drop]
      have hstep := Step.turn hsplit
      rw [← List.eraseIdx_eq_take_drop_succ] at hstep
      exact .single hstep
    · exact .refl

/-- A compile that logs a line and is done. -/
def oneLine : Behaviour :=
  { acts := [.log ⟨"Compiling...", .info⟩]
    outcome := .ok ⟨⟨#[1]⟩, some 0, .nan, []⟩ }

/-- The getter listens when the worker puts out its messages and ends; before the getter gets its
turn the consumer withdraws it. -/
theorem every_schedule_tells_after_withdrawal :
    let s := [1, 0, 1, 1, 1, 1].foldl pick (start oneLine)
    s.consumer = .content ∧ s.agenda = [.look] ∧
      s.delivered = [.log ⟨"Compiling...", .info⟩, .result ⟨#[1]⟩ (some 0) .nan] := by
  have hconsumer : ([1, 0, 1, 1, 1, 1].foldl pick (start oneLine)).consumer = .content := rfl
  obtain ⟨hschedules, -⟩ := every_schedule_tells oneLine
  obtain ⟨-, hsettled, -⟩ := hschedules _ (run_picks [1, 0, 1, 1, 1, 1] (start oneLine))
  obtain ⟨htells, -⟩ := hsettled (Or.inl hconsumer)
  exact ⟨hconsumer, rfl, htells.eq_messages⟩

end Request

/-! ## The turns in their order -/

section Turns

variable {b : Behaviour} {s t : State}

/-- A consumer that takes its turns in their order gets all messages, unless the worker waits to
be let go. -/
theorem tells_consume
    (hheld : (start b).quiesce.worker ≠ .held) :
    b.Tells (Channel.consume b none).messages (start b).quiesce.consumer := by
  have hrun := run_quiesce (start b)
  obtain ⟨halert, hturn⟩ := alert_of_run hrun
  have hfuel : (start b).potential ≤ 8 * (b.acts.length + 4) := by
    have hle := potential_start_le b
    omega
  have hagenda : (start b).quiesce.agenda = [] := agenda_settleWithin hfuel
  exact (keeps_of_run hrun).settled (isSettled_of_agenda_nil halert hturn hagenda hheld)

end Turns

end SolidWorkshop.Compile.Channel.State
