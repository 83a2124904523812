import SolidWorkshop.Proofs.Job.Resubmission
import SolidWorkshop.Proofs.Job.Run

/-!
# Cancelled jobs

A cancelled job leaves its id in the queue, and the id may be accepted again.  Whatever is taken
under it then is the record of another job: a record whose request is handed to the channel has
been started, a started job is never cancelled any more, and a cancelled job stays as it is.
-/

namespace SolidWorkshop.Job

namespace Board

/-- In some turns the request of a record is handed to the channel. -/
def Handed (b : Board) (turns : List Turn) (place : Nat) : Prop :=
  ∃ before m after, turns = before ++ .move m :: after ∧ (b.run before).Hands m place

section Refusal

variable {b : Board} {id : String} {place : Nat} {r : Record}

theorem cancel_of_running
    (hplace : b.jobs.lookup id = some place) (hr : b.records[place]? = some r)
    (hrunning : r.status = .running) :
    b.cancel id = (b, .error .jobRunning) := by
  simp only [cancel, hplace, hr, hrunning]

/-- A job that has its end behind it is not cancelled. -/
theorem cancel_of_isFinished
    (hplace : b.jobs.lookup id = some place) (hr : b.records[place]? = some r)
    (hfinished : r.isFinished = true) :
    b.cancel id = (b, .ok r.status) := by
  simp only [cancel, hplace, hr]
  cases hstatus : r.status with
  | queued | running =>
    rw [isFinished_of_status hstatus] at hfinished
    contradiction
  | succeeded | failed | cancelled => rfl

end Refusal

section Cancelled

variable {b : Board} {place : Nat} {r : Record}

theorem IsStarted.run
    (h : b.IsStarted place) (hocc : b.Occupied) (turns : List Turn) :
    (b.run turns).IsStarted place := by
  induction turns generalizing b with
  | nil => exact h
  | cons t turns ih =>
    have hstep := hocc.step_turn t
    exact ih (h.step hocc hstep) (hocc.step hstep)

/-- A cancelled job stays as it is. -/
theorem Occupied.getElem?_run_of_cancelled
    (hocc : b.Occupied) (hr : b.records[place]? = some r) (hcancelled : r.status = .cancelled)
    (turns : List Turn) :
    (b.run turns).records[place]? = some r := by
  induction turns generalizing b with
  | nil => exact hr
  | cons t turns ih =>
    have hstep := hocc.step_turn t
    exact ih (hocc.step hstep) (hstep.getElem?_of_cancelled hocc hr hcancelled)

/-- A job whose request is handed to the channel is started. -/
theorem isStarted_of_hands
    {m : Move} (h : b.Hands m place) :
    (b.perform m).IsStarted place := by
  obtain ⟨worker, id, message, rfl, hidle, hhead, hplace, hmessage⟩ := h
  obtain ⟨rest, hqueue⟩ := List.head?_eq_some_iff.mp hhead
  rw [perform, hidle]
  rcases exists_live_or_passes_over hqueue worker with ⟨own, r, hown, hr, hlive⟩ | ⟨-, hover⟩
  · obtain rfl : own = place := Option.some.inj (hown.symm.trans hplace)
    obtain ⟨c, s, hs, -, ⟨hfailed, htake⟩ | ⟨hrunning, overrides, message, htake⟩⟩ :=
      take_cases hqueue hown hr hlive worker
    · rw [htake]
      exact ⟨s, hs.getElem?_self, by rw [hfailed]; decide, by rw [hfailed]; decide⟩
    · rw [htake]
      exact ⟨s, hs.getElem?_self, by rw [hrunning]; decide, by rw [hrunning]; decide⟩
  · rw [hover] at hmessage
    contradiction

/-- The request of a job that ends up cancelled has never been handed to the channel. -/
theorem Occupied.not_handed_of_cancelled
    (hocc : b.Occupied) {turns : List Turn} (hr : (b.run turns).records[place]? = some r)
    (hcancelled : r.status = .cancelled) :
    ¬b.Handed turns place := by
  rintro ⟨before, m, after, rfl, hhands⟩
  have hmid : (b.run before).Occupied := hocc.run before
  have hstarted : ((b.run before).turn (.move m)).IsStarted place := isStarted_of_hands hhands
  obtain ⟨s, hs, -, hlive⟩ := hstarted.run (hmid.step (hmid.step_turn (.move m))) after
  rw [run_append] at hr
  obtain rfl : s = r := Option.some.inj (hs.symm.trans hr)
  exact hlive hcancelled

end Cancelled

/-- A job that is cancelled while it waits keeps the point in time of its cancellation and is never
handed to the channel, whatever happens before and after, and whatever ids are used again.  A job
that has its end behind it is left as it is, and a running one cannot be cancelled. -/
theorem cancelled_never_handed
    (policy : Policy) (count : Nat) (before after : List Turn) {id : String} {place : Nat}
    {r : Record} (hjob : ((opened policy count).run before).jobs.lookup id = some place)
    (hr : ((opened policy count).run before).records[place]? = some r) :
    let b := (opened policy count).run before
    let turns := before ++ .move (.cancel id) :: after
    (r.status = .queued →
      (b.cancel id).2 = .ok .cancelled ∧
        ((opened policy count).run turns).records[place]? = some (r.cancel b.now) ∧
        ¬(opened policy count).Handed turns place) ∧
      (r.isFinished = true → b.cancel id = (b, .ok r.status)) ∧
      (r.status = .running → b.cancel id = (b, .error .jobRunning)) := by
  intro b turns
  refine ⟨?_, ?_, ?_⟩
  · intro hqueued
    have hcancel := cancel_of_queued hjob hr hqueued
    have hocc : b.Occupied := occupied_run before
    have hstep := hocc.step_turn (.move (.cancel id))
    have hstruck : (b.turn (.move (.cancel id))).records[place]? = some (r.cancel b.now) := by
      change (b.cancel id).1.records[place]? = _
      rw [hcancel]
      exact (replaces_update hr _).getElem?_self
    have hlast : ((opened policy count).run turns).records[place]? = some (r.cancel b.now) := by
      rw [run_append]
      exact (hocc.step hstep).getElem?_run_of_cancelled hstruck rfl after
    refine ⟨?_, hlast, (occupied_opened policy count).not_handed_of_cancelled hlast rfl⟩
    rw [hcancel]
  · exact cancel_of_isFinished hjob hr
  · exact cancel_of_running hjob hr

/-- A cancelled job is dropped and its id accepted again; the new job is the one that is taken, two
times over. -/
theorem cancelled_never_handed_of_resubmitted :
    let b := opened briefPolicy 1
    let before := (dropsCancelled.take 3).map Turn.move
    let after := (dropsCancelled.drop 4 ++ finishesAgain ++ [Move.take 0]).map Turn.move
    let turns := before ++ .move (.cancel "part") :: after
    (b.run turns).jobs = [("first", 0), ("part", 2)] ∧
      ∃ r : Record, (b.run before).records[1]? = some r ∧ r.status = .queued ∧
        (b.run turns).records[1]? = some (r.cancel (b.run before).now) ∧ ¬b.Handed turns 1 := by
  intro b before after turns
  have hwaits : ((b.run before).records[1]?.map (·.status)) = some .queued := by
    decide +kernel
  obtain ⟨r, hr, hqueued⟩ := Option.map_eq_some_iff.mp hwaits
  have hjob : (b.run before).jobs.lookup "part" = some 1 := by
    decide +kernel
  obtain ⟨hcancelled, -⟩ := cancelled_never_handed briefPolicy 1 before after hjob hr
  obtain ⟨-, hlast, hnever⟩ := hcancelled hqueued
  exact ⟨by decide +kernel, r, hr, hqueued, hlast, hnever⟩

end Board

end SolidWorkshop.Job
