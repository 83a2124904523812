import Mathlib.Algebra.Ring.Nat
import Mathlib.Data.List.Chain
import SolidWorkshop.Proofs.Compile.Schedule

/-!
# Lengths of schedules

What was done so far in a channel, and what the worker has still to do, can lead to a number of
turns only.  Each step uses up some of it, so that no schedule goes on for ever.
-/

namespace SolidWorkshop.Compile

open Relation

namespace Channel

/-- The turns that an event can lead to, if nobody else does anything. -/
def Event.cost : Event → Nat
  | .work => 4
  | .tell => 3
  | .wake => 2
  | .look => 1

/-- The turns that a message in the hands of a getter can lead to. -/
def Getter.cost : Getter → Nat
  | .holding _ => 1
  | _ => 0

end Channel

/-- The turns that an act can lead to. -/
def Act.cost : Act → Nat
  | .log _ => 5
  | .hold => 2
  | .pause => 1

namespace Channel.State

/-- The turns that what was done so far can lead to. -/
def caused (s : State) : Nat :=
  (s.agenda.map Event.cost).sum + s.getter.cost + 4 * s.outbox.length

/-- The turns that some acts and the end after them can lead to. -/
def actsCost (acts : List Act) : Nat :=
  (acts.map Act.cost).sum + 5

/-- The turns that the rest of the worker's work can lead to. -/
def workCost (s : State) : Nat :=
  match s.worker with
  | .ready => actsCost s.rest.acts
  | .held => actsCost s.rest.acts + 5
  | .ended => 0

/-- The turns that there can still be. -/
def potential (s : State) : Nat :=
  s.caused + s.workCost

section Potential

variable {s t : State}

theorem caused_plan (s : State) (event : Event) :
    (s.plan event).caused = s.caused + event.cost := by
  simp only [plan, caused, List.map_append, List.map_singleton, List.sum_append,
    List.sum_singleton]
  omega

theorem caused_put_le (s : State) (message : Reply) :
    (s.put message).caused ≤ s.caused + 5 := by
  rcases put_cases s message with ⟨hgetter, hput⟩ | ⟨-, hput⟩
  · rw [hput]
    simp only [caused, hgetter, Getter.cost, Event.cost, List.map_append, List.map_singleton,
      List.sum_append, List.sum_singleton, List.length_append, List.length_singleton]
    omega
  · rw [hput]
    simp only [caused, List.length_append, List.length_singleton]
    omega

theorem potential_endWorker (s : State) :
    s.endWorker.potential = s.caused + Event.cost .tell :=
  caused_plan { s with worker := .ended } .tell

theorem actsCost_cons (act : Act) (acts : List Act) :
    actsCost (act :: acts) = act.cost + actsCost acts := by
  simp only [actsCost, List.map_cons, List.sum_cons]
  omega

theorem put_worker (s : State) (message : Reply) :
    (s.put message).worker = s.worker := by
  rcases put_cases s message with ⟨-, hput⟩ | ⟨-, hput⟩
  · rw [hput]
  · rw [hput]

theorem potential_workOn_lt
    (acts : List Act) (hready : s.worker = .ready) :
    (s.workOn acts).potential < s.caused + actsCost acts + Event.cost .work := by
  induction acts generalizing s with
  | nil =>
    cases hreply : s.rest.outcome.reply? with
    | none =>
      rw [workOn_nil_of_none hreply, potential_endWorker]
      change s.caused + 3 < s.caused + 5 + 4
      omega
    | some message =>
      rw [workOn_nil_of_some hreply, potential_endWorker]
      have hput := caused_put_le { s with rest := { s.rest with acts := [] } } message
      change _ + 3 < s.caused + 5 + 4
      change _ ≤ s.caused + 5 at hput
      omega
  | cons act acts ih =>
    rw [actsCost_cons]
    cases act with
    | log line =>
      have hput := caused_put_le s (.log line)
      have hnext := ih ((put_worker s (.log line)).trans hready)
      change (s.workOn (.log line :: acts)).potential < _ + actsCost acts + 4 at hnext
      change _ < s.caused + (5 + actsCost acts) + 4
      omega
    | pause =>
      have hcaused := caused_plan { s with rest := { s.rest with acts } } .work
      have hwork : (s.workOn (.pause :: acts)).workCost = actsCost acts := by
        change workCost { s with rest := { s.rest with acts } } = actsCost acts
        simp only [workCost, hready]
      change (s.workOn (.pause :: acts)).caused = s.caused + 4 at hcaused
      change (s.workOn (.pause :: acts)).caused + _ < s.caused + (1 + actsCost acts) + 4
      omega
    | hold =>
      change s.caused + (actsCost acts + 5) < s.caused + (2 + actsCost acts) + 4
      omega

/-- As long as the worker does nothing, only what was done so far matters. -/
theorem potential_lt_of_caused_lt
    {k : Nat} (hcaused : t.caused < s.caused + k) (hworker : t.worker = s.worker)
    (hrest : t.rest = s.rest) :
    t.potential < s.potential + k := by
  rw [potential, potential, workCost, workCost, hworker, hrest]
  omega

theorem potential_resume_lt (s : State) :
    s.resume.potential < s.potential + Event.cost .wake := by
  rcases s.resume_cases with ⟨message, hgetter, hresume⟩ | ⟨hgetter, ⟨-, hresume⟩ |
    ⟨message, outbox, houtbox, hresume⟩ | ⟨-, -, -, hresume⟩ | ⟨-, -, hresume⟩⟩
  · rw [hresume]
    refine potential_lt_of_caused_lt ?_ rfl rfl
    rw [caused_plan]
    simp only [caused, hgetter, Getter.cost]
    omega
  · obtain ⟨isStopped, hleave⟩ := exists_leave_eq { s with getter := .absent }
    rw [hresume, hleave]
    simp only [potential, caused, workCost, Getter.cost, Event.cost]
    omega
  · rw [hresume]
    refine potential_lt_of_caused_lt ?_ rfl rfl
    rw [caused_plan]
    simp only [caused, houtbox, Getter.cost, List.length_cons]
    omega
  · rw [hresume]
    refine potential_lt_of_caused_lt ?_ rfl rfl
    simp only [caused, Getter.cost, Event.cost]
    omega
  · rw [hresume]
    refine potential_lt_of_caused_lt ?_ rfl rfl
    rw [caused_plan]
    simp only [caused, Getter.cost, Event.cost]
    omega

/-- An event that is done leads to fewer turns than it could. -/
theorem potential_undertake_lt (s : State) (event : Event) :
    (s.undertake event).potential < s.potential + event.cost := by
  cases event with
  | work =>
    unfold undertake perform
    dsimp only
    split_ifs with hready
    · have hlt := potential_workOn_lt s.rest.acts hready
      have hpotential : s.potential = s.caused + actsCost s.rest.acts := by
        simp only [potential, workCost, hready]
      omega
    · exact Nat.lt_add_of_pos_right (by decide)
  | look =>
    unfold undertake perform look
    dsimp only
    split
    · next message outbox hgetter houtbox =>
      refine potential_lt_of_caused_lt ?_ rfl rfl
      rw [caused_plan]
      simp only [caused, hgetter, houtbox, Getter.cost, Event.cost, List.length_cons]
      omega
    · next hgetter houtbox =>
      refine potential_lt_of_caused_lt ?_ rfl rfl
      simp only [caused, hgetter, Getter.cost, Event.cost]
      omega
    · exact Nat.lt_add_of_pos_right (by decide)
  | tell =>
    unfold undertake perform tell
    dsimp only
    split
    · refine potential_lt_of_caused_lt ?_ rfl rfl
      rw [caused_plan]
      simp only [caused, Event.cost]
      omega
    · exact Nat.lt_add_of_pos_right (by decide)
  | wake =>
    unfold undertake
    dsimp only
    split_ifs
    · exact potential_resume_lt s
    · exact Nat.lt_add_of_pos_right (by decide)

/-- A step uses up some of what can still be caused. -/
theorem potential_lt_of_step
    (hstep : Step s t) :
    t.potential < s.potential := by
  cases hstep with
  | @turn before after event hagenda =>
    have hlt := potential_undertake_lt { s with agenda := before ++ after } event
    have hcaused : s.caused = caused { s with agenda := before ++ after } + event.cost := by
      simp only [caused, hagenda, List.map_append, List.map_cons, List.sum_append, List.sum_cons]
      omega
    have hpotential : s.potential = caused { s with agenda := before ++ after } + s.workCost +
        event.cost := by
      rw [potential, hcaused]
      omega
    rw [hpotential]
    exact hlt
  | release hheld =>
    have hcaused := caused_plan { s with worker := .ready } .work
    have hpotential : s.potential = s.caused + (actsCost s.rest.acts + 5) := by
      simp only [potential, workCost, hheld]
    change ({ s with worker := .ready }.plan .work).caused = s.caused + 4 at hcaused
    change _ + actsCost s.rest.acts < s.potential
    omega

theorem length_le_potential
    {trace : List State} (htrace : List.IsChain Step (s :: trace)) :
    trace.length ≤ s.potential := by
  induction trace generalizing s with
  | nil => exact Nat.zero_le _
  | cons t trace ih =>
    obtain ⟨hstep, hrest⟩ := List.isChain_cons_cons.mp htrace
    have hlt := potential_lt_of_step hstep
    have hle := ih hrest
    rw [List.length_cons]
    omega

theorem potential_start_le (b : Behaviour) :
    (start b).potential ≤ 5 * b.acts.length + 10 := by
  have hacts : (b.acts.map Act.cost).sum ≤ 5 * b.acts.length := by
    induction b.acts with
    | nil => exact Nat.le_refl 0
    | cons act acts ih =>
      have hact : act.cost ≤ 5 := by
        cases act with
        | log line => exact Nat.le_refl 5
        | pause => decide
        | hold => decide
      rw [List.map_cons, List.sum_cons, List.length_cons]
      omega
  change 5 + ((b.acts.map Act.cost).sum + 5) ≤ _
  omega

theorem potential_lt_of_transGen
    (hrun : TransGen Step s t) :
    t.potential < s.potential := by
  induction hrun with
  | single hstep => exact potential_lt_of_step hstep
  | tail _ hstep ih => exact (potential_lt_of_step hstep).trans ih

theorem agenda_settleWithin
    {fuel : Nat} (hfuel : s.potential ≤ fuel) :
    (s.settleWithin fuel).agenda = [] := by
  induction fuel generalizing s with
  | zero =>
    cases hagenda : s.agenda with
    | nil => exact hagenda
    | cons event agenda =>
      have hlt := potential_lt_of_step (Step.first hagenda)
      omega
  | succ fuel ih =>
    unfold settleWithin
    split_ifs with hagenda
    · exact List.isEmpty_iff.mp hagenda
    · have hnil : s.agenda ≠ [] := fun hnil => hagenda (List.isEmpty_iff.mpr hnil)
      have hlt := potential_lt_of_transGen (transGen_turn hnil)
      exact ih (by omega)

end Potential

end Channel.State

end SolidWorkshop.Compile
