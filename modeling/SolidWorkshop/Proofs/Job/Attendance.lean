import SolidWorkshop.Job.Floor
import SolidWorkshop.Proofs.Compile.Relay
import SolidWorkshop.Proofs.Job.Coherence

/-!
# A worker and its compile

A worker takes a job, hears from its compile what that puts out, one stretch after another, and is
done with the job at the end.  Other things happen to the board meanwhile.  As long as nobody else
takes the same job and the workers are not sent away, what is kept of the job in the end is told by
what its worker has heard.
-/

namespace SolidWorkshop.Job

open Compile

/-- A worker is left with its compile: it is not sent away, and what is heard is heard by others. -/
def Turn.Leaves (worker : Nat) : Turn → Prop
  | .move .dismiss => False
  | .move (.log own _) | .move (.conclude own _) | .move (.desert own) | .spoil own _ _ _ _ _ =>
    own ≠ worker
  | _ => True

/-- It can be decided whether a worker is left with its compile. -/
instance (worker : Nat) : DecidablePred (Turn.Leaves worker)
  | .move .dismiss => isFalse id
  | .move (.log own _) | .move (.conclude own _) | .move (.desert own) | .spoil own _ _ _ _ _ =>
    inferInstanceAs (Decidable (own ≠ worker))
  | .move (.submit ..) | .move (.cancel _) | .move .prune | .move (.advance _) |
    .move (.enter _) | .move (.take _) =>
    isTrue trivial

namespace Board

/-- Only this worker works on the record at a place.  The record has these lines in its log, and
the job is known by its id. -/
structure AtWork (b : Board) (worker place : Nat) (id : String) (lines : List LogLine) : Prop where
  occupied : b.Occupied
  custody : b.Custody
  busy : b.IsBusy worker place
  alone : ∀ other, b.IsBusy other place → other = worker
  job : (id, place) ∈ b.jobs
  record : ∃ r : Record, b.records[place]? = some r ∧ r.status = .running ∧ r.IsOpen ∧
    r.lines = lines

/-- What is kept of a job whose compile has come to its end, with its last message if there was
one. -/
inductive Closes (b : Board) (place : Nat) (lines : List LogLine) : Option Reply → Prop
  | result {r : Record} {content : ByteArray} {exitCode : Option Int} {elapsed : Binary64}
    (hr : b.records[place]? = some r) (hstatus : r.status = .succeeded) (hlines : r.lines = lines)
    (hfault : r.fault = none) (hfile : b.artifact? r = some content) :
    Closes b place lines (some (.result content exitCode elapsed))
  | error {r : Record} {message : String} {status : Int}
    (hr : b.records[place]? = some r) (hstatus : r.status = .failed)
    (hlines : r.lines = lines ++ [.error message]) (hfault : r.fault = some ⟨message, status⟩) :
    Closes b place lines (some (.error message status))
  | death {r : Record} (hr : b.records[place]? = some r) (hstatus : r.status = .failed)
    (hlines : r.lines = lines)
    (hfault : r.fault = some ⟨Failure.workerStopped.message, Reply.defaultStatus⟩) :
    Closes b place lines none

section Step

variable {b c : Board} {t : Turn} {worker place : Nat} {id : String} {r : Record}
  {lines : List LogLine}

/-- Whoever is at work on a record now was so before, or has just taken its job. -/
theorem Step.isBusy_or_started
    (h : b.Step t c) (hbusy : c.IsBusy worker place) :
    b.IsBusy worker place ∨
      ∃ id, b.event? t = some (.started id) ∧ b.jobs.lookup id = some place := by
  cases h with
  | prune =>
    obtain ⟨-, hframe⟩ := drops_prune b
    rw [hframe] at hbusy
    exact Or.inl hbusy
  | enter count => exact Or.inl (isBusy_admitWorkers hbusy)
  | dismiss => exact absurd hbusy (not_isBusy_of_idle (by simp) worker place)
  | start hidle hqueue hplace hr hlive =>
    rcases isBusy_assign_busy hbusy with ⟨-, rfl⟩ | ⟨-, hbusy⟩
    · exact Or.inr ⟨_, event?_of_live hidle hqueue hplace hr hlive, hplace⟩
    · exact Or.inl hbusy
  | conclude => exact Or.inl (isBusy_assign_idle hbusy).2
  | _ => exact Or.inl hbusy

theorem Ends.not_leaves
    {overrides : List Override} {s : Record} {artifacts : List (String × ByteArray)}
    (h : b.Ends worker overrides r t s artifacts) :
    ¬t.Leaves worker := by
  cases h with
  | lost ht =>
    cases t with
    | move m =>
      cases m with
      | log own line => exact absurd ht nofun
      | conclude own reply =>
        obtain ⟨rfl, -⟩ := Prod.mk.inj (Option.some.inj ht)
        exact fun hne => hne rfl
      | _ => contradiction
    | spoil own =>
      obtain ⟨rfl, -⟩ := Prod.mk.inj (Option.some.inj ht)
      exact fun hne => hne rfl
  | _ => exact fun hne => hne rfl

/-- A worker that is left with its compile stays at work. -/
theorem Step.isBusy_of_leaves
    (h : b.Step t c) (hleaves : t.Leaves worker) (hbusy : b.IsBusy worker place) :
    c.IsBusy worker place := by
  cases h with
  | prune =>
    obtain ⟨-, hframe⟩ := drops_prune b
    rw [hframe]
    exact hbusy
  | enter count =>
    obtain ⟨overrides, hbusy⟩ := hbusy
    have hlt := (List.getElem?_eq_some_iff.mp hbusy).1
    exact ⟨overrides, by rw [List.getElem?_append_left hlt, hbusy]⟩
  | dismiss => exact hleaves.elim
  | start hidle =>
    refine isBusy_assign_of_ne ?_ hbusy
    rintro rfl
    obtain ⟨overrides, hbusy⟩ := hbusy
    cases hidle.symm.trans hbusy
  | conclude _ _ hend =>
    refine isBusy_assign_of_ne ?_ hbusy
    rintro rfl
    exact hend.not_leaves hleaves
  | _ => exact hbusy

/-! ## What becomes of the job -/

theorem AtWork.not_started
    (h : b.AtWork worker place id lines) (hother : b.event? t ≠ some (.started id))
    {first : String} (hjob : b.jobs.lookup first = some place) :
    b.event? t ≠ some (.started first) := by
  obtain rfl := h.custody.toNamed.eq_of_place h.job (mem_of_lookup hjob)
  exact hother

/-- A job that runs on is still known, and still with one worker unless it is started again. -/
theorem AtWork.of_step
    (h : b.AtWork worker place id lines) (hstep : b.Step t c)
    (hother : b.event? t ≠ some (.started id)) (hbusy : c.IsBusy worker place)
    {after : List LogLine} (hrecord : ∃ r : Record, c.records[place]? = some r ∧
      r.status = .running ∧ r.IsOpen ∧ r.lines = after) :
    c.AtWork worker place id after where
  occupied := h.occupied.step hstep
  custody := h.custody.step h.occupied hstep
  busy := hbusy
  alone own hown := by
    rcases hstep.isBusy_or_started hown with hold | ⟨first, hevent, hjob⟩
    · exact h.alone own hold
    · exact absurd hevent (h.not_started hother hjob)
  job := by
    obtain ⟨r, hr, hrunning, -⟩ := h.record
    exact h.custody.mem_jobs_step hstep h.job hr (isFinished_of_status hrunning)
  record := hrecord

/-- What happens to others leaves a job as it is. -/
theorem AtWork.step
    (h : b.AtWork worker place id lines) (hstep : b.Step t c) (hleaves : t.Leaves worker)
    (hother : b.event? t ≠ some (.started id)) :
    c.AtWork worker place id lines := by
  refine h.of_step hstep hother (hstep.isBusy_of_leaves hleaves h.busy) ?_
  obtain ⟨r, hr, hrunning, hopen, hlines⟩ := h.record
  obtain ⟨s, hs, hfares⟩ := hstep.exists_fares hr
  cases hfares with
  | stay => exact ⟨r, hs, hrunning, hopen, hlines⟩
  | cancel _ _ hqueued => exact absurd (hqueued.symm.trans hrunning) nofun
  | refuse hevent hjob => exact absurd hevent (h.not_started hother hjob)
  | start hevent hjob => exact absurd hevent (h.not_started hother hjob)
  | note ht hbusy =>
    obtain rfl := h.alone _ hbusy
    obtain rfl := ht
    exact absurd rfl hleaves
  | conclude hbusy hend =>
    obtain rfl := h.alone _ hbusy
    exact absurd hleaves hend.not_leaves
  | close ht =>
    obtain rfl := ht
    exact hleaves.elim

theorem AtWork.run
    (h : b.AtWork worker place id lines) {turns : List Turn}
    (hleaves : ∀ t ∈ turns, t.Leaves worker) (hother : id ∉ b.told Event.started? turns) :
    (b.run turns).AtWork worker place id lines := by
  induction turns generalizing b with
  | nil => exact h
  | cons t turns ih =>
    obtain ⟨ht, hturns⟩ := List.forall_mem_cons.mp hleaves
    rw [told, List.mem_append, not_or] at hother
    have hfirst : b.event? t ≠ some (.started id) := by
      intro hevent
      rw [hevent] at hother
      exact hother.1 (List.mem_singleton_self id)
    exact ih (h.step (h.occupied.step_turn t) ht hfirst) hturns hother.2

/-- A line of the log goes into the record. -/
theorem AtWork.log
    (h : b.AtWork worker place id lines) (line : LogLine) :
    (b.receive worker (.log line)).AtWork worker place id (lines ++ [line]) := by
  obtain ⟨overrides, hbusy⟩ := h.busy
  obtain ⟨r, hr, hrunning, hopen, hlines⟩ := h.record
  have hstep := step_log hbusy hr line
  have hreceive : b.receive worker (.log line) =
      b.update place fun r => { r.note line b.now with detail := beginning line.text } := by
    rw [receive, hbusy]
  have hs := rewrites_update hr fun r => { r.note line b.now with detail := beginning line.text }
  rw [← hreceive] at hs
  have hother : b.event? (.move (.log worker line)) ≠ some (.started id) := by
    rw [event?_of_isBusy rfl h.busy]
    exact nofun
  refine h.of_step hstep hother ⟨overrides, hs.workers ▸ hbusy⟩
    ⟨_, hs.getElem?_self, hrunning, ?_, ?_⟩
  · exact ⟨hopen.result, hopen.fault, hopen.artifact⟩
  · rw [← hlines]
    exact Record.lines_note r line b.now

theorem AtWork.logs
    (h : b.AtWork worker place id lines) (later : List LogLine) :
    ((later.map Reply.log).foldl (fun b reply => b.receive worker reply) b).AtWork worker place id
      (lines ++ later) := by
  induction later generalizing b lines with
  | nil => rwa [List.append_nil]
  | cons line later ih =>
    have hnext := ih (h.log line)
    rwa [List.append_assoc] at hnext

/-! ## The end of a compile -/

/-- A worker is done with a job that runs no more. -/
theorem finish_of_ended
    {overrides : List Override} (hbusy : b.workers[worker]? = some (.busy place overrides))
    (hr : b.records[place]? = some r) (hended : r.status ≠ .running) :
    (b.finish worker).records[place]? = some (r.close b.now) ∧
      (b.finish worker).artifacts = b.artifacts := by
  have hs := rewrites_update hr fun r =>
    (if r.status = .running then r.fail unfinishedMessage Reply.defaultStatus else r).close b.now
  unfold finish
  rw [hbusy]
  refine ⟨?_, rfl⟩
  exact hs.getElem?_self.trans (congrArg (fun s : Record => some (s.close b.now)) (if_neg hended))

/-- The last message of its compile closes a job, if the name of its artifact fits. -/
theorem AtWork.conclude
    (h : b.AtWork worker place id lines)
    (hfits : (artifactName id).utf8ByteSize ≤ nameLimit) {reply : Reply}
    (hlast : reply.isTerminal = true) :
    ((b.receive worker reply).finish worker).Closes place lines (some reply) := by
  obtain ⟨overrides, hbusy⟩ := h.busy
  obtain ⟨r, hr, hrunning, hopen, hlines⟩ := h.record
  obtain rfl := h.custody.toNamed.id_eq h.job hr
  cases reply with
  | log => contradiction
  | error message status =>
    have hs := rewrites_update hr fun r => (r.note (.error message) b.now).fail message status
    have hreceive : b.receive worker (.error message status) = b.update place fun r =>
        (r.note (.error message) b.now).fail message status := by
      rw [receive, hbusy]
    rw [← hreceive] at hs
    obtain ⟨hrecord, -⟩ := finish_of_ended (hs.workers ▸ hbusy) hs.getElem?_self nofun
    refine .error hrecord rfl ?_ rfl
    rw [← hlines]
    exact Record.lines_note r _ _
  | result content exitCode elapsed =>
    let filed := { b with artifacts := setEntry (artifactName r.id) content b.artifacts }
    let change (s : Record) : Record :=
      s.succeed (artifactName r.id) (b.resultFor r.id overrides content exitCode elapsed)
    have hreceive : b.receive worker (.result content exitCode elapsed) =
        filed.update place change := by
      rw [receive, hbusy]
      dsimp only
      rw [hr]
      exact if_neg (Nat.not_lt.mpr hfits)
    have hs := rewrites_update (b := filed) hr change
    rw [← hreceive] at hs
    obtain ⟨hrecord, hfiles⟩ := finish_of_ended (hs.workers ▸ hbusy) hs.getElem?_self nofun
    refine .result hrecord rfl hlines hopen.fault ?_
    rw [artifact?, hfiles, hreceive]
    exact lookup_setEntry_self (artifactName r.id) content b.artifacts

/-- A job without a last message is closed as one that failed. -/
theorem AtWork.desert
    (h : b.AtWork worker place id lines) :
    (b.desert worker).Closes place lines none := by
  obtain ⟨overrides, hbusy⟩ := h.busy
  obtain ⟨r, hr, hrunning, hopen, hlines⟩ := h.record
  unfold Board.desert
  rw [hbusy]
  exact .death (replaces_update hr _).getElem?_self rfl hlines rfl

end Step

/-! ## A job that is taken -/

end Board

namespace Floor

variable {σ π : Type}

section Attend

variable {c : Compiler σ π} {f : Floor σ π} {worker place : Nat} {id : String}
  {lines : List LogLine}

end Attend

end Floor

end SolidWorkshop.Job
