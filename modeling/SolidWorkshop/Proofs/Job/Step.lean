import SolidWorkshop.Proofs.Job.Finality

/-!
# Steps of a board

A run of a board is a list of turns: its moves, and one thing that its moves leave out, that an
artifact cannot be written although its name is a good one.  What a turn can do is said once, with
the records as they are before and after it; everything else about runs follows from these steps.

The steps are those of a board whose workers are at work on jobs that were started.  Every run
keeps it that way, whatever ids are used again and whoever comes and goes.
-/

namespace SolidWorkshop.Job

/-- One thing that happens to a board and its artifacts. -/
inductive Turn where
  | move (m : Move)
  /-- A busy worker receives the result of its compile, and the artifact cannot be written.
  Something else may be left in its place. -/
  | spoil (worker : Nat) (content : ByteArray) (exitCode : Option Int) (elapsed : Binary64)
    (left : Option ByteArray) (reason : String)

/-- The worker that hears from its compile, and what it hears. -/
def Turn.heard? : Turn → Option (Nat × Reply)
  | .move (.log worker line) => some (worker, .log line)
  | .move (.conclude worker reply) => some (worker, reply)
  | .spoil worker content exitCode elapsed _ _ => some (worker, .result content exitCode elapsed)
  | _ => none

namespace Board

/-- The artifacts after one of them could not be written. -/
def leftovers (b : Board) (place : Nat) (left : Option ByteArray) : List (String × ByteArray) :=
  match b.records[place]?, left with
  | some record, some content => setEntry (artifactName record.id) content b.artifacts
  | _, _ => b.artifacts

/-- The job of a busy worker fails because its artifact cannot be written. -/
def spoil (b : Board) (worker : Nat) (left : Option ByteArray) (reason : String) : Board :=
  match b.workers[worker]? with
  | some (.busy place _) =>
    ({ b with artifacts := b.leftovers place left }.update place fun r =>
      r.fail reason Reply.defaultStatus).finish worker
  | _ => b

/-- The board after a turn. -/
def turn (b : Board) : Turn → Board
  | .move m => b.perform m
  | .spoil worker _ _ _ left reason => b.spoil worker left reason

/-! ## What a turn can do -/

/-- The job of a record neither waits nor is cancelled. -/
def IsStarted (b : Board) (place : Nat) : Prop :=
  ∃ r : Record, b.records[place]? = some r ∧ r.status ≠ .queued ∧ r.status ≠ .cancelled

/-- Whatever workers are at work on has been started. -/
def Occupied (b : Board) : Prop :=
  ∀ worker place, b.IsBusy worker place → b.IsStarted place

/-- Of all records only the one at a place differs. -/
def Replaces (old new : Array Record) (place : Nat) (s : Record) : Prop :=
  ∀ q, new[q]? = if place = q then some s else old[q]?

/-- The record with a line more in its log. -/
def noted (b : Board) (r : Record) (line : LogLine) : Record :=
  { r.note line b.now with detail := beginning line.text }

/-- The ways in which a worker is done with the job of a record: what becomes of the record and of
the artifacts. -/
inductive Ends (b : Board) (worker : Nat) (overrides : List Override) (r : Record) :
    Turn → Record → List (String × ByteArray) → Prop
  | error {message : String} {status : Int} :
    Ends b worker overrides r (.move (.conclude worker (.error message status)))
      (((r.note (.error message) b.now).fail message status).close b.now) b.artifacts
  | stored {content : ByteArray} {exitCode : Option Int} {elapsed : Binary64} :
    Ends b worker overrides r (.move (.conclude worker (.result content exitCode elapsed)))
      ((r.succeed (artifactName r.id)
        (b.resultFor r.id overrides content exitCode elapsed)).close b.now)
      (setEntry (artifactName r.id) content b.artifacts)
  /-- The name is too long for a file, or the file cannot be written. -/
  | lost {t : Turn} {content : ByteArray} {exitCode : Option Int} {elapsed : Binary64}
    {reason : String} {left : Option ByteArray} {place : Nat}
    (ht : t.heard? = some (worker, .result content exitCode elapsed))
    (hr : b.records[place]? = some r) :
    Ends b worker overrides r t ((r.fail reason Reply.defaultStatus).close b.now)
      (b.leftovers place left)
  /-- The last that is heard is a line of the log, and the job may have ended under another
  worker. -/
  | unfinished {line : LogLine} :
    Ends b worker overrides r (.move (.conclude worker (.log line)))
      ((if r.status = .running then
          (b.noted r line).fail unfinishedMessage Reply.defaultStatus
        else b.noted r line).close b.now) b.artifacts
  | deserted :
    Ends b worker overrides r (.move (.desert worker))
      ((r.fail Failure.workerStopped.message Reply.defaultStatus).close b.now) b.artifacts

/-- All that turns can do. -/
inductive Step (b : Board) : Turn → Board → Prop
  | decline {request : CompileRequest} {id : Option String} {failure : Failure} (generated : Nat)
    (h : (b.submit request id).2 = .error failure) :
    Step b (.move (.submit request id)) { b with generated }
  | accept {request : CompileRequest} {id : Option String} {newId : String} (generated : Nat)
    (h : (b.submit request id).2 = .ok newId) (hroom : b.isFull = false)
    (hnew : b.jobs.lookup newId = none) :
    Step b (.move (.submit request id)) { b with
      generated
      records := b.records.push { id := newId, request, createdAt := b.now }
      jobs := b.jobs ++ [(newId, b.records.size)]
      queue := b.queue ++ [newId] }
  | keep {id : String}
    (hnone : ∀ place r, b.jobs.lookup id = some place → b.records[place]? = some r →
      r.status ≠ .queued) :
    Step b (.move (.cancel id)) b
  | cancel {id : String} {place : Nat} {r : Record} {records : Array Record}
    (hplace : b.jobs.lookup id = some place) (hr : b.records[place]? = some r)
    (hqueued : r.status = .queued) (hs : Replaces b.records records place (r.cancel b.now)) :
    Step b (.move (.cancel id)) { b with records }
  | prune : Step b (.move .prune) b.prune
  | advance (span : Int) : Step b (.move (.advance span)) { b with now := b.now.later span }
  | enter (count : Nat) :
    Step b (.move (.enter count)) { b with workers := b.workers ++ List.replicate count .idle }
  | dismiss {records : Array Record}
    (hother : ∀ place, (∀ worker, ¬b.IsBusy worker place) → records[place]? = b.records[place]?)
    (hclosed : ∀ (place : Nat) (r : Record), b.records[place]? = some r →
      ∃ s, records[place]? = some s ∧ (s = r ∨ s = r.close b.now)) :
    Step b (.move .dismiss) { b with records, workers := [] }
  | rest {worker : Nat} (hnone : b.workers[worker]? = some .idle → b.queue = []) :
    Step b (.move (.take worker)) b
  | pass {worker : Nat} {id : String} {rest : List String}
    (hidle : b.workers[worker]? = some .idle) (hqueue : b.queue = id :: rest)
    (hcancelled : ∀ place r, b.jobs.lookup id = some place → b.records[place]? = some r →
      r.status = .cancelled) :
    Step b (.move (.take worker)) { b with queue := rest }
  | refuse {worker : Nat} {id : String} {rest : List String} {place : Nat} {r : Record}
    {failure : Failure} {status : Int} {records : Array Record}
    (hidle : b.workers[worker]? = some .idle) (hqueue : b.queue = id :: rest)
    (hplace : b.jobs.lookup id = some place) (hr : b.records[place]? = some r)
    (hlive : r.status ≠ .cancelled) (hprepared : prepared r.request = .error failure)
    (hs : Replaces b.records records place
      (((r.start b.now).fail failure.message status).close b.now)) :
    Step b (.move (.take worker)) { b with queue := rest, records }
  | start {worker : Nat} {id : String} {rest : List String} {place : Nat} {r : Record}
    {source : String} {overrides : List Override} {records : Array Record}
    (hidle : b.workers[worker]? = some .idle) (hqueue : b.queue = id :: rest)
    (hplace : b.jobs.lookup id = some place) (hr : b.records[place]? = some r)
    (hlive : r.status ≠ .cancelled) (hprepared : prepared r.request = .ok (source, overrides))
    (hs : Replaces b.records records place (r.start b.now).compiling) :
    Step b (.move (.take worker))
      { b with queue := rest, records, workers := b.workers.set worker (.busy place overrides) }
  | ignore {t : Turn} {worker : Nat}
    (ht : t = .move (.desert worker) ∨ ∃ reply, t.heard? = some (worker, reply))
    (hfree : ∀ place, ¬b.IsBusy worker place) :
    Step b t b
  | note {worker place : Nat} {r : Record} {line : LogLine} {records : Array Record}
    (hbusy : b.IsBusy worker place) (hr : b.records[place]? = some r)
    (hs : Replaces b.records records place (b.noted r line)) :
    Step b (.move (.log worker line)) { b with records }
  | conclude {t : Turn} {worker place : Nat} {overrides : List Override} {r s : Record}
    {records : Array Record} {artifacts : List (String × ByteArray)}
    (hbusy : b.workers[worker]? = some (.busy place overrides))
    (hr : b.records[place]? = some r) (hend : b.Ends worker overrides r t s artifacts)
    (hs : Replaces b.records records place s) :
    Step b t { b with records, artifacts, workers := b.workers.set worker .idle }

/-! ## Every turn is a step -/

theorem replaces_update
    {b : Board} {place : Nat} {r : Record} (hr : b.records[place]? = some r)
    (change : Record → Record) :
    Replaces b.records (b.update place change).records place (change r) :=
  (rewrites_update hr change).records

theorem Replaces.trans
    {old new newer : Array Record} {place : Nat} {r s : Record} (h : Replaces old new place r)
    (h' : Replaces new newer place s) :
    Replaces old newer place s := by
  intro q
  rw [h', h]
  split_ifs
  · rfl
  · rfl

theorem Replaces.getElem?_self
    {old new : Array Record} {place : Nat} {r : Record} (h : Replaces old new place r) :
    new[place]? = some r := by
  rw [h, if_pos rfl]

section Step

variable {b : Board}

theorem isFull_of_submit
    {request : CompileRequest} {id : Option String} {newId : String}
    (h : (b.submit request id).2 = .ok newId) :
    b.isFull = false := by
  cases hfull : b.isFull with
  | false => rfl
  | true =>
    rw [submit, if_pos hfull] at h
    contradiction

theorem step_submit (request : CompileRequest) (id : Option String) :
    b.Step (.move (.submit request id)) (b.submit request id).1 := by
  rcases submit_cases b request id with ⟨generated, failure, h⟩ | ⟨generated, newId, hnew, h⟩
  · have hsnd := congrArg Prod.snd h
    rw [h]
    exact .decline generated hsnd
  · have hsnd := congrArg Prod.snd h
    rw [h]
    exact .accept generated hsnd (isFull_of_submit hsnd) hnew

theorem cancel_of_queued
    {id : String} {place : Nat} {r : Record} (hplace : b.jobs.lookup id = some place)
    (hr : b.records[place]? = some r) (hqueued : r.status = .queued) :
    b.cancel id = (b.update place fun r => r.cancel b.now, .ok .cancelled) := by
  simp only [cancel, hplace, hr, hqueued]

theorem step_cancel (id : String) : b.Step (.move (.cancel id)) (b.cancel id).1 := by
  by_cases hwaits : ∃ place r, b.jobs.lookup id = some place ∧ b.records[place]? = some r ∧
      r.status = .queued
  · obtain ⟨place, r, hplace, hr, hqueued⟩ := hwaits
    rw [cancel_of_queued hplace hr hqueued]
    exact .cancel hplace hr hqueued (replaces_update hr _)
  · rcases cancel_cases b id with h | h
    · rw [h]
      exact .keep fun place r hplace hr hqueued => hwaits ⟨place, r, hplace, hr, hqueued⟩
    · obtain ⟨place, r, hplace, hr, hqueued, -⟩ := h
      exact absurd ⟨place, r, hplace, hr, hqueued⟩ hwaits

theorem step_take (worker : Nat) :
    b.Step (.move (.take worker)) (b.perform (.take worker)) := by
  by_cases hidle : b.workers[worker]? = some .idle
  · have hperform : b.perform (.take worker) = (b.take worker).1 := by
      rw [perform, hidle]
    rw [hperform]
    cases hqueue : b.queue with
    | nil =>
      rw [take_nil hqueue]
      exact .rest fun _ => hqueue
    | cons id rest =>
      rcases exists_live_or_passes_over hqueue worker with
        ⟨place, r, hplace, hr, hlive⟩ | ⟨hcancelled, hover⟩
      · have hstart := replaces_update (b := { b with queue := rest }) hr fun r => r.start b.now
        cases hprepared : prepared r.request with
        | error failure =>
          rw [take_of_error hqueue hplace hr hlive hprepared]
          exact .refuse hidle hqueue hplace hr hlive hprepared
            (hstart.trans (replaces_update hstart.getElem?_self _))
        | ok result =>
          obtain ⟨source, overrides⟩ := result
          rw [take_of_ok hqueue hplace hr hlive hprepared]
          exact .start hidle hqueue hplace hr hlive hprepared
            (hstart.trans (replaces_update hstart.getElem?_self _))
      · rw [hover]
        exact .pass hidle hqueue hcancelled
  · have hperform : b.perform (.take worker) = b := by
      unfold perform
      dsimp only
      split
      · contradiction
      · rfl
    rw [hperform]
    exact .rest fun h => absurd h hidle

theorem step_dismiss : b.Step (.move .dismiss) b.dismiss := by
  obtain ⟨records, h, hother, hclosed⟩ := dismiss_cases b
  rw [h]
  refine .dismiss ?_ hclosed
  intro place hfree
  refine hother place fun overrides hmem => ?_
  obtain ⟨worker, hworker⟩ := List.getElem?_of_mem hmem
  exact hfree worker ⟨overrides, hworker⟩

theorem leftovers_none (place : Nat) : b.leftovers place none = b.artifacts := by
  unfold leftovers
  split
  · contradiction
  · rfl

section Busy

variable {worker place : Nat} {overrides : List Override} {r : Record}

theorem step_log
    (hbusy : b.workers[worker]? = some (.busy place overrides))
    (hr : b.records[place]? = some r) (line : LogLine) :
    b.Step (.move (.log worker line)) (b.receive worker (.log line)) := by
  unfold receive
  rw [hbusy]
  exact .note ⟨overrides, hbusy⟩ hr (replaces_update hr _)

/-- The worker has received its last message, and is done with the job. -/
theorem step_finish
    {c : Board} {t : Turn} {s : Record}
    (hbusy : b.workers[worker]? = some (.busy place overrides))
    (hr : b.records[place]? = some r) (hs : b.Rewrites c place s)
    (hframe : c = { b with records := c.records, artifacts := c.artifacts })
    (hend : b.Ends worker overrides r t
      ((if s.status = .running then s.fail unfinishedMessage Reply.defaultStatus
        else s).close b.now) c.artifacts) :
    b.Step t (c.finish worker) := by
  have hfinish : c.finish worker = (c.update place fun s =>
      (if s.status = .running then s.fail unfinishedMessage Reply.defaultStatus else s).close
        b.now).assign worker .idle := by
    unfold finish
    rw [hs.workers, hbusy, hs.now]
  rw [hfinish, hframe]
  exact .conclude hbusy hr hend (Replaces.trans hs.records (replaces_update hs.getElem?_self _))

theorem step_conclude
    (hbusy : b.workers[worker]? = some (.busy place overrides))
    (hr : b.records[place]? = some r) (reply : Reply) :
    b.Step (.move (.conclude worker reply)) ((b.receive worker reply).finish worker) := by
  cases reply with
  | log line =>
    unfold receive
    rw [hbusy]
    exact step_finish hbusy hr (rewrites_update hr _) rfl .unfinished
  | error message status =>
    unfold receive
    rw [hbusy]
    exact step_finish hbusy hr (rewrites_update hr _) rfl .error
  | result content exitCode elapsed =>
    unfold receive
    rw [hbusy]
    dsimp only
    rw [hr]
    dsimp only [store]
    split_ifs
    · refine step_finish hbusy hr (rewrites_update hr _) rfl ?_
      change b.Ends worker overrides r _ _ b.artifacts
      rw [← leftovers_none place]
      exact .lost rfl hr
    · obtain ⟨hrecords, -⟩ := rewrites_update hr fun s =>
        s.succeed (artifactName r.id) (b.resultFor r.id overrides content exitCode elapsed)
      exact step_finish hbusy hr ⟨hrecords, rfl, rfl, rfl, rfl⟩ rfl .stored

theorem step_desert
    (hbusy : b.workers[worker]? = some (.busy place overrides))
    (hr : b.records[place]? = some r) :
    b.Step (.move (.desert worker)) (b.desert worker) := by
  unfold desert
  rw [hbusy]
  exact .conclude hbusy hr .deserted (replaces_update hr _)

theorem step_spoil
    (hbusy : b.workers[worker]? = some (.busy place overrides))
    (hr : b.records[place]? = some r) (content : ByteArray) (exitCode : Option Int)
    (elapsed : Binary64) (left : Option ByteArray) (reason : String) :
    b.Step (.spoil worker content exitCode elapsed left reason) (b.spoil worker left reason) := by
  unfold spoil
  rw [hbusy]
  obtain ⟨hrecords, -⟩ := rewrites_update hr fun r => r.fail reason Reply.defaultStatus
  exact step_finish hbusy hr ⟨hrecords, rfl, rfl, rfl, rfl⟩ rfl (.lost rfl hr)

/-- A worker that is not at work neither hears anything nor is deserted. -/
theorem turn_of_not_busy
    {t : Turn} (ht : t = .move (.desert worker) ∨ ∃ reply, t.heard? = some (worker, reply))
    (hfree : ∀ place, ¬b.IsBusy worker place) :
    b.turn t = b := by
  have hidle : ∀ place overrides, b.workers[worker]? ≠ some (.busy place overrides) :=
    fun place overrides hbusy => hfree place ⟨overrides, hbusy⟩
  rcases ht with rfl | ⟨reply, ht⟩
  · exact desert_of_not_busy hidle
  · cases t with
    | move m =>
      cases m with
      | log own line =>
        obtain ⟨rfl, -⟩ := Prod.mk.inj (Option.some.inj ht)
        exact receive_of_not_busy hidle (.log line)
      | conclude own reply =>
        obtain ⟨rfl, -⟩ := Prod.mk.inj (Option.some.inj ht)
        rw [turn, perform, receive_of_not_busy hidle, finish_of_not_busy hidle]
      | _ => contradiction
    | spoil own content exitCode elapsed left reason =>
      obtain ⟨rfl, -⟩ := Prod.mk.inj (Option.some.inj ht)
      rw [turn, spoil]
      split
      · next place overrides hbusy => exact absurd hbusy (hidle place overrides)
      · rfl

theorem step_ignore
    {t : Turn} (ht : t = .move (.desert worker) ∨ ∃ reply, t.heard? = some (worker, reply))
    (hfree : ∀ place, ¬b.IsBusy worker place) :
    b.Step t (b.turn t) := by
  rw [turn_of_not_busy ht hfree]
  exact .ignore ht hfree

end Busy

/-- All that a turn does is one of the steps. -/
theorem Occupied.step_turn
    (hb : b.Occupied) (t : Turn) :
    b.Step t (b.turn t) := by
  have hworker : ∀ worker, (∀ place, ¬b.IsBusy worker place) ∨
      ∃ place overrides r, b.workers[worker]? = some (.busy place overrides) ∧
        b.records[place]? = some r := by
    intro worker
    by_cases hbusy : ∃ place, b.IsBusy worker place
    · obtain ⟨place, overrides, hbusy⟩ := hbusy
      obtain ⟨r, hr, -⟩ := hb worker place ⟨overrides, hbusy⟩
      exact Or.inr ⟨place, overrides, r, hbusy, hr⟩
    · exact Or.inl fun place hplace => hbusy ⟨place, hplace⟩
  cases t with
  | move m =>
    cases m with
    | submit request id => exact step_submit request id
    | cancel id => exact step_cancel id
    | prune => exact .prune
    | advance span => exact .advance span
    | enter count => exact .enter count
    | dismiss => exact step_dismiss
    | take worker => exact step_take worker
    | log worker line =>
      rcases hworker worker with hfree | ⟨place, overrides, r, hbusy, hr⟩
      · exact step_ignore (Or.inr ⟨_, rfl⟩) hfree
      · exact step_log hbusy hr line
    | conclude worker reply =>
      rcases hworker worker with hfree | ⟨place, overrides, r, hbusy, hr⟩
      · exact step_ignore (Or.inr ⟨_, rfl⟩) hfree
      · exact step_conclude hbusy hr reply
    | desert worker =>
      rcases hworker worker with hfree | ⟨place, overrides, r, hbusy, hr⟩
      · exact step_ignore (Or.inl rfl) hfree
      · exact step_desert hbusy hr
  | spoil worker content exitCode elapsed left reason =>
    rcases hworker worker with hfree | ⟨place, overrides, r, hbusy, hr⟩
    · exact step_ignore (Or.inr ⟨_, rfl⟩) hfree
    · exact step_spoil hbusy hr content exitCode elapsed left reason

/-- A job that a worker is done with is not running. -/
theorem Ends.status_cases
    {worker : Nat} {overrides : List Override} {r s : Record} {t : Turn}
    {artifacts : List (String × ByteArray)} (h : b.Ends worker overrides r t s artifacts) :
    s.status = .failed ∨ s.status = .succeeded ∨ s.status = r.status ∧ r.status ≠ .running := by
  cases h with
  | error => exact Or.inl rfl
  | stored => exact Or.inr (Or.inl rfl)
  | lost => exact Or.inl rfl
  | deserted => exact Or.inl rfl
  | unfinished =>
    split_ifs with hrunning
    · exact Or.inl rfl
    · exact Or.inr (Or.inr ⟨rfl, hrunning⟩)

theorem Ends.id_eq
    {worker : Nat} {overrides : List Override} {r s : Record} {t : Turn}
    {artifacts : List (String × ByteArray)} (h : b.Ends worker overrides r t s artifacts) :
    s.id = r.id := by
  cases h with
  | error | stored | lost | deserted => rfl
  | unfinished =>
    split_ifs
    · rfl
    · rfl

end Step

end Board

end SolidWorkshop.Job
