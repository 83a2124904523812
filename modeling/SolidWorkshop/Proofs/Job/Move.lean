import Mathlib.Logic.Relation
import Mathlib.Tactic.SplitIfs
import SolidWorkshop.Job.Board

/-!
# Moves of a board

Everything that happens to a board is one of a few moves: requests from outside, the clock, and
the steps of its workers.  Nothing is assumed about their order or about the number of workers.
For each move there is one statement of all that it can do; what holds along runs is derived
from these statements.
-/

namespace SolidWorkshop.Job

/-- One thing that happens to a board. -/
inductive Move where
  | submit (request : CompileRequest) (id : Option String)
  | cancel (id : String)
  | prune
  | advance (span : Int)
  | enter (count : Nat)
  | dismiss
  /-- A worker without work takes the first id of the queue. -/
  | take (worker : Nat)
  /-- A busy worker receives a line of the log. -/
  | log (worker : Nat) (line : LogLine)
  /-- A busy worker receives the last message of its compile, and is done with it. -/
  | conclude (worker : Nat) (reply : Reply)
  /-- The compile of a busy worker ends without a last message. -/
  | desert (worker : Nat)

namespace Board

/-- The board after a move.  A worker that has work takes no id. -/
def perform (b : Board) : Move → Board
  | .submit request id => (b.submit request id).1
  | .cancel id => (b.cancel id).1
  | .prune => b.prune
  | .advance span => b.advance span
  | .enter count => b.admitWorkers count
  | .dismiss => b.dismiss
  | .take worker =>
    match b.workers[worker]? with
    | some .idle => (b.take worker).1
    | _ => b
  | .log worker line => b.receive worker (.log line)
  | .conclude worker reply => (b.receive worker reply).finish worker
  | .desert worker => b.desert worker

/-- The move hands the request of a record to the channel. -/
def Hands (b : Board) (m : Move) (place : Nat) : Prop :=
  ∃ worker id message, m = .take worker ∧ b.workers[worker]? = some .idle ∧
    b.queue.head? = some id ∧ b.jobs.lookup id = some place ∧
    (b.take worker).2 = some message

/-! ## Records -/

theorem getElem?_update (b : Board) (place : Nat) (change : Record → Record) (q : Nat) :
    (b.update place change).records[q]? =
      if place = q then b.records[q]?.map change else b.records[q]? := by
  rw [update, Array.getElem?_modify]

/-- Of all records only one differs; nothing else does, the artifacts apart. -/
structure Rewrites (b c : Board) (place : Nat) (r : Record) : Prop where
  records : ∀ q, c.records[q]? = if place = q then some r else b.records[q]?
  jobs : c.jobs = b.jobs
  queue : c.queue = b.queue
  workers : c.workers = b.workers
  now : c.now = b.now

theorem rewrites_update
    {b : Board} {place : Nat} {r : Record} (hr : b.records[place]? = some r)
    (change : Record → Record) :
    b.Rewrites (b.update place change) place (change r) := by
  refine ⟨?_, rfl, rfl, rfl, rfl⟩
  intro q
  rw [getElem?_update]
  split_ifs with hq
  · rw [← hq, hr]
    rfl
  · rfl

theorem Rewrites.trans
    {b c d : Board} {place : Nat} {r s : Record} (h : b.Rewrites c place r)
    (h' : c.Rewrites d place s) :
    b.Rewrites d place s := by
  refine ⟨?_, h'.jobs.trans h.jobs, h'.queue.trans h.queue, h'.workers.trans h.workers,
    h'.now.trans h.now⟩
  intro q
  rw [h'.records, h.records]
  split_ifs
  · rfl
  · rfl

theorem Rewrites.getElem?_self
    {b c : Board} {place : Nat} {r : Record} (h : b.Rewrites c place r) :
    c.records[place]? = some r := by
  rw [h.records, if_pos rfl]

/-! ## Requests from outside -/

/-- A submission is refused, or it adds a job under an id that no job has. -/
theorem submit_cases (b : Board) (request : CompileRequest) (id : Option String) :
    (∃ generated failure, b.submit request id = ({ b with generated }, .error failure)) ∨
      ∃ generated newId, b.jobs.lookup newId = none ∧
        b.submit request id =
          ({ b with
            generated
            records := b.records.push { id := newId, request, createdAt := b.now }
            jobs := b.jobs ++ [(newId, b.records.size)]
            queue := b.queue ++ [newId] }, .ok newId) := by
  unfold submit
  split_ifs with hfull
  · exact Or.inl ⟨b.generated, .queueFull, rfl⟩
  · generalize b.idFor (wanted request id) = chosen
    obtain ⟨newId, generated⟩ := chosen
    dsimp only
    split_ifs with hknown
    · exact Or.inl ⟨generated, .duplicateJob newId, rfl⟩
    · exact Or.inr ⟨generated, newId, Option.not_isSome_iff_eq_none.mp hknown, rfl⟩

/-- A cancellation changes nothing but a job that waits. -/
theorem cancel_cases (b : Board) (id : String) :
    (b.cancel id).1 = b ∨
      ∃ place r, b.jobs.lookup id = some place ∧ b.records[place]? = some r ∧
        r.status = .queued ∧ (b.cancel id).1 = b.update place fun r => r.cancel b.now := by
  unfold cancel
  split
  · exact Or.inl rfl
  · next place hplace =>
    split
    · exact Or.inl rfl
    · next r hr =>
      split
      · next hqueued => exact Or.inr ⟨place, r, hplace, hr, hqueued, rfl⟩
      · exact Or.inl rfl
      · exact Or.inl rfl

/-- Only jobs and artifacts are dropped. -/
structure Drops (b c : Board) : Prop where
  jobs : ∀ job ∈ c.jobs, job ∈ b.jobs
  frame : c = { b with jobs := c.jobs, artifacts := c.artifacts }

theorem drops_drop (b : Board) (id : String) : b.Drops (b.drop id) := by
  unfold drop
  dsimp only
  split
  · exact ⟨fun job hjob => (List.mem_filter.mp hjob).1, rfl⟩
  · exact ⟨fun job hjob => (List.mem_filter.mp hjob).1, rfl⟩

theorem drops_foldl (ids : List String) (b : Board) : b.Drops (ids.foldl drop b) := by
  induction ids generalizing b with
  | nil => exact ⟨fun job hjob => hjob, rfl⟩
  | cons id ids ih =>
    obtain ⟨hjobs, hframe⟩ := ih (b.drop id)
    obtain ⟨hjobs', hframe'⟩ := drops_drop b id
    refine ⟨fun job hjob => hjobs' job (hjobs job hjob), ?_⟩
    rw [List.foldl_cons, hframe, hframe']

theorem drops_prune (b : Board) : b.Drops b.prune := by
  unfold prune
  obtain ⟨hjobs, hframe⟩ := drops_foldl ((b.known.filter b.isExpired).map (·.id)) b
  generalize ((b.known.filter b.isExpired).map (·.id)).foldl drop b = c at hjobs hframe ⊢
  dsimp only
  obtain ⟨hjobs', hframe'⟩ := drops_foldl (((((c.known.filter (·.isFinished)).mergeSort
    fun r s => (endOf r).micros ≤ (endOf s).micros).take
    ((c.known.filter (·.isFinished)).length - c.policy.maxRecords).toNat).map (·.id))) c
  refine ⟨fun job hjob => hjobs job (hjobs' job hjob), ?_⟩
  rw [hframe', hframe]

/-! ## Workers -/

section Take

variable {b : Board} {id : String} {rest : List String} {place : Nat} {r : Record}

theorem take_nil (hqueue : b.queue = []) (worker : Nat) : b.take worker = (b, none) := by
  simp only [take, hqueue]

theorem take_passes_over
    (hqueue : b.queue = id :: rest) (worker : Nat)
    (hcancelled : ∀ place r, b.jobs.lookup id = some place → b.records[place]? = some r →
      r.status = .cancelled) :
    b.take worker = ({ b with queue := rest }, none) := by
  simp only [take, hqueue]
  cases hplace : b.jobs.lookup id with
  | none => rfl
  | some place =>
    cases hr : b.records[place]? with
    | none => simp only [hr]
    | some r => simp only [hr, hcancelled place r hplace hr, if_true]

/-- The first id of the queue stands for a job that is not cancelled, or it is passed over. -/
theorem exists_live_or_passes_over
    (hqueue : b.queue = id :: rest) (worker : Nat) :
    (∃ place r, b.jobs.lookup id = some place ∧ b.records[place]? = some r ∧
      r.status ≠ .cancelled) ∨
    (∀ place r, b.jobs.lookup id = some place → b.records[place]? = some r →
      r.status = .cancelled) ∧ b.take worker = ({ b with queue := rest }, none) := by
  by_cases hlive : ∃ place r, b.jobs.lookup id = some place ∧ b.records[place]? = some r ∧
      r.status ≠ .cancelled
  · exact Or.inl hlive
  · have hcancelled : ∀ place r, b.jobs.lookup id = some place → b.records[place]? = some r →
        r.status = .cancelled := fun place r hplace hr =>
      Decidable.not_not.mp fun hstatus => hlive ⟨place, r, hplace, hr, hstatus⟩
    exact Or.inr ⟨hcancelled, take_passes_over hqueue worker hcancelled⟩

theorem take_of_error
    (hqueue : b.queue = id :: rest) (hplace : b.jobs.lookup id = some place)
    (hr : b.records[place]? = some r) (hstatus : r.status ≠ .cancelled) {failure : Failure}
    (hprepared : prepared r.request = .error failure) (worker : Nat) :
    b.take worker =
      (({ b with queue := rest }.update place fun r => r.start b.now).update place fun r =>
        (r.fail failure.message ((failure.status?.map Int.ofNat).getD Reply.defaultStatus)).close
          b.now, none) := by
  simp only [take, hqueue, hplace, hr, hstatus, if_false, hprepared]
  rfl

theorem take_of_ok
    (hqueue : b.queue = id :: rest) (hplace : b.jobs.lookup id = some place)
    (hr : b.records[place]? = some r) (hstatus : r.status ≠ .cancelled) {source : String}
    {overrides : List Override} (hprepared : prepared r.request = .ok (source, overrides))
    (worker : Nat) :
    b.take worker =
      ((({ b with queue := rest }.update place fun r => r.start b.now).update place
        Record.compiling).assign worker (.busy place overrides), some ⟨source, overrides⟩) := by
  simp only [take, hqueue, hplace, hr, hstatus, if_false, hprepared]

/-- A job that is not cancelled is started; then it fails at once, or the worker has work and the
request is handed on. -/
theorem take_cases
    (hqueue : b.queue = id :: rest) (hplace : b.jobs.lookup id = some place)
    (hr : b.records[place]? = some r) (hstatus : r.status ≠ .cancelled) (worker : Nat) :
    ∃ c s, Rewrites { b with queue := rest } c place s ∧ s.startedAt = some b.now ∧
      (s.status = .failed ∧ b.take worker = (c, none) ∨
        s.status = .running ∧ ∃ overrides message,
          b.take worker = (c.assign worker (.busy place overrides), some message)) := by
  have hstart := rewrites_update (b := { b with queue := rest }) hr fun r => r.start b.now
  cases hprepared : prepared r.request with
  | error failure =>
    have hfail := hstart.trans (rewrites_update hstart.getElem?_self fun r =>
      (r.fail failure.message ((failure.status?.map Int.ofNat).getD Reply.defaultStatus)).close
        b.now)
    exact ⟨_, _, hfail, rfl, Or.inl ⟨rfl, take_of_error hqueue hplace hr hstatus hprepared worker⟩⟩
  | ok result =>
    obtain ⟨source, overrides⟩ := result
    have hcompile := hstart.trans (rewrites_update hstart.getElem?_self Record.compiling)
    exact ⟨_, _, hcompile, rfl, Or.inr ⟨rfl, overrides, ⟨source, overrides⟩,
      take_of_ok hqueue hplace hr hstatus hprepared worker⟩⟩

end Take

theorem receive_of_not_busy
    {b : Board} {worker : Nat}
    (hidle : ∀ place overrides, b.workers[worker]? ≠ some (.busy place overrides))
    (reply : Reply) :
    b.receive worker reply = b := by
  unfold receive
  split
  · next place overrides hbusy => exact absurd hbusy (hidle place overrides)
  · rfl

theorem finish_of_not_busy
    {b : Board} {worker : Nat}
    (hidle : ∀ place overrides, b.workers[worker]? ≠ some (.busy place overrides)) :
    b.finish worker = b := by
  unfold finish
  split
  · next place overrides hbusy => exact absurd hbusy (hidle place overrides)
  · rfl

theorem desert_of_not_busy
    {b : Board} {worker : Nat}
    (hidle : ∀ place overrides, b.workers[worker]? ≠ some (.busy place overrides)) :
    b.desert worker = b := by
  unfold desert
  split
  · next place overrides hbusy => exact absurd hbusy (hidle place overrides)
  · rfl

section Busy

variable {b : Board} {worker place : Nat} {overrides : List Override} {r : Record}

/-- A line of the log leaves the state of the job as it is. -/
theorem receive_log
    (hbusy : b.workers[worker]? = some (.busy place overrides))
    (hr : b.records[place]? = some r) (line : LogLine) :
    ∃ s, b.Rewrites (b.receive worker (.log line)) place s ∧ s.status = r.status := by
  unfold receive
  rw [hbusy]
  exact ⟨_, rewrites_update hr _, rfl⟩

/-- A message changes the record of the job only, which stays in its state or ends. -/
theorem receive_cases
    (hbusy : b.workers[worker]? = some (.busy place overrides))
    (hr : b.records[place]? = some r) (reply : Reply) :
    ∃ s, b.Rewrites (b.receive worker reply) place s ∧
      (s.status = r.status ∨ s.status = .failed ∨ s.status = .succeeded) := by
  cases reply with
  | log line =>
    obtain ⟨s, hs, hstatus⟩ := receive_log hbusy hr line
    exact ⟨s, hs, Or.inl hstatus⟩
  | error message status =>
    unfold receive
    rw [hbusy]
    exact ⟨_, rewrites_update hr _, Or.inr (Or.inl rfl)⟩
  | result content exitCode elapsed =>
    unfold receive
    rw [hbusy]
    dsimp only
    rw [hr]
    dsimp only [store]
    split_ifs
    · exact ⟨_, rewrites_update hr _, Or.inr (Or.inl rfl)⟩
    · obtain ⟨hrecords, -⟩ := rewrites_update hr fun s =>
        s.succeed (artifactName r.id) (b.resultFor r.id overrides content exitCode elapsed)
      exact ⟨_, ⟨hrecords, rfl, rfl, rfl, rfl⟩, Or.inr (Or.inr rfl)⟩

/-- A worker that is done with a running job leaves it with its end behind it. -/
theorem finish_cases
    (hbusy : b.workers[worker]? = some (.busy place overrides))
    (hr : b.records[place]? = some r) :
    ∃ (c : Board) (s : Record), b.Rewrites c place s ∧
      b.finish worker = c.assign worker .idle ∧
      s.status = if r.status = .running then .failed else r.status := by
  unfold finish
  rw [hbusy]
  refine ⟨_, _, rewrites_update hr _, rfl, ?_⟩
  split_ifs
  · rfl
  · rfl

/-- The last message of a compile ends the running job and sets the worker free. -/
theorem conclude_cases
    (hbusy : b.workers[worker]? = some (.busy place overrides))
    (hr : b.records[place]? = some r) (hrunning : r.status = .running) (reply : Reply) :
    ∃ c s, b.Rewrites c place s ∧
      (b.receive worker reply).finish worker = c.assign worker .idle ∧
      (s.status = .failed ∨ s.status = .succeeded) := by
  obtain ⟨s, hs, hstatus⟩ := receive_cases hbusy hr reply
  have hbusy' : (b.receive worker reply).workers[worker]? = some (.busy place overrides) := by
    rw [hs.workers, hbusy]
  obtain ⟨c, s', hs', hfinish, hstatus'⟩ := finish_cases hbusy' hs.getElem?_self
  refine ⟨c, s', hs.trans hs', hfinish, ?_⟩
  rcases hstatus with hsame | hfailed | hsucceeded
  · rw [hsame, hrunning] at hstatus'
    exact Or.inl hstatus'
  · rw [hfailed] at hstatus'
    exact Or.inl hstatus'
  · rw [hsucceeded] at hstatus'
    exact Or.inr hstatus'

/-- A deserted job fails and sets the worker free. -/
theorem desert_cases
    (hbusy : b.workers[worker]? = some (.busy place overrides))
    (hr : b.records[place]? = some r) :
    ∃ c s, b.Rewrites c place s ∧ b.desert worker = c.assign worker .idle ∧
      s.status = .failed ∧ s.startedAt = r.startedAt := by
  unfold desert
  rw [hbusy]
  exact ⟨_, _, rewrites_update hr _, rfl, rfl, rfl⟩

end Busy

/-- What a worker worked on is closed. -/
def closeWork (b : Board) : Worker → Board
  | .idle => b
  | .busy place _ => b.update place fun r => r.close b.now

theorem foldl_closeWork (ws : List Worker) (b : Board) :
    ∃ records : Array Record, ws.foldl closeWork b = { b with records } ∧
      (∀ place, (∀ overrides, Worker.busy place overrides ∉ ws) →
        records[place]? = b.records[place]?) ∧
      ∀ (place : Nat) (r : Record), b.records[place]? = some r →
        ∃ s, records[place]? = some s ∧ (s = r ∨ s = r.close b.now) := by
  induction ws generalizing b with
  | nil => exact ⟨b.records, rfl, fun _ _ => rfl, fun _ r hr => ⟨r, hr, Or.inl rfl⟩⟩
  | cons worker ws ih =>
    obtain ⟨records, hfold, hother, hclosed⟩ := ih (b.closeWork worker)
    cases worker with
    | idle =>
      refine ⟨records, hfold, ?_, hclosed⟩
      intro place hplace
      exact hother place fun overrides hmem =>
        hplace overrides (List.mem_cons_of_mem _ hmem)
    | busy own taken =>
      refine ⟨records, hfold, ?_, ?_⟩
      · intro place hplace
        have hne : own ≠ place := by
          rintro rfl
          exact hplace taken List.mem_cons_self
        rw [hother place fun overrides hmem => hplace overrides (List.mem_cons_of_mem _ hmem),
          closeWork, getElem?_update, if_neg hne]
      · intro place r hr
        have hfirst : ∃ s, (b.closeWork (.busy own taken)).records[place]? = some s ∧
            (s = r ∨ s = r.close b.now) := by
          rw [closeWork, getElem?_update, hr]
          split_ifs
          · exact ⟨_, rfl, Or.inr rfl⟩
          · exact ⟨r, rfl, Or.inl rfl⟩
        obtain ⟨s, hs, hsame⟩ := hfirst
        obtain ⟨t, ht, hagain⟩ := hclosed place s hs
        refine ⟨t, ht, ?_⟩
        rcases hagain with rfl | rfl
        · exact hsame
        · rcases hsame with rfl | rfl
          · exact Or.inr rfl
          · exact Or.inr rfl

/-- When all workers go, the records they worked on are closed in the state they are in. -/
theorem dismiss_cases (b : Board) :
    ∃ records : Array Record, b.dismiss = { b with records, workers := [] } ∧
      (∀ place, (∀ overrides, Worker.busy place overrides ∉ b.workers) →
        records[place]? = b.records[place]?) ∧
      ∀ (place : Nat) (r : Record), b.records[place]? = some r →
        ∃ s, records[place]? = some s ∧ (s = r ∨ s = r.close b.now) := by
  obtain ⟨records, hfold, hspec⟩ := foldl_closeWork b.workers b
  refine ⟨records, ?_, hspec⟩
  have hdismiss : b.dismiss = { b.workers.foldl closeWork b with workers := [] } := rfl
  rw [hdismiss, hfold]

end Board

end SolidWorkshop.Job
