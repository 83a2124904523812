import SolidWorkshop.Proofs.Job.Move
import SolidWorkshop.Proofs.Lookup

/-!
# Finished jobs

The queue holds ids, and an id stands for the job that has it when a worker takes it.  As long as
no job is accepted under an id that is still in the queue, every id waits there once, a worker
takes it for a job that has not been started, and a job that has its end behind it is never
touched again.  A cancelled job leaves its id in the queue, and once it is dropped the id can be
accepted a second time; then the id is taken twice for the new job, and the second worker to take
it starts a job that has ended.
-/

namespace SolidWorkshop.Job

open Relation

/-! ## What is to be kept -/

/-- The steps of a job from state to state. -/
inductive Advances : Status → Status → Prop
  | start : Advances .queued .running
  | cancel : Advances .queued .cancelled
  | succeed : Advances .running .succeeded
  | fail : Advances .running .failed

/-- How a job ended is told in the same way. -/
structure Record.SameEnd (r s : Record) : Prop where
  status : s.status = r.status
  result : s.result = r.result
  fault : s.fault = r.fault
  startedAt : s.startedAt = r.startedAt
  finishedAt : s.finishedAt = r.finishedAt

namespace Board

/-- A move takes every job along the steps from state to state.  A job that has its end behind it
stays as it ended, and its request is not handed to the channel. -/
def FinishedIsFinal (b : Board) (m : Move) : Prop :=
  ∀ place r, b.records[place]? = some r →
    ∃ s, (b.perform m).records[place]? = some s ∧ ReflTransGen Advances r.status s.status ∧
      (r.isFinished = true → r.SameEnd s ∧ ¬b.Hands m place)

/-- A job is accepted only under an id that is not in the queue any more. -/
def IsFresh (b : Board) : Move → Prop
  | .submit request id => ∀ newId, (b.submit request id).2 = .ok newId → newId ∉ b.queue
  | _ => True

/-- A move that accepts no job under an id in the queue. -/
def FreshStep (b c : Board) : Prop :=
  ∃ m, b.IsFresh m ∧ c = b.perform m

/-- Any moves, in any order, that accept no job under an id in the queue. -/
abbrev FreshRun : Board → Board → Prop :=
  ReflTransGen FreshStep

/-- A board without jobs, with some workers. -/
def opened (policy : Policy) (count : Nat) : Board :=
  { policy, workers := List.replicate count .idle }

/-! ## The invariant -/

/-- A worker is at work on a record. -/
def IsBusy (b : Board) (worker place : Nat) : Prop :=
  ∃ overrides, b.workers[worker]? = some (.busy place overrides)

theorem isBusy_of_workers
    {b c : Board} (hworkers : c.workers = b.workers) {worker place : Nat}
    (h : c.IsBusy worker place) :
    b.IsBusy worker place := by
  obtain ⟨overrides, hbusy⟩ := h
  rw [hworkers] at hbusy
  exact ⟨overrides, hbusy⟩

theorem isBusy_assign_idle
    {b : Board} {worker other place : Nat} (h : (b.assign worker .idle).IsBusy other place) :
    other ≠ worker ∧ b.IsBusy other place := by
  obtain ⟨overrides, hother⟩ := h
  rw [assign, List.getElem?_set] at hother
  split_ifs at hother with hsame
  · cases hother
  · exact ⟨fun heq => hsame heq.symm, overrides, hother⟩

theorem isBusy_assign_busy
    {b : Board} {worker other place q : Nat} {overrides : List Override}
    (h : (b.assign worker (.busy place overrides)).IsBusy other q) :
    other = worker ∧ q = place ∨ other ≠ worker ∧ b.IsBusy other q := by
  obtain ⟨taken, hother⟩ := h
  rw [assign, List.getElem?_set] at hother
  split_ifs at hother with hsame
  · obtain ⟨rfl, -⟩ := Worker.busy.inj (Option.some.inj hother)
    exact Or.inl ⟨hsame.symm, rfl⟩
  · exact Or.inr ⟨fun heq => hsame heq.symm, taken, hother⟩

theorem isBusy_admitWorkers
    {b : Board} {count worker place : Nat} (h : (b.admitWorkers count).IsBusy worker place) :
    b.IsBusy worker place := by
  obtain ⟨overrides, hbusy⟩ := h
  rw [admitWorkers, List.getElem?_append] at hbusy
  split_ifs at hbusy
  · exact ⟨overrides, hbusy⟩
  · have hidle := List.eq_of_mem_replicate (List.mem_of_getElem? hbusy)
    contradiction

/-- Every id waits once, and for a job that has not been started; every worker has a running job
of its own. -/
structure Sound (b : Board) : Prop where
  queue : b.queue.Nodup
  known : ∀ id place, (id, place) ∈ b.jobs → ∃ r : Record, b.records[place]? = some r
  apart : ∀ id id' place, (id, place) ∈ b.jobs → (id', place) ∈ b.jobs → id = id'
  waiting : ∀ (id : String) (place : Nat) (r : Record), (id, place) ∈ b.jobs → id ∈ b.queue →
    b.records[place]? = some r → r.status = .queued ∨ r.status = .cancelled
  working : ∀ worker place, b.IsBusy worker place →
    ∃ r : Record, b.records[place]? = some r ∧ r.status = .running
  alone : ∀ worker worker' place, b.IsBusy worker place → b.IsBusy worker' place →
    worker = worker'

theorem not_isBusy_of_idle
    {b : Board} (h : ∀ w ∈ b.workers, w = .idle) (worker place : Nat) :
    ¬b.IsBusy worker place := by
  rintro ⟨overrides, hbusy⟩
  have hidle := h _ (List.mem_of_getElem? hbusy)
  contradiction

theorem sound_opened (policy : Policy) (count : Nat) : (opened policy count).Sound where
  queue := List.nodup_nil
  known _ _ h := by contradiction
  apart _ _ _ h := by contradiction
  waiting _ _ _ h := by contradiction
  working worker place h := absurd h (not_isBusy_of_idle (by simp [opened]) worker place)
  alone worker _ place h := absurd h (not_isBusy_of_idle (by simp [opened]) worker place)

section Sound

variable {b c : Board} {place : Nat} {r s : Record}

/-- Nobody is at work on a record that is not running. -/
theorem Sound.not_isBusy
    (hb : b.Sound) (hr : b.records[place]? = some r) (hstatus : r.status ≠ .running)
    (worker : Nat) :
    ¬b.IsBusy worker place := by
  intro hbusy
  obtain ⟨r', hr', hrunning⟩ := hb.working worker place hbusy
  rw [hr] at hr'
  rw [← Option.some.inj hr'] at hrunning
  exact hstatus hrunning

/-- The id of a running job is not in the queue. -/
theorem Sound.not_mem_queue
    (hb : b.Sound) (hr : b.records[place]? = some r) (hrunning : r.status = .running)
    {id : String} (hjob : (id, place) ∈ b.jobs) :
    id ∉ b.queue := by
  intro hmem
  rcases hb.waiting id place r hjob hmem hr with hqueued | hcancelled
  · rw [hrunning] at hqueued
    contradiction
  · rw [hrunning] at hcancelled
    contradiction

/-- One record is rewritten and some workers change: what has to be seen to. -/
theorem Sound.of_rewrites
    (hb : b.Sound) (h : b.Rewrites c place s) (workers : List Worker)
    (hwait : ∀ id, (id, place) ∈ b.jobs → id ∈ b.queue →
      s.status = .queued ∨ s.status = .cancelled)
    (hother : ∀ worker q, q ≠ place → Board.IsBusy { c with workers } worker q →
      b.IsBusy worker q)
    (hself : ∀ worker, Board.IsBusy { c with workers } worker place → s.status = .running)
    (halone : ∀ worker worker', Board.IsBusy { c with workers } worker place →
      Board.IsBusy { c with workers } worker' place → worker = worker') :
    Sound { c with workers } where
  queue := by
    dsimp only
    rw [h.queue]
    exact hb.queue
  known id q hjob := by
    dsimp only at hjob ⊢
    rw [h.jobs] at hjob
    rw [h.records]
    split_ifs
    · exact ⟨s, rfl⟩
    · exact hb.known id q hjob
  apart id id' q hjob hjob' := by
    dsimp only at hjob hjob'
    rw [h.jobs] at hjob hjob'
    exact hb.apart id id' q hjob hjob'
  waiting id q t hjob hqueue ht := by
    dsimp only at hjob hqueue ht
    rw [h.jobs] at hjob
    rw [h.queue] at hqueue
    rw [h.records] at ht
    split_ifs at ht with hq
    · obtain rfl := hq
      obtain rfl := Option.some.inj ht
      exact hwait id hjob hqueue
    · exact hb.waiting id q t hjob hqueue ht
  working worker q hbusy := by
    dsimp only
    rw [h.records]
    split_ifs with hq
    · obtain rfl := hq
      exact ⟨s, rfl, hself worker hbusy⟩
    · exact hb.working worker q (hother worker q (fun heq => hq heq.symm) hbusy)
  alone worker worker' q hbusy hbusy' := by
    by_cases hq : q = place
    · obtain rfl := hq
      exact halone worker worker' hbusy hbusy'
    · exact hb.alone worker worker' q (hother worker q hq hbusy) (hother worker' q hq hbusy')

/-- Nothing about workers has to be seen to where a job is rewritten that is not running and
nobody starts it. -/
theorem Sound.of_rewrites_waiting
    (hb : b.Sound) (hr : b.records[place]? = some r) (hstatus : r.status ≠ .running)
    (h : b.Rewrites c place s)
    (hwait : ∀ id, (id, place) ∈ b.jobs → id ∈ b.queue →
      s.status = .queued ∨ s.status = .cancelled) :
    c.Sound := by
  have hnone : ∀ worker, ¬c.IsBusy worker place := fun worker hbusy =>
    hb.not_isBusy hr hstatus worker (isBusy_of_workers h.workers hbusy)
  refine hb.of_rewrites h c.workers hwait ?_ ?_ ?_
  · exact fun worker q _ hbusy => isBusy_of_workers h.workers hbusy
  · exact fun worker hbusy => absurd hbusy (hnone worker)
  · exact fun worker _ hbusy _ => absurd hbusy (hnone worker)

/-- The first id of the queue is taken out. -/
theorem Sound.dequeue
    (hb : b.Sound) {id : String} {rest : List String} (hqueue : b.queue = id :: rest) :
    Sound { b with queue := rest } ∧ id ∉ rest := by
  have hnodup := hb.queue
  rw [hqueue] at hnodup
  obtain ⟨hfirst, hrest⟩ := List.nodup_cons.mp hnodup
  refine ⟨{ hb with queue := hrest, waiting := ?_ }, hfirst⟩
  intro id' place r hjob hmem hr
  apply hb.waiting id' place r hjob ?_ hr
  rw [hqueue]
  exact List.mem_cons_of_mem id hmem

/-- A worker that is done with its job, which has its end behind it then, is free. -/
theorem Sound.of_rewrites_done
    (hb : b.Sound) {worker : Nat} (hbusy : b.IsBusy worker place) (h : b.Rewrites c place s) :
    (c.assign worker .idle).Sound := by
  obtain ⟨r, hr, hrunning⟩ := hb.working worker place hbusy
  have hfree : ∀ other q, (c.assign worker .idle).IsBusy other q →
      other ≠ worker ∧ b.IsBusy other q := by
    intro other q hother
    obtain ⟨hne, hother⟩ := isBusy_assign_idle hother
    exact ⟨hne, isBusy_of_workers h.workers hother⟩
  have hnone : ∀ other, ¬(c.assign worker .idle).IsBusy other place := by
    intro other hother
    obtain ⟨hne, hother⟩ := hfree other place hother
    exact hne (hb.alone other worker place hother hbusy)
  refine hb.of_rewrites h (c.workers.set worker .idle) ?_ ?_ ?_ ?_
  · exact fun id hjob hmem => absurd hmem (hb.not_mem_queue hr hrunning hjob)
  · exact fun other q _ hother => (hfree other q hother).2
  · exact fun other hother => absurd hother (hnone other)
  · exact fun other _ hother _ => absurd hother (hnone other)

/-- A free worker starts a job that waits and whose id is not in the queue any more. -/
theorem Sound.of_rewrites_started
    (hb : b.Sound) (hr : b.records[place]? = some r) (hstatus : r.status ≠ .running)
    (h : b.Rewrites c place s) (hrunning : s.status = .running)
    (hgone : ∀ id, (id, place) ∈ b.jobs → id ∉ b.queue) (worker : Nat)
    (overrides : List Override) :
    (c.assign worker (.busy place overrides)).Sound := by
  have hstarted : ∀ other q, (c.assign worker (.busy place overrides)).IsBusy other q →
      (other = worker ∧ q = place) ∨ b.IsBusy other q := by
    intro other q hother
    rcases isBusy_assign_busy hother with hsame | ⟨-, hother⟩
    · exact Or.inl hsame
    · exact Or.inr (isBusy_of_workers h.workers hother)
  have honly : ∀ other, (c.assign worker (.busy place overrides)).IsBusy other place →
      other = worker := by
    intro other hother
    rcases hstarted other place hother with ⟨hsame, -⟩ | hother
    · exact hsame
    · exact absurd hother (hb.not_isBusy hr hstatus other)
  refine hb.of_rewrites h (c.workers.set worker (.busy place overrides)) ?_ ?_ ?_ ?_
  · exact fun id hjob hqueue => absurd hqueue (hgone id hjob)
  · intro other q hq hother
    rcases hstarted other q hother with ⟨-, hplace⟩ | hother
    · exact absurd hplace hq
    · exact hother
  · exact fun _ _ => hrunning
  · intro other other' hother hother'
    rw [honly other hother, honly other' hother']

/-- Every record stays as it is, or it has no end yet and takes steps from state to state. -/
def Evolves (b c : Board) : Prop :=
  ∀ (place : Nat) (r : Record), b.records[place]? = some r →
    ∃ s, c.records[place]? = some s ∧
      (s = r ∨ r.isFinished = false ∧ ReflTransGen Advances r.status s.status)

theorem evolves_of_records
    (h : c.records = b.records) : b.Evolves c := by
  intro place r hr
  exact ⟨r, by rw [h, hr], Or.inl rfl⟩

theorem Rewrites.evolves
    (h : b.Rewrites c place s) (hr : b.records[place]? = some r) (hopen : r.isFinished = false)
    (hsteps : ReflTransGen Advances r.status s.status) :
    b.Evolves c := by
  intro q t ht
  rw [h.records]
  split_ifs with hq
  · obtain rfl := hq
    obtain rfl : r = t := Option.some.inj (hr.symm.trans ht)
    exact ⟨s, rfl, Or.inr ⟨hopen, hsteps⟩⟩
  · exact ⟨t, ht, Or.inl rfl⟩

theorem isFinished_of_status
    {status : Status} (hr : r.status = status) : r.isFinished = status.isFinished := by
  rw [Record.isFinished, hr]

/-- A running job that ends takes one step. -/
theorem Rewrites.evolves_done
    (h : b.Rewrites c place s) (hr : b.records[place]? = some r) (hrunning : r.status = .running)
    (hdone : s.status = .failed ∨ s.status = .succeeded) :
    b.Evolves c := by
  apply h.evolves hr (isFinished_of_status hrunning)
  rw [hrunning]
  rcases hdone with hfailed | hsucceeded
  · rw [hfailed]
    exact .single .fail
  · rw [hsucceeded]
    exact .single .succeed

/-! ## Moves from outside -/

theorem ne_size_of_getElem?
    {q : Nat} {t : Record} (ht : b.records[q]? = some t) :
    q ≠ b.records.size := by
  rintro rfl
  rw [Array.getElem?_size] at ht
  contradiction

/-- A job is accepted under an id that neither a job nor the queue has. -/
theorem Sound.accept
    (hb : b.Sound) {newId : String} (hnew : b.jobs.lookup newId = none) (hgone : newId ∉ b.queue)
    {t : Record} (hqueued : t.status = .queued) (generated : Nat) :
    Sound { b with
      generated
      records := b.records.push t
      jobs := b.jobs ++ [(newId, b.records.size)]
      queue := b.queue ++ [newId] } := by
  have hjobs : ∀ id q, (id, q) ∈ b.jobs ++ [(newId, b.records.size)] →
      (id, q) ∈ b.jobs ∧ id ≠ newId ∧ q ≠ b.records.size ∨ id = newId ∧ q = b.records.size := by
    intro id q hjob
    rcases List.mem_append.mp hjob with hjob | hjob
    · obtain ⟨r, hr⟩ := hb.known id q hjob
      refine Or.inl ⟨hjob, ?_, ne_size_of_getElem? hr⟩
      intro hid
      rw [hid] at hjob
      exact not_mem_of_lookup hnew q hjob
    · exact Or.inr (by simpa using hjob)
  refine ⟨?_, ?_, ?_, ?_, ?_, hb.alone⟩
  · refine List.nodup_append.mpr ⟨hb.queue, List.pairwise_singleton _ _, ?_⟩
    intro id hmem id' hsingle heq
    rw [heq, List.mem_singleton.mp hsingle] at hmem
    exact hgone hmem
  · intro id q hjob
    dsimp only
    rw [Array.getElem?_push]
    split_ifs with hq
    · exact ⟨t, rfl⟩
    · rcases hjobs id q hjob with ⟨hjob, -, -⟩ | ⟨-, hq'⟩
      · exact hb.known id q hjob
      · exact absurd hq' hq
  · intro id id' q hjob hjob'
    rcases hjobs id q hjob with ⟨hjob, -, hq⟩ | ⟨rfl, hq⟩
    · rcases hjobs id' q hjob' with ⟨hjob', -, -⟩ | ⟨-, hq'⟩
      · exact hb.apart id id' q hjob hjob'
      · exact absurd hq' hq
    · rcases hjobs id' q hjob' with ⟨-, -, hq'⟩ | ⟨rfl, -⟩
      · exact absurd hq hq'
      · rfl
  · intro id q r hjob hmem hr
    dsimp only at hmem hr
    rw [Array.getElem?_push] at hr
    rcases hjobs id q hjob with ⟨hjob, hne, hq⟩ | ⟨-, hq⟩
    · rw [if_neg hq] at hr
      have hold : id ∈ b.queue := by simpa [hne] using hmem
      exact hb.waiting id q r hjob hold hr
    · rw [if_pos hq] at hr
      obtain rfl := Option.some.inj hr
      exact Or.inl hqueued
  · intro worker q hbusy
    obtain ⟨r, hr, hrunning⟩ := hb.working worker q hbusy
    refine ⟨r, ?_, hrunning⟩
    dsimp only
    rw [Array.getElem?_push, if_neg (ne_size_of_getElem? hr), hr]

theorem Sound.submit
    (hb : b.Sound) (request : CompileRequest) (id : Option String) :
    b.Evolves (b.submit request id).1 ∧
      (b.IsFresh (.submit request id) → (b.submit request id).1.Sound) := by
  rcases submit_cases b request id with ⟨generated, failure, h⟩ | ⟨generated, newId, hnew, h⟩
  · rw [h]
    exact ⟨evolves_of_records rfl, fun _ => { hb with }⟩
  · constructor
    · rw [h]
      intro q t ht
      refine ⟨t, ?_, Or.inl rfl⟩
      dsimp only
      rw [Array.getElem?_push, if_neg (ne_size_of_getElem? ht), ht]
    · intro hfresh
      have hgone : newId ∉ b.queue := hfresh newId (by rw [h])
      rw [h]
      exact hb.accept hnew hgone rfl generated

theorem Sound.cancel
    (hb : b.Sound) (id : String) :
    b.Evolves (b.cancel id).1 ∧ (b.cancel id).1.Sound := by
  rcases cancel_cases b id with h | ⟨place, r, -, hr, hqueued, h⟩
  · rw [h]
    exact ⟨evolves_of_records rfl, hb⟩
  · have hrewrites := rewrites_update hr fun r => r.cancel b.now
    have hstatus : r.status ≠ .running := by
      rw [hqueued]
      decide
    rw [h]
    constructor
    · apply hrewrites.evolves hr (isFinished_of_status hqueued)
      rw [hqueued]
      exact .single .cancel
    · exact hb.of_rewrites_waiting hr hstatus hrewrites fun _ _ _ => Or.inr rfl

theorem Sound.prune
    (hb : b.Sound) :
    b.Evolves b.prune ∧ b.prune.Sound := by
  obtain ⟨hjobs, hframe⟩ := drops_prune b
  rw [hframe]
  refine ⟨evolves_of_records rfl, { hb with known := ?_, apart := ?_, waiting := ?_ }⟩
  · exact fun id q hjob => hb.known id q (hjobs _ hjob)
  · exact fun id id' q hjob hjob' => hb.apart id id' q (hjobs _ hjob) (hjobs _ hjob')
  · exact fun id q t hjob => hb.waiting id q t (hjobs _ hjob)

theorem Sound.admitWorkers
    (hb : b.Sound) (count : Nat) :
    (b.admitWorkers count).Sound := by
  refine { hb with working := ?_, alone := ?_ }
  · exact fun worker q hbusy => hb.working worker q (isBusy_admitWorkers hbusy)
  · exact fun worker worker' q hbusy hbusy' =>
      hb.alone worker worker' q (isBusy_admitWorkers hbusy) (isBusy_admitWorkers hbusy')

theorem Sound.dismiss
    (hb : b.Sound) :
    b.Evolves b.dismiss ∧ b.dismiss.Sound := by
  obtain ⟨records, h, hother, hclosed⟩ := dismiss_cases b
  have hstatus : ∀ (q : Nat) (t : Record), b.records[q]? = some t →
      ∃ s, records[q]? = some s ∧ s.status = t.status := by
    intro q t ht
    obtain ⟨s, hs, rfl | rfl⟩ := hclosed q t ht
    · exact ⟨s, hs, rfl⟩
    · exact ⟨_, hs, rfl⟩
  rw [h]
  constructor
  · intro q t ht
    by_cases hbusy : ∃ worker, b.IsBusy worker q
    · obtain ⟨worker, hbusy⟩ := hbusy
      obtain ⟨t', ht', hrunning⟩ := hb.working worker q hbusy
      obtain rfl : t = t' := Option.some.inj (ht.symm.trans ht')
      obtain ⟨s, hs, hsame⟩ := hstatus q t ht
      refine ⟨s, hs, Or.inr ⟨isFinished_of_status hrunning, ?_⟩⟩
      rw [hsame]
    · refine ⟨t, ?_, Or.inl rfl⟩
      dsimp only
      rw [hother q, ht]
      intro overrides hmem
      obtain ⟨worker, hworker⟩ := List.getElem?_of_mem hmem
      exact hbusy ⟨worker, overrides, hworker⟩
  · refine { hb with known := ?_, waiting := ?_, working := ?_, alone := ?_ }
    · intro id q hjob
      obtain ⟨t, ht⟩ := hb.known id q hjob
      obtain ⟨s, hs, -⟩ := hstatus q t ht
      exact ⟨s, hs⟩
    · intro id q s hjob hqueue hs
      obtain ⟨t, ht⟩ := hb.known id q hjob
      obtain ⟨s', hs', hsame⟩ := hstatus q t ht
      obtain rfl : s = s' := Option.some.inj (hs.symm.trans hs')
      rw [hsame]
      exact hb.waiting id q t hjob hqueue ht
    · exact fun worker q hbusy => absurd hbusy (not_isBusy_of_idle (by simp) worker q)
    · exact fun worker _ q hbusy _ => absurd hbusy (not_isBusy_of_idle (by simp) worker q)

/-! ## Moves of workers -/

theorem Sound.take
    (hb : b.Sound) (worker : Nat) :
    b.Evolves (b.take worker).1 ∧ (b.take worker).1.Sound := by
  cases hqueue : b.queue with
  | nil =>
    rw [take_nil hqueue]
    exact ⟨evolves_of_records rfl, hb⟩
  | cons id rest =>
    obtain ⟨hrest, hgone⟩ := hb.dequeue hqueue
    rcases exists_live_or_passes_over hqueue worker with
      ⟨place, r, hplace, hr, hstatus⟩ | ⟨-, hover⟩
    · have hjob := mem_of_lookup hplace
      have hmem : id ∈ b.queue := by
        rw [hqueue]
        exact List.mem_cons_self
      have hqueued : r.status = .queued :=
        (hb.waiting id place r hjob hmem hr).resolve_right hstatus
      have hnot : r.status ≠ .running := by
        rw [hqueued]
        decide
      have hgone' : ∀ id', (id', place) ∈ b.jobs → id' ∉ rest := by
        intro id' hjob'
        rw [hb.apart id' id place hjob' hjob]
        exact hgone
      obtain ⟨c, s, hs, -, ⟨hfailed, htake⟩ | ⟨hrunning, overrides, message, htake⟩⟩ :=
        take_cases hqueue hplace hr hstatus worker
      · rw [htake]
        constructor
        · apply hs.evolves hr (isFinished_of_status hqueued)
          rw [hqueued, hfailed]
          exact .head .start (.single .fail)
        · exact hrest.of_rewrites_waiting hr hnot hs fun id' hjob' hmem' =>
            absurd hmem' (hgone' id' hjob')
      · rw [htake]
        constructor
        · apply hs.evolves hr (isFinished_of_status hqueued)
          rw [hqueued, hrunning]
          exact .single .start
        · exact hrest.of_rewrites_started hr hnot hs hrunning hgone' worker overrides
    · rw [hover]
      exact ⟨evolves_of_records rfl, hrest⟩

theorem Sound.log
    (hb : b.Sound) (worker : Nat) (line : LogLine) :
    b.Evolves (b.receive worker (.log line)) ∧ (b.receive worker (.log line)).Sound := by
  by_cases hbusy : ∃ place, b.IsBusy worker place
  · obtain ⟨place, overrides, hbusy⟩ := hbusy
    obtain ⟨r, hr, hrunning⟩ := hb.working worker place ⟨overrides, hbusy⟩
    obtain ⟨s, hs, hstatus⟩ := receive_log hbusy hr line
    rw [hrunning] at hstatus
    constructor
    · apply hs.evolves hr (isFinished_of_status hrunning)
      rw [hrunning, hstatus]
    · have hsame : ∀ other q, (b.receive worker (.log line)).IsBusy other q → b.IsBusy other q :=
        fun other q hother => isBusy_of_workers hs.workers hother
      refine hb.of_rewrites hs (b.receive worker (.log line)).workers ?_ ?_ ?_ ?_
      · exact fun id hjob hmem => absurd hmem (hb.not_mem_queue hr hrunning hjob)
      · exact fun other q _ hother => hsame other q hother
      · exact fun _ _ => hstatus
      · exact fun other other' hother hother' =>
          hb.alone other other' place (hsame other place hother) (hsame other' place hother')
  · rw [receive_of_not_busy fun place overrides hbusy' => hbusy ⟨place, overrides, hbusy'⟩]
    exact ⟨evolves_of_records rfl, hb⟩

theorem Sound.conclude
    (hb : b.Sound) (worker : Nat) (reply : Reply) :
    b.Evolves ((b.receive worker reply).finish worker) ∧
      ((b.receive worker reply).finish worker).Sound := by
  by_cases hbusy : ∃ place, b.IsBusy worker place
  · obtain ⟨place, overrides, hbusy⟩ := hbusy
    obtain ⟨r, hr, hrunning⟩ := hb.working worker place ⟨overrides, hbusy⟩
    obtain ⟨c, s, hs, hfinish, hdone⟩ := conclude_cases hbusy hr hrunning reply
    rw [hfinish]
    exact ⟨hs.evolves_done hr hrunning hdone, hb.of_rewrites_done ⟨overrides, hbusy⟩ hs⟩
  · have hidle : ∀ place overrides, b.workers[worker]? ≠ some (.busy place overrides) :=
      fun place overrides hbusy' => hbusy ⟨place, overrides, hbusy'⟩
    rw [receive_of_not_busy hidle, finish_of_not_busy hidle]
    exact ⟨evolves_of_records rfl, hb⟩

theorem Sound.desert
    (hb : b.Sound) (worker : Nat) :
    b.Evolves (b.desert worker) ∧ (b.desert worker).Sound := by
  by_cases hbusy : ∃ place, b.IsBusy worker place
  · obtain ⟨place, overrides, hbusy⟩ := hbusy
    obtain ⟨r, hr, hrunning⟩ := hb.working worker place ⟨overrides, hbusy⟩
    obtain ⟨c, s, hs, hdesert, hfailed, -⟩ := desert_cases hbusy hr
    rw [hdesert]
    exact ⟨hs.evolves_done hr hrunning (Or.inl hfailed),
      hb.of_rewrites_done ⟨overrides, hbusy⟩ hs⟩
  · rw [desert_of_not_busy fun place overrides hbusy' => hbusy ⟨place, overrides, hbusy'⟩]
    exact ⟨evolves_of_records rfl, hb⟩

/-! ## Runs -/

/-- A move leaves finished jobs alone, and keeps the invariant unless it accepts a job under an id
in the queue. -/
theorem Sound.perform
    (hb : b.Sound) (m : Move) :
    b.Evolves (b.perform m) ∧ (b.IsFresh m → (b.perform m).Sound) := by
  cases m with
  | submit request id => exact hb.submit request id
  | cancel id => exact ⟨(hb.cancel id).1, fun _ => (hb.cancel id).2⟩
  | prune => exact ⟨hb.prune.1, fun _ => hb.prune.2⟩
  | advance span => exact ⟨evolves_of_records rfl, fun _ => { hb with }⟩
  | enter count => exact ⟨evolves_of_records rfl, fun _ => hb.admitWorkers count⟩
  | dismiss => exact ⟨hb.dismiss.1, fun _ => hb.dismiss.2⟩
  | take worker =>
    unfold Board.perform
    dsimp only
    split
    · exact ⟨(hb.take worker).1, fun _ => (hb.take worker).2⟩
    · exact ⟨evolves_of_records rfl, fun _ => hb⟩
  | log worker line => exact ⟨(hb.log worker line).1, fun _ => (hb.log worker line).2⟩
  | conclude worker reply =>
    exact ⟨(hb.conclude worker reply).1, fun _ => (hb.conclude worker reply).2⟩
  | desert worker => exact ⟨(hb.desert worker).1, fun _ => (hb.desert worker).2⟩

/-- The first id of the queue does not stand for a finished job, unless that is cancelled. -/
theorem Sound.not_hands
    (hb : b.Sound) (hr : b.records[place]? = some r) (hfinished : r.isFinished = true)
    (m : Move) :
    ¬b.Hands m place := by
  rintro ⟨worker, id, message, -, -, hhead, hplace, hmessage⟩
  obtain ⟨rest, hqueue⟩ := List.head?_eq_some_iff.mp hhead
  have hmem : id ∈ b.queue := by
    rw [hqueue]
    exact List.mem_cons_self
  have hcancelled : r.status = .cancelled := by
    rcases hb.waiting id place r (mem_of_lookup hplace) hmem hr with hqueued | hcancelled
    · rw [isFinished_of_status hqueued] at hfinished
      contradiction
    · exact hcancelled
  have hover := take_passes_over hqueue worker fun q t hq ht => by
    obtain rfl : place = q := Option.some.inj (hplace.symm.trans hq)
    obtain rfl : r = t := Option.some.inj (hr.symm.trans ht)
    exact hcancelled
  rw [hover] at hmessage
  contradiction

theorem Sound.finishedIsFinal
    (hb : b.Sound) (m : Move) :
    b.FinishedIsFinal m := by
  intro place r hr
  obtain ⟨s, hs, rfl | ⟨hopen, hsteps⟩⟩ := (hb.perform m).1 place r hr
  · exact ⟨s, hs, .refl, fun hfinished =>
      ⟨⟨rfl, rfl, rfl, rfl, rfl⟩, hb.not_hands hr hfinished m⟩⟩
  · refine ⟨s, hs, hsteps, fun hfinished => ?_⟩
    rw [hopen] at hfinished
    contradiction

theorem Sound.of_freshRun
    (hb : b.Sound) (hrun : FreshRun b c) :
    c.Sound := by
  induction hrun with
  | refl => exact hb
  | tail _ hstep ih =>
    obtain ⟨m, hfresh, rfl⟩ := hstep
    exact (ih.perform m).2 hfresh

end Sound

end Board

end SolidWorkshop.Job
