import Mathlib.Tactic.ByContra
import SolidWorkshop.Proofs.Job.Finality

/-!
# Jobs accepted under an id in the queue

Where an id is accepted while it is still in the queue, it stands in the queue twice for the new
job.  From there a run of the workers leads to a finished job that is started a second time: the
first worker to take the id has the job fail, and the next one takes the same job again.
-/

namespace SolidWorkshop.Job

open Relation

namespace Board

/-- The job at a place has failed after it was started at this point in time. -/
def Spent (b : Board) (place : Nat) : Prop :=
  ∃ r : Record, b.records[place]? = some r ∧ r.status = .failed ∧ r.startedAt = some b.now

/-- The first worker is free, and the job of an id waits or is spent. -/
structure Poised (b : Board) (id : String) (place : Nat) : Prop where
  idle : ∃ workers, b.workers = .idle :: workers
  job : b.jobs.lookup id = some place
  record : (∃ r : Record, b.records[place]? = some r ∧ r.status = .queued) ∨ b.Spent place

section Poised

variable {b : Board} {id first : String} {place : Nat} {rest : List String}

theorem Poised.exists_record
    (h : b.Poised id place) :
    ∃ r : Record, b.records[place]? = some r ∧ r.status ≠ .cancelled := by
  rcases h.record with ⟨r, hr, hstatus⟩ | ⟨r, hr, hstatus, -⟩
  · exact ⟨r, hr, by rw [hstatus]; decide⟩
  · exact ⟨r, hr, by rw [hstatus]; decide⟩

theorem perform_take
    {workers : List Worker} (hidle : b.workers = .idle :: workers) :
    b.perform (.take 0) = (b.take 0).1 := by
  unfold perform
  rw [hidle]
  rfl

theorem freshRun_single
    (b : Board) {m : Move} (hfresh : b.IsFresh m) :
    FreshRun b (b.perform m) :=
  .single ⟨m, hfresh, rfl⟩

/-- The free worker takes a job that is not cancelled and is deserted: the job is spent. -/
theorem exists_run_spends
    {workers : List Worker} (hidle : b.workers = .idle :: workers)
    (hqueue : b.queue = first :: rest) {own : Nat} {r : Record}
    (hown : b.jobs.lookup first = some own) (hr : b.records[own]? = some r)
    (hstatus : r.status ≠ .cancelled) :
    ∃ c s, FreshRun b c ∧ c.workers = .idle :: workers ∧ c.queue = rest ∧ c.jobs = b.jobs ∧
      c.now = b.now ∧ (∀ q, c.records[q]? = if own = q then some s else b.records[q]?) ∧
      s.status = .failed ∧ s.startedAt = some b.now := by
  have hrun := freshRun_single b (m := .take 0) trivial
  rw [perform_take hidle] at hrun
  obtain ⟨c, s, hs, hstarted, ⟨hfailed, htake⟩ | ⟨-, overrides, message, htake⟩⟩ :=
    take_cases hqueue hown hr hstatus 0
  · rw [htake] at hrun
    exact ⟨c, s, hrun, hs.workers.trans hidle, hs.queue, hs.jobs, hs.now, hs.records, hfailed,
      hstarted⟩
  · rw [htake] at hrun
    have hworkers : (c.assign 0 (.busy own overrides)).workers =
        .busy own overrides :: workers := by
      rw [assign, hs.workers]
      dsimp only
      rw [hidle]
      rfl
    have hbusy : (c.assign 0 (.busy own overrides)).workers[0]? =
        some (.busy own overrides) := by
      rw [hworkers]
      rfl
    obtain ⟨d, t, ht, hdesert, hfailed, hsame⟩ := desert_cases hbusy hs.getElem?_self
    have hlast := freshRun_single (c.assign 0 (.busy own overrides)) (m := .desert 0) trivial
    have hperform : (c.assign 0 (.busy own overrides)).perform (.desert 0) = d.assign 0 .idle :=
      hdesert
    rw [hperform] at hlast
    refine ⟨d.assign 0 .idle, t, hrun.trans hlast, ?_, ht.queue.trans hs.queue,
      ht.jobs.trans hs.jobs, ht.now.trans hs.now, ?_, hfailed, hsame.trans hstarted⟩
    · rw [assign, ht.workers, hworkers]
      rfl
    · exact (hs.trans ⟨ht.records, ht.jobs, ht.queue, rfl, ht.now⟩ : Rewrites _
        { d with workers := c.workers } own t).records

/-- One id is taken out of the queue. -/
theorem Poised.exists_run_of_cons
    (h : b.Poised id place) (hqueue : b.queue = first :: rest) :
    ∃ c, FreshRun b c ∧ c.Poised id place ∧ c.queue = rest ∧
      (first = id ∨ b.Spent place → c.Spent place) := by
  obtain ⟨workers, hidle⟩ := h.idle
  rcases exists_live_or_passes_over hqueue 0 with
    ⟨own, r, hown, hr, hstatus⟩ | ⟨hcancelled, hover⟩
  · obtain ⟨c, s, hrun, hidle', hqueue', hjobs, hnow, hrecords, hfailed, hstarted⟩ :=
      exists_run_spends hidle hqueue hown hr hstatus
    have hspent : own = place → c.Spent place := by
      intro heq
      exact ⟨s, by rw [hrecords, if_pos heq], hfailed, by rw [hnow, hstarted]⟩
    have hkept : own ≠ place → c.records[place]? = b.records[place]? := by
      intro hne
      rw [hrecords, if_neg hne]
    have hstays : b.Spent place → c.Spent place := by
      rintro ⟨t, ht, htfailed, htstarted⟩
      by_cases heq : own = place
      · exact hspent heq
      · exact ⟨t, by rw [hkept heq, ht], htfailed, by rw [hnow, htstarted]⟩
    refine ⟨c, hrun, ⟨⟨workers, hidle'⟩, by rw [hjobs, h.job], ?_⟩, hqueue', ?_⟩
    · by_cases heq : own = place
      · exact Or.inr (hspent heq)
      · rcases h.record with ⟨t, ht, hqueued⟩ | hold
        · exact Or.inl ⟨t, by rw [hkept heq, ht], hqueued⟩
        · exact Or.inr (hstays hold)
    · rintro (rfl | hold)
      · exact hspent (Option.some.inj (hown.symm.trans h.job))
      · exact hstays hold
  · have hrun := freshRun_single b (m := .take 0) trivial
    rw [perform_take hidle, hover] at hrun
    refine ⟨_, hrun, ⟨h.idle, h.job, h.record⟩, rfl, ?_⟩
    rintro (rfl | hold)
    · obtain ⟨r, hr, hstatus⟩ := h.exists_record
      exact absurd (hcancelled place r h.job hr) hstatus
    · exact hold

/-- The ids before some point of the queue are taken out; the job of each is spent. -/
theorem Poised.exists_run
    (before : List String) (h : b.Poised id place) (hqueue : b.queue = before ++ rest) :
    ∃ c, FreshRun b c ∧ c.Poised id place ∧ c.queue = rest ∧
      (id ∈ before ∨ b.Spent place → c.Spent place) := by
  induction before generalizing b with
  | nil =>
    refine ⟨b, .refl, h, hqueue, ?_⟩
    rintro (hmem | hspent)
    · contradiction
    · exact hspent
  | cons first before ih =>
    obtain ⟨c, hrun, hc, hqueue', hspent⟩ := h.exists_run_of_cons hqueue
    obtain ⟨d, hrun', hd, hrest, hspent'⟩ := ih hc hqueue'
    refine ⟨d, hrun.trans hrun', hd, hrest, ?_⟩
    rintro (hmem | hold)
    · rcases List.mem_cons.mp hmem with hfirst | hmem
      · exact hspent' (Or.inr (hspent (Or.inl hfirst.symm)))
      · exact hspent' (Or.inl hmem)
    · exact hspent' (Or.inr (hspent (Or.inr hold)))

/-- A spent job whose id is the next to be taken is started again, at a later point in time. -/
theorem Poised.not_finishedIsFinal
    (h : b.Poised id place) (hspent : b.Spent place) (hqueue : b.queue = id :: rest) :
    ¬(b.advance 1).FinishedIsFinal (.take 0) := by
  intro hfinal
  obtain ⟨workers, hidle⟩ := h.idle
  obtain ⟨r, hr, hfailed, hstarted⟩ := hspent
  have hstatus : r.status ≠ .cancelled := by
    rw [hfailed]
    decide
  have htaken : ∃ s, ((b.advance 1).perform (.take 0)).records[place]? = some s ∧
      s.startedAt = some (b.advance 1).now := by
    rw [perform_take (b := b.advance 1) hidle]
    obtain ⟨c, s, hs, hnow, ⟨-, htake⟩ | ⟨-, overrides, message, htake⟩⟩ :=
      take_cases (b := b.advance 1) hqueue h.job hr hstatus 0
    · rw [htake]
      exact ⟨s, hs.getElem?_self, hnow⟩
    · rw [htake]
      exact ⟨s, hs.getElem?_self, hnow⟩
  obtain ⟨s, hs, hnow⟩ := htaken
  obtain ⟨s', hs', -, hsame⟩ := hfinal place r hr
  obtain rfl : s = s' := Option.some.inj (hs.symm.trans hs')
  have hkept := (hsame (isFinished_of_status hfailed)).1.startedAt
  rw [hnow, hstarted] at hkept
  have hmicros := congrArg Instant.micros (Option.some.inj hkept)
  have hlater : (b.advance 1).now.micros = b.now.micros + 1 := rfl
  omega

end Poised

/-- The first worker is free, or it can be deserted, or one comes in; a job that waits does not
change by this. -/
theorem exists_poised_of_waits
    {b : Board} {id : String} {place : Nat} (hjob : b.jobs.lookup id = some place)
    (hwaits : ∃ r : Record, b.records[place]? = some r ∧ r.status = .queued)
    (hworking : ∀ own, b.IsBusy 0 own → own ≠ place ∧ ∃ r : Record, b.records[own]? = some r) :
    ∃ c, FreshRun b c ∧ c.Poised id place ∧ c.queue = b.queue := by
  cases hfirst : b.workers with
  | nil =>
    refine ⟨_, freshRun_single b (m := .enter 1) trivial, ⟨⟨[], ?_⟩, hjob, Or.inl hwaits⟩, rfl⟩
    change b.workers ++ [.idle] = [.idle]
    rw [hfirst]
    rfl
  | cons worker workers =>
    cases worker with
    | idle => exact ⟨b, .refl, ⟨⟨workers, hfirst⟩, hjob, Or.inl hwaits⟩, rfl⟩
    | busy own overrides =>
      have hbusy : b.workers[0]? = some (.busy own overrides) := by
        rw [hfirst]
        rfl
      obtain ⟨hne, r, hr⟩ := hworking own ⟨overrides, hbusy⟩
      obtain ⟨c, s, hs, hdesert, -⟩ := desert_cases hbusy hr
      have hrun := freshRun_single b (m := .desert 0) trivial
      have hperform : b.perform (.desert 0) = c.assign 0 .idle := hdesert
      rw [hperform] at hrun
      refine ⟨_, hrun, ⟨⟨workers, ?_⟩, hs.jobs ▸ hjob, Or.inl ?_⟩, hs.queue⟩
      · rw [assign, hs.workers, hfirst]
        rfl
      · obtain ⟨t, ht, hqueued⟩ := hwaits
        refine ⟨t, ?_, hqueued⟩
        change c.records[place]? = some t
        rw [hs.records, if_neg hne, ht]

/-- After a job is accepted it waits, at the end of the queue. -/
theorem Sound.exists_poised
    {b : Board} (hb : b.Sound) {request : CompileRequest} {id : Option String} {newId : String}
    (haccepted : (b.submit request id).2 = .ok newId) :
    ∃ c place, FreshRun (b.perform (.submit request id)) c ∧ c.Poised newId place ∧
      c.queue = b.queue ++ [newId] := by
  rcases submit_cases b request id with ⟨generated, failure, h⟩ | ⟨generated, id', hnew, h⟩
  · rw [h] at haccepted
    contradiction
  · rw [h] at haccepted
    obtain rfl : id' = newId := Except.ok.inj haccepted
    have hperform := congrArg Prod.fst h
    change b.perform (.submit request id) = _ at hperform
    rw [hperform]
    have hjob : (b.jobs ++ [(id', b.records.size)]).lookup id' = some b.records.size := by
      simp [List.lookup_append, hnew]
    have hworking : ∀ (t : Record) (own : Nat), b.IsBusy 0 own → own ≠ b.records.size ∧
        ∃ r : Record, (b.records.push t)[own]? = some r := by
      intro t own hbusy
      obtain ⟨r, hr, -⟩ := hb.working 0 own hbusy
      have hne := ne_size_of_getElem? hr
      exact ⟨hne, r, by rw [Array.getElem?_push, if_neg hne, hr]⟩
    obtain ⟨c, hrun, hc, hqueue⟩ := exists_poised_of_waits (b := { b with
      generated
      records := b.records.push { id := id', request, createdAt := b.now }
      jobs := b.jobs ++ [(id', b.records.size)]
      queue := b.queue ++ [id'] }) hjob ⟨_, Array.getElem?_push_size, rfl⟩ (hworking _)
    exact ⟨c, b.records.size, hrun, hc, hqueue⟩

/-- A job accepted under an id in the queue is started again after its end, by some later move. -/
theorem Sound.exists_not_finishedIsFinal
    {b : Board} (hb : b.Sound) {m : Move} (hstale : ¬b.IsFresh m) :
    ∃ c m', FreshRun (b.perform m) c ∧ ¬c.FinishedIsFinal m' := by
  cases m with
  | submit request id =>
    obtain ⟨newId, haccepted, hmem⟩ : ∃ newId, (b.submit request id).2 = .ok newId ∧
        newId ∈ b.queue := by
      by_contra hnone
      exact hstale fun newId haccepted hmem => hnone ⟨newId, haccepted, hmem⟩
    obtain ⟨c, place, hrun, hc, hqueue⟩ := hb.exists_poised haccepted
    obtain ⟨d, hrun', hd, hlast, hspent⟩ := hc.exists_run b.queue hqueue
    exact ⟨_, .take 0, (hrun.trans hrun').trans (freshRun_single d (m := .advance 1) trivial),
      hd.not_finishedIsFinal (hspent (Or.inl hmem)) hlast⟩
  | _ => exact absurd trivial hstale

/-- As long as no job was accepted under an id in the queue, finished jobs are final, and they stay
so, whatever happens, exactly if the next move does not accept such a job either. -/
theorem finished_final_forever_iff_isFresh
    (policy : Policy) (count : Nat) {b : Board} (hrun : FreshRun (opened policy count) b)
    (m : Move) :
    b.FinishedIsFinal m ∧
      ((∀ c m', FreshRun (b.perform m) c → c.FinishedIsFinal m') ↔ b.IsFresh m) := by
  have hb := (sound_opened policy count).of_freshRun hrun
  refine ⟨hb.finishedIsFinal m, ?_, ?_⟩
  · intro hforever
    by_contra hstale
    obtain ⟨c, m', hrun', hnot⟩ := hb.exists_not_finishedIsFinal hstale
    exact hnot (hforever c m' hrun')
  · intro hfresh c m' hrun'
    exact (((hb.perform m).2 hfresh).of_freshRun hrun').finishedIsFinal m'

/-! ## A job that is cancelled, dropped and accepted again -/

/-- It can be decided whether a move is fresh. -/
instance (b : Board) : DecidablePred b.IsFresh
  | .submit request id =>
    match h : (b.submit request id).2 with
    | .ok newId => decidable_of_iff (newId ∉ b.queue) (by simp [IsFresh, h])
    | .error _ => isTrue (by simp [IsFresh, h])
  | .cancel _ | .prune | .advance _ | .enter _ | .dismiss | .take _ | .log .. | .conclude .. |
    .desert _ => isTrue trivial

/-- The moves of a list are fresh, each where it comes in its turn. -/
def AreFresh (b : Board) : List Move → Prop
  | [] => True
  | m :: moves => b.IsFresh m ∧ (b.perform m).AreFresh moves

theorem freshRun_foldl
    {moves : List Move} {b : Board} (h : b.AreFresh moves) :
    FreshRun b (moves.foldl perform b) := by
  induction moves generalizing b with
  | nil => exact .refl
  | cons m moves ih => exact .head ⟨m, h.1, rfl⟩ (ih h.2)

/-- Room for any number of ids, and a minute for finished jobs. -/
def briefPolicy : Policy :=
  ⟨0, 10, 60000000, ⟨"", ["artifacts"]⟩⟩

/-- Accept a job that compiles a cube. -/
def submitCube (id : String) : Move :=
  .submit ⟨"cube(1);", [], none, none, [], []⟩ (some id)

/-- While a worker is at work on a job, another one is accepted, cancelled and dropped. -/
def dropsCancelled : List Move :=
  [submitCube "first", .take 0, submitCube "part", .cancel "part", .advance 100000000, .prune]

/-- The dropped job is accepted again, taken and finished, and some time goes by. -/
def finishesAgain : List Move :=
  [submitCube "part", .conclude 0 (.result ⟨#[1]⟩ (some 0) .nan), .take 0,
    .conclude 0 (.result ⟨#[1]⟩ (some 0) .nan), .advance 1000000]

theorem resubmitted_not_final_forever :
    let b := dropsCancelled.foldl perform (opened briefPolicy 1)
    FreshRun (opened briefPolicy 1) b ∧ b.FinishedIsFinal (submitCube "part") ∧
      ∃ c m', FreshRun (b.perform (submitCube "part")) c ∧ ¬c.FinishedIsFinal m' := by
  have hfresh : (opened briefPolicy 1).AreFresh dropsCancelled :=
    ⟨by decide +kernel, trivial, by decide +kernel, trivial, trivial, trivial, trivial⟩
  have hrun := freshRun_foldl hfresh
  obtain ⟨hfinal, hforever⟩ :=
    finished_final_forever_iff_isFresh briefPolicy 1 hrun (submitCube "part")
  refine ⟨hrun, hfinal, ?_⟩
  by_contra hnone
  have hagain := hforever.mp fun c m' hrun' => by
    by_contra hnot
    exact hnone ⟨c, m', hrun', hnot⟩
  exact absurd hagain (by decide +kernel)

/-- The job that was accepted again has succeeded, and is running after the next move. -/
theorem not_forall_finishedIsFinal :
    ¬∀ (policy : Policy) (count : Nat) (moves : List Move) (m : Move),
      (moves.foldl perform (opened policy count)).FinishedIsFinal m := by
  intro hfinal
  have hbefore : (((dropsCancelled ++ finishesAgain).foldl perform
      (opened briefPolicy 1)).records[2]?.map (·.status)) = some .succeeded := by
    decide +kernel
  have hafter : ((((dropsCancelled ++ finishesAgain).foldl perform
      (opened briefPolicy 1)).perform (.take 0)).records[2]?.map (·.status)) = some .running := by
    decide +kernel
  obtain ⟨r, hr, hsucceeded⟩ := Option.map_eq_some_iff.mp hbefore
  obtain ⟨s, hs, -, hsame⟩ :=
    hfinal briefPolicy 1 (dropsCancelled ++ finishesAgain) (.take 0) 2 r hr
  have hkept := (hsame (isFinished_of_status hsucceeded)).1.status
  rw [hs, Option.map_some, Option.some.injEq] at hafter
  rw [hafter, hsucceeded] at hkept
  contradiction

end Board

end SolidWorkshop.Job
