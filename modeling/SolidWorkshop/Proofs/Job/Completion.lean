import Mathlib.Data.List.Infix
import SolidWorkshop.Proofs.Job.Cancellation

/-!
# Jobs that are done

Those who wait for a job go on once its record is marked as done, and expect that the job has its
end behind it then.  A done record always has the point in time of its end.  That its job has
ended as well is kept by all turns but two: when the workers go, one of them may be at work on a
job that runs, and an id that waits in the queue a second time lets a done job be started again.
-/

namespace SolidWorkshop.Job

/-- Whoever waits for the job goes on, and when it ended is known. -/
structure Record.IsClosed (r : Record) : Prop where
  done : r.isDone = true
  ended : r.finishedAt.isSome = true

namespace Board

/-- The jobs of done records have their end behind them. -/
def DoneMeansFinished (b : Board) : Prop :=
  ∀ (place : Nat) (r : Record), b.records[place]? = some r → r.isDone = true →
    r.isFinished = true

/-- The workers go while one of them is at work on a running job, or the request of a done job is
handed to the channel. -/
inductive Breaks (b : Board) : Turn → Prop
  | dismiss {worker place : Nat} {r : Record} (hbusy : b.IsBusy worker place)
    (hr : b.records[place]? = some r) (hrunning : r.status = .running) :
    Breaks b (.move .dismiss)
  | restart {m : Move} {place : Nat} {r : Record} (hhands : b.Hands m place)
    (hr : b.records[place]? = some r) (hdone : r.isDone = true) :
    Breaks b (.move m)

/-- A wait for the job of an id begins after some turns, and goes on once the job is done.  After
some more turns the id still is that of the job, and its record is the answer. -/
structure Returns (b : Board) (id : String) (place : Nat) (begun woken rest : List Turn)
    (r : Record) : Prop where
  begins : (b.run begun).jobs.lookup id = some place
  wakes : ∃ s : Record, (b.run (begun ++ woken)).records[place]? = some s ∧ s.isDone = true
  finds : (b.run (begun ++ woken ++ rest)).jobs.lookup id = some place
  record : (b.run (begun ++ woken ++ rest)).records[place]? = some r

section Closed

variable {b c : Board} {t : Turn} {place : Nat} {r s : Record}

theorem Ends.isClosed
    {worker : Nat} {overrides : List Override} {artifacts : List (String × ByteArray)}
    (h : b.Ends worker overrides r t s artifacts) :
    s.IsClosed := by
  cases h with
  | error | stored | lost | unfinished | deserted => exact ⟨rfl, rfl⟩

/-- A turn that touches a record closes it, or leaves it as closed or as open as it was. -/
theorem Fares.closed_cases
    (h : b.Fares t c place r s) :
    s.IsClosed ∨ s.isDone = r.isDone ∧ s.finishedAt = r.finishedAt := by
  cases h with
  | stay | start | note => exact Or.inr ⟨rfl, rfl⟩
  | cancel | refuse | close => exact Or.inl ⟨rfl, rfl⟩
  | conclude _ hend => exact Or.inl hend.isClosed

/-- A done record is done forever. -/
theorem Occupied.exists_done_run
    (hocc : b.Occupied) (hr : b.records[place]? = some r) (hdone : r.isDone = true)
    (turns : List Turn) :
    ∃ s : Record, (b.run turns).records[place]? = some s ∧ s.isDone = true := by
  induction turns generalizing b r with
  | nil => exact ⟨r, hr, hdone⟩
  | cons t turns ih =>
    have hstep := hocc.step_turn t
    obtain ⟨s, hs, hfares⟩ := hstep.exists_fares hr
    refine ih (hocc.step hstep) hs ?_
    rcases hfares.closed_cases with hclosed | ⟨hsame, -⟩
    · exact hclosed.done
    · rw [hsame, hdone]

end Closed

section Break

variable {b c : Board} {t : Turn} {place : Nat} {r s : Record}

theorem DoneMeansFinished.of_records
    (hb : b.DoneMeansFinished) (h : c.records = b.records) :
    c.DoneMeansFinished := by
  intro q u hu
  rw [h] at hu
  exact hb q u hu

/-- Of one record that is rewritten, and the others. -/
theorem DoneMeansFinished.of_replaces
    (hb : b.DoneMeansFinished) (hs : Replaces b.records c.records place s)
    (hfinished : s.isDone = true → s.isFinished = true) :
    c.DoneMeansFinished := by
  intro q u hu hdone
  rw [hs] at hu
  split_ifs at hu
  · obtain rfl := Option.some.inj hu
    exact hfinished hdone
  · exact hb q u hu hdone

/-- A job that was started has ended or is running. -/
theorem Occupied.isFinished_of_isBusy
    {worker : Nat} (hocc : b.Occupied) (hbusy : b.IsBusy worker place)
    (hr : b.records[place]? = some r) (hstatus : r.status ≠ .running) :
    r.isFinished = true := by
  obtain ⟨hqueued, hcancelled⟩ := hocc.status_of_isBusy hbusy hr
  cases h : r.status with
  | queued => contradiction
  | running => contradiction
  | succeeded | failed | cancelled => rw [isFinished_of_status h]; rfl

theorem hands_of_take
    {worker : Nat} {id : String} {rest : List String} {source : String}
    {overrides : List Override} (hidle : b.workers[worker]? = some .idle)
    (hqueue : b.queue = id :: rest) (hplace : b.jobs.lookup id = some place)
    (hr : b.records[place]? = some r) (hlive : r.status ≠ .cancelled)
    (hprepared : prepared r.request = .ok (source, overrides)) :
    b.Hands (.take worker) place := by
  refine ⟨worker, id, ⟨source, overrides⟩, rfl, hidle, ?_, hplace, ?_⟩
  · rw [hqueue]
    rfl
  · rw [take_of_ok hqueue hplace hr hlive hprepared]

/-- A job whose request is handed to the channel runs, and is as done as it was. -/
theorem Hands.exists_running
    {m : Move} (h : b.Hands m place) (hr : b.records[place]? = some r) :
    ∃ s : Record, (b.perform m).records[place]? = some s ∧ s.status = .running ∧
      s.isDone = r.isDone := by
  obtain ⟨worker, id, message, rfl, hidle, hhead, hplace, hmessage⟩ := h
  obtain ⟨rest, hqueue⟩ := List.head?_eq_some_iff.mp hhead
  rw [perform, hidle]
  rcases exists_live_or_passes_over hqueue worker with ⟨own, r', hown, hr', hlive⟩ | ⟨-, hover⟩
  · obtain rfl : own = place := Option.some.inj (hown.symm.trans hplace)
    obtain rfl : r' = r := Option.some.inj (hr'.symm.trans hr)
    cases hprepared : prepared r'.request with
    | error failure =>
      rw [take_of_error hqueue hplace hr hlive hprepared] at hmessage
      contradiction
    | ok result =>
      obtain ⟨source, overrides⟩ := result
      rw [take_of_ok hqueue hplace hr hlive hprepared]
      have hstart := replaces_update (b := { b with queue := rest }) hr fun r => r.start b.now
      have hcompile := hstart.trans (replaces_update hstart.getElem?_self Record.compiling)
      exact ⟨_, hcompile.getElem?_self, rfl, rfl⟩
  · rw [hover] at hmessage
    contradiction

/-- A closed record is not changed by closing it again. -/
theorem getElem?_foldl_closeWork_of_closed
    (ws : List Worker) (hr : b.records[place]? = some (r.close b.now)) :
    (ws.foldl closeWork b).records[place]? = some (r.close b.now) := by
  obtain ⟨records, hfold, -, hclosed⟩ := foldl_closeWork ws b
  obtain ⟨s, hs, rfl | rfl⟩ := hclosed place _ hr
  · rw [hfold]
    exact hs
  · rw [hfold]
    exact hs

/-- Whatever somebody works on is closed. -/
theorem getElem?_foldl_closeWork
    {ws : List Worker} {overrides : List Override} (hbusy : .busy place overrides ∈ ws)
    (hr : b.records[place]? = some r) :
    (ws.foldl closeWork b).records[place]? = some (r.close b.now) := by
  induction ws generalizing b r with
  | nil => contradiction
  | cons worker ws ih =>
    rcases List.mem_cons.mp hbusy with rfl | hlater
    · exact getElem?_foldl_closeWork_of_closed (b := b.closeWork (.busy place overrides)) ws
        (replaces_update hr _).getElem?_self
    · cases worker with
      | idle => exact ih hlater hr
      | busy own taken =>
        by_cases hown : own = place
        · obtain rfl := hown
          have hclosed : (b.closeWork (.busy own taken)).records[own]? = some (r.close b.now) :=
            (replaces_update hr fun r => r.close b.now).getElem?_self
          have hlast := ih hlater hclosed
          exact hlast
        · refine ih (b := b.closeWork (.busy own taken)) hlater ?_
          rw [closeWork, getElem?_update, if_neg hown, hr]

/-- When the workers go, the record of a running job is closed and the job stays running. -/
theorem Breaks.not_doneMeansFinished
    (h : b.Breaks t) :
    ¬(b.turn t).DoneMeansFinished := by
  intro hfinished
  cases h with
  | @dismiss worker place r hbusy hr hrunning =>
    obtain ⟨overrides, hbusy⟩ := hbusy
    have hclosed := getElem?_foldl_closeWork (List.mem_of_getElem? hbusy) hr
    have hend := hfinished place (r.close b.now) hclosed rfl
    rw [isFinished_of_status (r := r.close b.now) hrunning] at hend
    contradiction
  | restart hhands hr hdone =>
    obtain ⟨s, hs, hrunning, hsame⟩ := hhands.exists_running hr
    have hend := hfinished _ s hs (hsame.trans hdone)
    rw [isFinished_of_status hrunning] at hend
    contradiction

/-- Every other turn closes records of jobs that have ended only. -/
theorem Step.doneMeansFinished
    (hocc : b.Occupied) (h : b.Step t c) (hb : b.DoneMeansFinished) (hsafe : ¬b.Breaks t) :
    c.DoneMeansFinished := by
  cases h with
  | decline | keep | advance | enter | rest | pass | ignore => exact hb
  | prune =>
    obtain ⟨-, hframe⟩ := drops_prune b
    exact hb.of_records (by rw [hframe])
  | accept =>
    intro q u hu hdone
    dsimp only at hu
    rw [Array.getElem?_push] at hu
    split_ifs at hu
    · obtain rfl := Option.some.inj hu
      contradiction
    · exact hb q u hu hdone
  | cancel _ _ _ hs => exact hb.of_replaces hs fun _ => rfl
  | refuse _ _ _ _ _ _ hs => exact hb.of_replaces hs fun _ => rfl
  | start hidle hqueue hplace hr hlive hprepared hs =>
    refine hb.of_replaces hs fun hdone => ?_
    exact absurd (.restart (hands_of_take hidle hqueue hplace hr hlive hprepared) hr hdone) hsafe
  | note hbusy hr hs =>
    have hkept := hb _ _ hr
    exact hb.of_replaces hs hkept
  | conclude hbusy hr hend hs =>
    refine hb.of_replaces hs fun _ => ?_
    rcases hend.status_cases with hfailed | hsucceeded | ⟨hsame, hstatus⟩
    · rw [isFinished_of_status hfailed]
      rfl
    · rw [isFinished_of_status hsucceeded]
      rfl
    · rw [isFinished_of_status hsame]
      exact hocc.isFinished_of_isBusy ⟨_, hbusy⟩ hr hstatus
  | dismiss hother hclosed =>
    intro q u hu hdone
    dsimp only at hu
    by_cases hbusy : ∃ worker, b.IsBusy worker q
    · obtain ⟨worker, hbusy⟩ := hbusy
      obtain ⟨r, hr, -⟩ := hocc worker q hbusy
      have hend : r.isFinished = true := hocc.isFinished_of_isBusy hbusy hr fun hrunning =>
        hsafe (.dismiss hbusy hr hrunning)
      obtain ⟨s, hs, rfl | rfl⟩ := hclosed q r hr
      · exact Option.some.inj (hs.symm.trans hu) ▸ hend
      · exact Option.some.inj (hs.symm.trans hu) ▸ hend
    · rw [hother q fun worker hworker => hbusy ⟨worker, hworker⟩] at hu
      exact hb q u hu hdone

end Break

section Run

variable {policy : Policy} {count : Nat}

/-- A done record has the point in time of its end. -/
theorem isSome_finishedAt_run
    (turns : List Turn) {place : Nat} {r : Record}
    (hr : ((opened policy count).run turns).records[place]? = some r) (hdone : r.isDone = true) :
    r.finishedAt.isSome = true := by
  refine run_induction (motive := fun _ b => ∀ (place : Nat) (r : Record),
    b.records[place]? = some r → r.isDone = true → r.finishedAt.isSome = true) ?_ ?_ turns
    place r hr hdone
  · intro place r hr
    contradiction
  · intro turns t b c _ hocc hstep ih place s hs hdone
    rcases hstep.record_cases hocc hs with ⟨r, hr, hfares⟩ | ⟨_, _, _, -, -, -, -, rfl⟩
    · rcases hfares.closed_cases with hclosed | ⟨hsame, hend⟩
      · exact hclosed.ended
      · rw [hend]
        exact ih place r hr (hsame.symm.trans hdone)
    · contradiction

/-- As long as no turn breaks it, the jobs of done records have their end behind them, and the
first turn that breaks it leaves one that has not. -/
theorem forall_doneMeansFinished_iff
    (turns : List Turn) :
    (∀ before, before <+: turns → ((opened policy count).run before).DoneMeansFinished) ↔
      ∀ before t, before ++ [t] <+: turns → ¬((opened policy count).run before).Breaks t := by
  constructor
  · intro hfinished before t ht hbreaks
    apply hbreaks.not_doneMeansFinished
    rw [← run_concat]
    exact hfinished _ ht
  · intro hsafe before hbefore
    induction before using List.reverseRecOn with
    | nil => exact fun place r hr => absurd hr nofun
    | append_singleton before t ih =>
      have hocc : ((opened policy count).run before).Occupied := occupied_run before
      rw [run_concat]
      exact (hocc.step_turn t).doneMeansFinished hocc
        (ih ((List.prefix_append before [t]).trans hbefore)) (hsafe before t hbefore)

end Run

/-- A wait that ends without a failure finds a done record. -/
theorem exists_done_of_await
    {b : Board} {id : String} {limit : Number} {status : Status}
    (h : b.await id limit = .ok status) :
    ∃ (place : Nat) (r : Record), b.records[place]? = some r ∧ r.isDone = true ∧
      r.status = status := by
  obtain ⟨r, hget, h⟩ := Failure.bind_eq_ok_iff.mp h
  have hfind : b.find? id = some r := by
    unfold get at hget
    split at hget
    · next found hfound => rw [hfound, Except.ok.inj hget]
    · contradiction
  obtain ⟨place, -, hr⟩ := Option.bind_eq_some_iff.mp hfind
  refine ⟨place, r, hr, ?_⟩
  split_ifs at h with hopen
  · contradiction
  · rw [Bool.or_eq_true, not_or] at hopen
    have hdone : r.isDone = true := by simpa using hopen.2
    exact ⟨hdone, Except.ok.inj h⟩

/-- A job for which somebody has waited until it was done stays done. -/
theorem Returns.isDone
    {b : Board} {id : String} {place : Nat} {begun woken rest : List Turn} {r : Record}
    (hocc : b.Occupied) (h : b.Returns id place begun woken rest r) :
    r.isDone = true := by
  obtain ⟨s, hs, hdone⟩ := h.wakes
  obtain ⟨u, hu, hkept⟩ := (hocc.run (begun ++ woken)).exists_done_run hs hdone rest
  rw [← run_append] at hu
  obtain rfl : u = r := Option.some.inj (hu.symm.trans h.record)
  exact hkept

/-- A done record has the point in time of its end.  Throughout a run done jobs have their end
behind them exactly if the workers never go while one is at work on a running job, and the request
of a done job is never handed to the channel; then every wait that goes on, with the id still that
of the job, is answered by a job that has its end behind it. -/
theorem done_means_finished_until_broken
    (policy : Policy) (count : Nat) (turns : List Turn) :
    let b := opened policy count
    (∀ (place : Nat) (r : Record), (b.run turns).records[place]? = some r → r.isDone = true →
      r.finishedAt.isSome = true) ∧
      ((∀ before, before <+: turns → (b.run before).DoneMeansFinished) ↔
        ∀ before t, before ++ [t] <+: turns → ¬(b.run before).Breaks t) ∧
      ((∀ before t, before ++ [t] <+: turns → ¬(b.run before).Breaks t) →
        (∀ id limit status, (b.run turns).await id limit = .ok status →
          status.isFinished = true) ∧
        ∀ id place begun woken rest r, begun ++ woken ++ rest <+: turns →
          b.Returns id place begun woken rest r →
          r.isFinished = true ∧ r.finishedAt.isSome = true) := by
  intro b
  refine ⟨fun place r => isSome_finishedAt_run turns, forall_doneMeansFinished_iff turns, ?_⟩
  intro hsafe
  have hfinished := (forall_doneMeansFinished_iff turns).mpr hsafe
  constructor
  · intro id limit status hawait
    obtain ⟨place, r, hr, hdone, rfl⟩ := exists_done_of_await hawait
    exact hfinished turns List.prefix_rfl place r hr hdone
  · intro id place begun woken rest r hbefore hreturns
    have hdone := hreturns.isDone (occupied_opened policy count)
    exact ⟨hfinished _ hbefore place r hreturns.record hdone,
      isSome_finishedAt_run _ hreturns.record hdone⟩

/-! ## A shutdown -/

/-- It can be decided whether the jobs of done records have their end behind them. -/
instance (b : Board) : Decidable b.DoneMeansFinished :=
  decidable_of_iff (∀ r ∈ b.records.toList, r.isDone = true → r.isFinished = true) <| by
    constructor
    · intro h place r hr
      exact h r (Array.mem_toList_iff.mpr (Array.mem_of_getElem? hr))
    · intro h r hmem
      obtain ⟨place, hr⟩ := Array.getElem?_of_mem (Array.mem_toList_iff.mp hmem)
      exact h place r hr

/-- A job is accepted and taken, another one waits and is cancelled, the first one succeeds, and
the workers go. -/
def endsInTime : List Turn :=
  [submitCube "part", .take 0, submitCube "other", .cancel "other",
    .conclude 0 (.result ⟨#[1]⟩ (some 0) .nan), .dismiss].map .move

theorem done_means_finished_of_endsInTime :
    let b := opened briefPolicy 1
    (∀ before t, before ++ [t] <+: endsInTime → ¬(b.run before).Breaks t) ∧
      (b.run endsInTime).await "part" (.int 5) = .ok .succeeded ∧
      (b.run endsInTime).await "other" (.int 5) = .ok .cancelled ∧
      ∃ r, b.Returns "part" 0 (endsInTime.take 2) ((endsInTime.drop 2).take 3)
        (endsInTime.drop 5) r ∧ r.isFinished = true ∧ r.finishedAt.isSome = true := by
  intro b
  obtain ⟨-, hiff, hwait⟩ := done_means_finished_until_broken briefPolicy 1 endsInTime
  have hall : ∀ before ∈ endsInTime.inits, (b.run before).DoneMeansFinished := by
    decide +kernel
  have hsafe := hiff.mp fun before hbefore => hall before ((List.mem_inits _ _).mpr hbefore)
  have hpart : ((b.run endsInTime).records[0]?.map (·.isDone)) = some true := by
    decide +kernel
  obtain ⟨r, hr, -⟩ := Option.map_eq_some_iff.mp hpart
  have hwoken : ((b.run (endsInTime.take 2 ++ (endsInTime.drop 2).take 3)).records[0]?.map
      (·.isDone)) = some true := by
    decide +kernel
  have hreturns : b.Returns "part" 0 (endsInTime.take 2) ((endsInTime.drop 2).take 3)
      (endsInTime.drop 5) r :=
    ⟨by decide +kernel, Option.map_eq_some_iff.mp hwoken, by decide +kernel, hr⟩
  exact ⟨hsafe, Failure.eq_ok_of_toOption (by decide +kernel),
    Failure.eq_ok_of_toOption (by decide +kernel), r, hreturns,
    (hwait hsafe).2 _ _ _ _ _ _ List.prefix_rfl hreturns⟩

/-- The workers go while one of them is at work: whoever waits for the job is answered that it is
running. -/
theorem not_forall_done_means_finished :
    ¬∀ (policy : Policy) (count : Nat) (turns : List Turn),
      ((opened policy count).run turns).DoneMeansFinished ∧
        ∀ id limit status, ((opened policy count).run turns).await id limit = .ok status →
          status.isFinished = true := by
  intro hall
  obtain ⟨-, hwait⟩ := hall briefPolicy 1 ([submitCube "x", .take 0, .dismiss].map .move)
  have hrunning := hwait "x" (.int 5) .running (Failure.eq_ok_of_toOption (by decide +kernel))
  contradiction

end Board

end SolidWorkshop.Job
