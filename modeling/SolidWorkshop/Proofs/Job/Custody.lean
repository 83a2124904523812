import Mathlib.Data.List.Nodup
import Mathlib.Data.List.Perm.Subperm
import SolidWorkshop.Proofs.Job.Resubmission
import SolidWorkshop.Proofs.Job.Run
import SolidWorkshop.Service.Assembly

/-!
# The custody of accepted jobs

A job that waits is known by its id and has it in the queue, and a running job has a worker at
work on it.  This holds along every run, whatever ids are used again: an id that stands in the
queue twice is taken twice for the same job, so that two workers may be at work on one record, but
no record is without the worker that it runs by.
-/

namespace SolidWorkshop.Job

/-- Nobody comes in or goes. -/
def Turn.KeepsStaff : Turn → Prop
  | .move (.enter _) => False
  | .move .dismiss => False
  | _ => True

/-- It can be decided whether anybody comes in or goes. -/
instance : DecidablePred Turn.KeepsStaff
  | .move (.enter _) | .move .dismiss => isFalse id
  | .move (.submit ..) | .move (.cancel _) | .move .prune | .move (.advance _) |
    .move (.take _) | .move (.log ..) | .move (.conclude ..) | .move (.desert _) | .spoil .. =>
    isTrue trivial

namespace Board

/-- The places of the records that workers work on. -/
def atWork (b : Board) : List Nat :=
  b.workers.filterMap Worker.place?

/-- The places of the running records. -/
def running (b : Board) : List Nat :=
  (List.range b.records.size).filter fun place =>
    (b.records[place]?).any fun r => r.status = .running

/-- Every job that waits is known by its id and has it in the queue. -/
def KeepsWaiting (b : Board) : Prop :=
  ∀ place r, b.records[place]? = some r → r.status = .queued →
    b.jobs.lookup r.id = some place ∧ r.id ∈ b.queue

/-- A turn drops no job unless it is the one that prunes, and that one drops no job that waits or
runs.  A submission that is refused leaves everything as it is but for the count of ids that were
made up. -/
structure Spares (b : Board) (t : Turn) : Prop where
  others : t ≠ .move .prune → ∀ job ∈ b.jobs, job ∈ (b.turn t).jobs
  prune : t = .move .prune → ∀ id place r, (id, place) ∈ b.jobs → b.records[place]? = some r →
    r.isFinished = false → (id, place) ∈ (b.turn t).jobs
  refused : ∀ request id failure, t = .move (.submit request id) →
    (b.submit request id).2 = .error failure → ∃ generated, b.turn t = { b with generated }

/-! ## What pruning drops -/

/-- Ids are those of their records, and every id is known once. -/
structure Named (b : Board) : Prop where
  ids : (b.jobs.map (·.1)).Nodup
  record : ∀ id place, (id, place) ∈ b.jobs → ∃ r, b.records[place]? = some r ∧ r.id = id

section Prune

variable {b : Board} {id : String} {place : Nat} {r : Record}

theorem Named.place_eq
    (hb : b.Named) {q : Nat} (hjob : (id, place) ∈ b.jobs) (hjob' : (id, q) ∈ b.jobs) :
    place = q :=
  (Prod.mk.inj (List.inj_on_of_nodup_map hb.ids hjob hjob' rfl)).2

theorem Named.lookup_eq
    (hb : b.Named) (hjob : (id, place) ∈ b.jobs) :
    b.jobs.lookup id = some place := by
  cases hlookup : b.jobs.lookup id with
  | none => exact absurd hjob (not_mem_of_lookup hlookup place)
  | some q => rw [hb.place_eq hjob (mem_of_lookup hlookup)]

theorem Named.id_eq
    (hb : b.Named) (hjob : (id, place) ∈ b.jobs) (hr : b.records[place]? = some r) :
    r.id = id := by
  obtain ⟨r', hr', hid⟩ := hb.record id place hjob
  obtain rfl : r' = r := Option.some.inj (hr'.symm.trans hr)
  exact hid

theorem Named.eq_of_place
    (hb : b.Named) {other : String} (hjob : (id, place) ∈ b.jobs)
    (hother : (other, place) ∈ b.jobs) :
    other = id := by
  obtain ⟨r, hr, hid⟩ := hb.record id place hjob
  exact (hb.id_eq hother hr).symm.trans hid

theorem mem_known_iff :
    r ∈ b.known ↔ ∃ id place, (id, place) ∈ b.jobs ∧ b.records[place]? = some r := by
  simp [known, List.mem_filterMap]

theorem jobs_foldl_drop (ids : List String) (b : Board) :
    (ids.foldl drop b).jobs = b.jobs.filter fun job => job.1 ∉ ids := by
  induction ids generalizing b with
  | nil => simp
  | cons first ids ih =>
    have hdrop : (b.drop first).jobs = b.jobs.filter fun job => job.1 != first := by
      rw [drop]
      split
      · rfl
      · rfl
    rw [List.foldl_cons, ih, hdrop, List.filter_filter]
    apply List.filter_congr
    intro job _
    simp [bne, ← beq_eq_decide, Bool.and_comm]

/-- The ids of the jobs that have been kept for their time. -/
def expired (b : Board) : List String :=
  (b.known.filter b.isExpired).map (·.id)

/-- The ids of the finished jobs that are too many. -/
def surplus (b : Board) : List String :=
  let finished := b.known.filter (·.isFinished)
  let oldest := finished.mergeSort fun r s => (endOf r).micros ≤ (endOf s).micros
  (oldest.take (finished.length - b.policy.maxRecords).toNat).map (·.id)

theorem prune_eq_foldl (b : Board) :
    b.prune = (b.expired ++ (b.expired.foldl drop b).surplus).foldl drop b := by
  rw [List.foldl_append]
  rfl

theorem exists_of_mem_expired
    (hid : id ∈ b.expired) :
    ∃ r ∈ b.known, r.isFinished = true ∧ r.id = id := by
  obtain ⟨r, hr, rfl⟩ := List.mem_map.mp hid
  obtain ⟨hr, hexpired⟩ := List.mem_filter.mp hr
  rw [isExpired, Bool.and_eq_true] at hexpired
  exact ⟨r, hr, hexpired.1, rfl⟩

theorem exists_of_mem_surplus
    (hid : id ∈ b.surplus) :
    ∃ r ∈ b.known, r.isFinished = true ∧ r.id = id := by
  obtain ⟨r, hr, rfl⟩ := List.mem_map.mp hid
  obtain ⟨hr, hfinished⟩ := List.mem_filter.mp (List.mem_mergeSort.mp (List.mem_of_mem_take hr))
  exact ⟨r, hr, hfinished, rfl⟩

theorem Drops.known
    {c : Board} (h : b.Drops c) (hr : r ∈ c.known) :
    r ∈ b.known := by
  obtain ⟨id, place, hjob, hplace⟩ := mem_known_iff.mp hr
  rw [h.frame] at hplace
  exact mem_known_iff.mpr ⟨id, place, h.jobs _ hjob, hplace⟩

/-- To prune is to drop some jobs, all of them finished. -/
theorem Named.exists_prune_eq
    (hb : b.Named) :
    ∃ ids : List String, b.prune = ids.foldl drop b ∧
      ∀ id ∈ ids, ∀ (place : Nat) (r : Record), (id, place) ∈ b.jobs →
        b.records[place]? = some r → r.isFinished = true := by
  refine ⟨_, prune_eq_foldl b, ?_⟩
  intro id hid place t hjob ht
  have hknown : ∃ r ∈ b.known, r.isFinished = true ∧ r.id = id := by
    rcases List.mem_append.mp hid with hid | hid
    · exact exists_of_mem_expired hid
    · obtain ⟨r, hr, hfinished, rfl⟩ := exists_of_mem_surplus hid
      exact ⟨r, (drops_foldl b.expired b).known hr, hfinished, rfl⟩
  obtain ⟨r, hr, hfinished, rfl⟩ := hknown
  obtain ⟨id', q, hjob', hr'⟩ := mem_known_iff.mp hr
  rw [hb.id_eq hjob' hr'] at hjob
  obtain rfl := hb.place_eq hjob hjob'
  obtain rfl : r = t := Option.some.inj (hr'.symm.trans ht)
  exact hfinished

theorem Named.foldl_drop
    (hb : b.Named) (ids : List String) :
    (ids.foldl drop b).Named := by
  obtain ⟨hjobs, hframe⟩ := drops_foldl ids b
  have hrecords : (ids.foldl drop b).records = b.records := by
    rw [hframe]
  constructor
  · rw [jobs_foldl_drop]
    exact hb.ids.sublist (List.filter_sublist.map _)
  · intro id place hjob
    rw [hrecords]
    exact hb.record id place (hjobs _ hjob)

theorem Named.prune
    (hb : b.Named) :
    b.prune.Named := by
  rw [prune_eq_foldl]
  exact hb.foldl_drop _

theorem Named.mem_jobs_prune
    (hb : b.Named) (hjob : (id, place) ∈ b.jobs) (hr : b.records[place]? = some r)
    (hopen : r.isFinished = false) :
    (id, place) ∈ b.prune.jobs := by
  obtain ⟨ids, hprune, hfinished⟩ := hb.exists_prune_eq
  rw [hprune, jobs_foldl_drop, List.mem_filter]
  refine ⟨hjob, ?_⟩
  have hnot : id ∉ ids := by
    intro hid
    rw [hfinished id hid place r hjob hr] at hopen
    contradiction
  simpa using hnot

end Prune

/-! ## The invariant -/

/-- Jobs that wait are known and in the queue, which is no longer than it may be. -/
structure Custody (b : Board) : Prop extends b.Named where
  waiting : ∀ place r, b.records[place]? = some r → r.status = .queued →
    (r.id, place) ∈ b.jobs ∧ r.id ∈ b.queue
  room : 0 < b.policy.maxQueue → b.queue.length ≤ b.policy.maxQueue

section Custody

variable {b c : Board} {place : Nat} {r s : Record} {t : Turn}

/-- Where no job comes or goes, it is enough that a job that waits has its id left in the queue. -/
theorem Custody.of_step
    (hb : b.Custody) (hocc : b.Occupied) (h : b.Step t c) (hjobs : c.jobs = b.jobs)
    (hpolicy : c.policy = b.policy) (hlength : c.queue.length ≤ b.queue.length)
    (hstays : ∀ (q : Nat) (u : Record), c.records[q]? = some u → u.status = .queued →
      b.jobs.lookup u.id = some q → u.id ∈ b.queue → u.id ∈ c.queue) :
    c.Custody := by
  refine ⟨⟨hjobs ▸ hb.ids, ?_⟩, ?_, ?_⟩
  · intro id q hjob
    rw [hjobs] at hjob
    obtain ⟨u, hu, hid⟩ := hb.record id q hjob
    obtain ⟨v, hv, hfares⟩ := h.exists_fares hu
    exact ⟨v, hv, hfares.id_eq.trans hid⟩
  · intro q u hu hqueued
    rcases h.queued_cases hocc hu hqueued with hold | hnew
    · obtain ⟨hjob, hmem⟩ := hb.waiting q u hold hqueued
      rw [hjobs]
      exact ⟨hjob, hstays q u hu hqueued (hb.lookup_eq hjob) hmem⟩
    · rw [hjobs] at hnew
      exact absurd hnew.symm (by simp)
  · intro hlimit
    rw [hpolicy] at hlimit ⊢
    have hroom := hb.room hlimit
    omega

/-- An id is taken out of the queue whose job does not wait, or no longer does. -/
theorem Custody.of_take
    (hb : b.Custody) (hocc : b.Occupied) (h : b.Step t c) (hjobs : c.jobs = b.jobs)
    (hpolicy : c.policy = b.policy) {id : String} (hqueue : b.queue = id :: c.queue)
    (hself : ∀ (q : Nat) (u : Record), b.jobs.lookup id = some q → c.records[q]? = some u →
      u.status ≠ .queued) :
    c.Custody := by
  refine hb.of_step hocc h hjobs hpolicy ?_ ?_
  · rw [hqueue]
    exact Nat.le_succ _
  · intro q u hu hqueued hjob hmem
    rw [hqueue] at hmem
    rcases List.mem_cons.mp hmem with rfl | hmem
    · exact absurd hqueued (hself q u hjob hu)
    · exact hmem

theorem Custody.accept
    (hb : b.Custody) (hroom : b.isFull = false) {newId : String}
    (hnew : b.jobs.lookup newId = none) (hid : s.id = newId) (generated : Nat) :
    Custody { b with
      generated
      records := b.records.push s
      jobs := b.jobs ++ [(newId, b.records.size)]
      queue := b.queue ++ [newId] } := by
  refine ⟨⟨?_, ?_⟩, ?_, ?_⟩
  · rw [List.map_append, List.nodup_append]
    refine ⟨hb.ids, List.pairwise_singleton _ _, ?_⟩
    rintro id hmem id' hsingle rfl
    obtain ⟨⟨id'', q⟩, hjob, rfl⟩ := List.mem_map.mp hmem
    obtain rfl : id'' = newId := List.mem_singleton.mp hsingle
    exact not_mem_of_lookup hnew q hjob
  · intro id q hjob
    dsimp only
    rw [Array.getElem?_push]
    rcases List.mem_append.mp hjob with hjob | hjob
    · obtain ⟨u, hu, huid⟩ := hb.record id q hjob
      rw [if_neg (ne_size_of_getElem? hu)]
      exact ⟨u, hu, huid⟩
    · obtain ⟨rfl, rfl⟩ := Prod.mk.inj (List.mem_singleton.mp hjob)
      exact ⟨s, if_pos rfl, hid⟩
  · intro q u hu hqueued
    dsimp only at hu ⊢
    rw [Array.getElem?_push] at hu
    split_ifs at hu with hq
    · obtain rfl := Option.some.inj hu
      rw [hq, hid]
      exact ⟨by simp, by simp⟩
    · obtain ⟨hjob, hmem⟩ := hb.waiting q u hu hqueued
      exact ⟨List.mem_append_left _ hjob, List.mem_append_left _ hmem⟩
  · intro hlimit
    have hless : ¬b.policy.maxQueue ≤ b.queue.length := by
      intro hle
      rw [isFull, decide_eq_true hlimit, decide_eq_true hle] at hroom
      contradiction
    dsimp only
    rw [List.length_append, List.length_singleton]
    omega

theorem Custody.prune
    (hb : b.Custody) :
    b.prune.Custody := by
  have hnamed := hb.toNamed.prune
  have hkept : ∀ (id : String) (place : Nat) (r : Record), (id, place) ∈ b.jobs →
      b.records[place]? = some r → r.isFinished = false → (id, place) ∈ b.prune.jobs :=
    fun _ _ _ => hb.toNamed.mem_jobs_prune
  obtain ⟨-, hframe⟩ := drops_prune b
  generalize b.prune = c at hnamed hkept hframe ⊢
  refine ⟨hnamed, ?_, ?_⟩
  · intro q u hu hqueued
    rw [hframe] at hu ⊢
    obtain ⟨hjob, hmem⟩ := hb.waiting q u hu hqueued
    exact ⟨hkept u.id q u hjob hu (isFinished_of_status hqueued), hmem⟩
  · rw [hframe]
    exact hb.room

/-- Every step keeps accepted jobs in custody.  An id that is taken may stand in the queue once more,
but its job waits no longer. -/
theorem Custody.step
    (hb : b.Custody) (hocc : b.Occupied) (h : b.Step t c) :
    c.Custody := by
  have hstep := h
  cases h with
  | accept generated h hroom hnew => exact hb.accept hroom hnew rfl generated
  | prune => exact hb.prune
  | pass hidle hqueue hcancelled =>
    refine hb.of_take hocc hstep rfl rfl hqueue fun q u hjob hu => ?_
    rw [hcancelled q u hjob hu]
    decide
  | refuse hidle hqueue hplace hr hlive hprepared hs =>
    refine hb.of_take hocc hstep rfl rfl hqueue fun q u hjob hu => ?_
    obtain rfl := Option.some.inj (hplace.symm.trans hjob)
    obtain rfl := Option.some.inj (hs.getElem?_self.symm.trans hu)
    exact nofun
  | start hidle hqueue hplace hr hlive hprepared hs =>
    refine hb.of_take hocc hstep rfl rfl hqueue fun q u hjob hu => ?_
    obtain rfl := Option.some.inj (hplace.symm.trans hjob)
    obtain rfl := Option.some.inj (hs.getElem?_self.symm.trans hu)
    exact nofun
  | _ => exact hb.of_step hocc hstep rfl rfl (Nat.le_refl _) fun _ _ _ _ _ hmem => hmem

theorem custody_opened (policy : Policy) (count : Nat) : (opened policy count).Custody where
  ids := List.nodup_nil
  record _ _ h := by contradiction
  waiting _ _ h := by contradiction
  room := Int.le_of_lt

theorem custody_run (policy : Policy) (count : Nat) (turns : List Turn) :
    ((opened policy count).run turns).Custody :=
  run_induction (motive := fun _ b => b.Custody) (custody_opened policy count)
    (fun _ _ _ _ _ hocc hstep hb => hb.step hocc hstep) turns

/-- The rules of a board stay. -/
theorem Step.policy_eq
    (h : b.Step t c) :
    c.policy = b.policy := by
  cases h with
  | prune =>
    obtain ⟨-, hframe⟩ := drops_prune b
    rw [hframe]
  | _ => rfl

theorem policy_run (policy : Policy) (count : Nat) (turns : List Turn) :
    ((opened policy count).run turns).policy = policy :=
  run_induction (motive := fun _ b => b.policy = policy) rfl
    (fun _ _ _ _ _ _ hstep hb => hstep.policy_eq.trans hb) turns

end Custody

/-! ## Workers and running jobs -/

/-- Every running job has a worker at work on it. -/
def Attended (b : Board) : Prop :=
  ∀ (place : Nat) (r : Record), b.records[place]? = some r → r.status = .running →
    ∃ worker, b.IsBusy worker place

section Staff

variable {b c : Board} {place : Nat} {r s : Record} {t : Turn}

theorem isBusy_assign_of_ne
    {worker other q : Nat} {work : Worker} (hne : other ≠ worker) (hbusy : b.IsBusy other q) :
    (b.assign worker work).IsBusy other q := by
  obtain ⟨overrides, hbusy⟩ := hbusy
  exact ⟨overrides, by rw [assign, List.getElem?_set_ne hne.symm, hbusy]⟩

theorem Attended.of_replaces
    (hb : b.Attended) (hs : Replaces b.records c.records place s)
    (hother : ∀ worker q, q ≠ place → b.IsBusy worker q → ∃ worker, c.IsBusy worker q)
    (hself : s.status = .running → ∃ worker, c.IsBusy worker place) :
    c.Attended := by
  intro q u hu hrunning
  rw [hs] at hu
  split_ifs at hu with hq
  · obtain rfl := hq
    obtain rfl := Option.some.inj hu
    exact hself hrunning
  · obtain ⟨worker, hbusy⟩ := hb q u hu hrunning
    exact hother worker q (fun heq => hq heq.symm) hbusy

/-- A worker leaves its job only when that has its end behind it. -/
theorem Attended.step
    (hb : b.Attended) (hstays : t ≠ .move .dismiss) (h : b.Step t c) :
    c.Attended := by
  cases h with
  | decline | keep | advance | rest | pass | ignore => exact hb
  | dismiss => exact absurd rfl hstays
  | accept =>
    intro q u hu hrunning
    dsimp only at hu
    rw [Array.getElem?_push] at hu
    split_ifs at hu with hq
    · obtain rfl := Option.some.inj hu
      contradiction
    · exact hb q u hu hrunning
  | cancel hplace hr hqueued hs =>
    exact hb.of_replaces hs (fun worker q _ hbusy => ⟨worker, hbusy⟩) nofun
  | prune =>
    obtain ⟨-, hframe⟩ := drops_prune b
    rw [hframe]
    exact hb
  | enter count =>
    intro q u hu hrunning
    obtain ⟨worker, overrides, hbusy⟩ := hb q u hu hrunning
    have hlt := (List.getElem?_eq_some_iff.mp hbusy).1
    exact ⟨worker, overrides, by rw [List.getElem?_append_left hlt, hbusy]⟩
  | refuse hidle hqueue hplace hr hlive hprepared hs =>
    exact hb.of_replaces hs (fun worker q _ hbusy => ⟨worker, hbusy⟩) nofun
  | @start worker _ _ place r _ overrides records hidle _ _ hr _ _ hs =>
    refine hb.of_replaces hs ?_ fun _ => ?_
    · intro other q _ hbusy
      have hne : other ≠ worker := by
        rintro rfl
        obtain ⟨taken, hbusy⟩ := hbusy
        cases hidle.symm.trans hbusy
      exact ⟨other, isBusy_assign_of_ne hne hbusy⟩
    · have hlt := (List.getElem?_eq_some_iff.mp hidle).1
      exact ⟨worker, overrides, List.getElem?_set_self hlt⟩
  | note hbusy hr hs =>
    exact hb.of_replaces hs (fun worker q _ hbusy => ⟨worker, hbusy⟩) fun _ => ⟨_, hbusy⟩
  | @conclude _ worker place _ r s _ _ hbusy hr hend hs =>
    refine hb.of_replaces hs ?_ ?_
    · intro other q hq hother
      have hne : other ≠ worker := by
        rintro rfl
        obtain ⟨taken, hother⟩ := hother
        obtain ⟨rfl, -⟩ := Worker.busy.inj (Option.some.inj (hbusy.symm.trans hother))
        exact hq rfl
      exact ⟨other, isBusy_assign_of_ne hne hother⟩
    · intro hrunning
      rcases hend.status_cases with hfailed | hsucceeded | ⟨hsame, hnot⟩
      · rw [hfailed] at hrunning
        contradiction
      · rw [hsucceeded] at hrunning
        contradiction
      · exact absurd (hsame.symm.trans hrunning) hnot

theorem length_workers_step
    (hstaff : t.KeepsStaff) (h : b.Step t c) :
    c.workers.length = b.workers.length := by
  cases h with
  | prune =>
    obtain ⟨-, hframe⟩ := drops_prune b
    rw [hframe]
  | enter => exact absurd hstaff id
  | dismiss => exact absurd hstaff id
  | start => exact List.length_set
  | conclude => exact List.length_set
  | _ => rfl

/-- While nobody comes in or goes, there are as many workers as at the start, and every running job
has one. -/
theorem attended_run
    (policy : Policy) (count : Nat) (turns : List Turn) (hstaff : ∀ t ∈ turns, t.KeepsStaff) :
    ((opened policy count).run turns).Attended ∧
      ((opened policy count).run turns).workers.length = count := by
  revert hstaff
  refine run_induction (motive := fun turns b => (∀ t ∈ turns, t.KeepsStaff) →
    b.Attended ∧ b.workers.length = count) ?_ ?_ turns
  · intro _
    refine ⟨?_, List.length_replicate⟩
    intro q u hu
    contradiction
  · intro turns t b c _ _ hstep hb hstaff
    obtain ⟨hattended, hlength⟩ := hb fun u hu => hstaff u (List.mem_append_left _ hu)
    have ht := hstaff t (by simp)
    have hstays : t ≠ .move .dismiss := by
      rintro rfl
      exact ht
    exact ⟨hattended.step hstays hstep, (length_workers_step ht hstep).trans hlength⟩

theorem mem_atWork_of_isBusy
    {worker : Nat} (hbusy : b.IsBusy worker place) :
    place ∈ b.atWork := by
  obtain ⟨overrides, hbusy⟩ := hbusy
  exact List.mem_filterMap.mpr ⟨_, List.mem_of_getElem? hbusy, rfl⟩

/-- Running jobs are at most as many as workers at work. -/
theorem Attended.length_running_le
    (hb : b.Attended) :
    b.running.length ≤ b.atWork.length := by
  have hnodup : b.running.Nodup := List.nodup_range.filter _
  apply (List.subperm_of_subset hnodup ?_).length_le
  intro place hplace
  obtain ⟨-, hrunning⟩ := List.mem_filter.mp hplace
  obtain ⟨r, hr, hstatus⟩ := (Option.any_eq_true _ _).mp hrunning
  obtain ⟨worker, hbusy⟩ := hb place r hr (of_decide_eq_true hstatus)
  exact mem_atWork_of_isBusy hbusy

end Staff

/-! ## What every turn leaves alone -/

/-- Only pruning drops jobs. -/
theorem Step.mem_jobs_cases
    {b c : Board} {t : Turn} (h : b.Step t c) {job : String × Nat} (hjob : job ∈ b.jobs) :
    job ∈ c.jobs ∨ t = .move .prune ∧ c = b.prune := by
  cases h with
  | accept => exact Or.inl (List.mem_append_left _ hjob)
  | prune => exact Or.inr ⟨rfl, rfl⟩
  | _ => exact Or.inl hjob

/-- A job that waits or runs stays known. -/
theorem Custody.mem_jobs_step
    {b c : Board} {t : Turn} (hb : b.Custody) (h : b.Step t c) {id : String} {place : Nat}
    {r : Record} (hjob : (id, place) ∈ b.jobs) (hr : b.records[place]? = some r)
    (hopen : r.isFinished = false) :
    (id, place) ∈ c.jobs := by
  rcases h.mem_jobs_cases hjob with hkept | ⟨-, rfl⟩
  · exact hkept
  · exact hb.mem_jobs_prune hjob hr hopen

theorem Custody.spares
    {b : Board} (hb : b.Custody) (hocc : b.Occupied) (t : Turn) :
    b.Spares t where
  others ht job hjob :=
    ((hocc.step_turn t).mem_jobs_cases hjob).resolve_right fun hprune => ht hprune.1
  prune _ id place r hjob hr hopen := hb.mem_jobs_step (hocc.step_turn t) hjob hr hopen
  refused request id failure ht hfailure := by
    rw [ht]
    rcases submit_cases b request id with ⟨generated, failure', h⟩ | ⟨generated, newId, -, h⟩
    · exact ⟨generated, congrArg Prod.fst h⟩
    · rw [h] at hfailure
      contradiction

/-- However ids are used again, no accepted job is lost, no more jobs run than there are workers,
and the queue stays within its limit. -/
theorem accepted_jobs_are_kept
    (policy : Policy) (count : Nat) {turns : List Turn} (hstaff : ∀ t ∈ turns, t.KeepsStaff) :
    let b := (opened policy count).run turns
    b.KeepsWaiting ∧
      (b.running.length ≤ b.atWork.length ∧ b.atWork.length ≤ count) ∧
      (0 < policy.maxQueue → b.queue.length ≤ policy.maxQueue) ∧
      ∀ t, b.Spares t := by
  intro b
  have hb : b.Custody := custody_run policy count turns
  obtain ⟨hattended, hcount⟩ := attended_run policy count turns hstaff
  refine ⟨?_, ⟨hattended.length_running_le, ?_⟩, ?_, hb.spares (occupied_run turns)⟩
  · intro place r hr hqueued
    obtain ⟨hjob, hmem⟩ := hb.waiting place r hr hqueued
    exact ⟨hb.lookup_eq hjob, hmem⟩
  · exact le_of_le_of_eq (List.length_filterMap_le _ _) hcount
  · have hroom := hb.room
    rw [policy_run policy count turns] at hroom
    exact hroom

/-- A minute after its cancellation a job is accepted again, while its id is still in the queue and
the queue has room for two. -/
theorem accepted_jobs_are_kept_of_resubmitted :
    let turns := (dropsCancelled ++ [submitCube "part"]).map Turn.move
    let b := (opened { briefPolicy with maxQueue := 2 } 1).run turns
    (∀ t ∈ turns, t.KeepsStaff) ∧ b.queue = ["part", "part"] ∧ b.running = [0] ∧
      b.KeepsWaiting ∧ b.running.length ≤ 1 ∧ b.queue.length ≤ (2 : Int) ∧ ∀ t, b.Spares t := by
  intro turns b
  have hstaff : ∀ t ∈ turns, t.KeepsStaff := by decide
  obtain ⟨hwaiting, ⟨hrunning, hwork⟩, hroom, hspares⟩ :=
    accepted_jobs_are_kept { briefPolicy with maxQueue := 2 } 1 hstaff
  exact ⟨hstaff, by decide +kernel, by decide +kernel, hwaiting,
    Nat.le_trans hrunning hwork, hroom (by decide), hspares⟩

/-- The service opens its board with the workers that its settings ask for. -/
theorem board_floor
    {σ π : Type} (s : Service.Settings) (shared : σ) :
    (s.floor shared : Floor σ π).board = opened s.policy s.maxConcurrentJobs.toNat :=
  rfl

end Board

end SolidWorkshop.Job
