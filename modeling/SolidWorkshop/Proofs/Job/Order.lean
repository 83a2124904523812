import SolidWorkshop.Proofs.Job.Custody

/-!
# The order of jobs

As long as no id is accepted twice, jobs are started in the order of their acceptance.  The ids in
the queue are those of the accepted jobs that have not been started, in this order, and among them
stand the ids of cancelled jobs until they are passed over.
-/

namespace SolidWorkshop.Job

namespace Board

variable {b c : Board} {t : Turn}

/-! ## Ids that are accepted once -/

theorem Step.mem_queue_cases
    (h : b.Step t c) {id : String} (hmem : id ∈ c.queue) :
    id ∈ b.queue ∨ b.event? t = some (.accepted id) := by
  have hrest : ∀ {first : String} {rest : List String}, b.queue = first :: rest → id ∈ rest →
      id ∈ b.queue := by
    intro first rest hqueue hmem
    rw [hqueue]
    exact List.mem_cons_of_mem _ hmem
  cases h with
  | accept generated haccepted =>
    rcases List.mem_append.mp hmem with hmem | hmem
    · exact Or.inl hmem
    · obtain rfl := List.mem_singleton.mp hmem
      exact Or.inr (event?_of_ok haccepted)
  | prune =>
    obtain ⟨-, hframe⟩ := drops_prune b
    rw [hframe] at hmem
    exact Or.inl hmem
  | pass _ hqueue => exact Or.inl (hrest hqueue hmem)
  | refuse _ hqueue => exact Or.inl (hrest hqueue hmem)
  | start _ hqueue => exact Or.inl (hrest hqueue hmem)
  | _ => exact Or.inl hmem

theorem Sound.spoil
    (hb : b.Sound) (worker : Nat) (left : Option ByteArray) (reason : String) :
    (b.spoil worker left reason).Sound := by
  unfold Board.spoil
  split
  · next place overrides hbusy =>
    obtain ⟨r, hr, -⟩ := hb.working worker place ⟨overrides, hbusy⟩
    obtain ⟨hrecords, -⟩ := rewrites_update hr fun r => r.fail reason Reply.defaultStatus
    have hfail : b.Rewrites ({ b with artifacts := b.leftovers place left }.update place fun r =>
        r.fail reason Reply.defaultStatus) place (r.fail reason Reply.defaultStatus) :=
      ⟨hrecords, rfl, rfl, rfl, rfl⟩
    obtain ⟨d, s, hs, hfinish, -⟩ := finish_cases (hfail.workers ▸ hbusy) hfail.getElem?_self
    rw [hfinish]
    exact hb.of_rewrites_done ⟨overrides, hbusy⟩ (hfail.trans hs)
  · exact hb

theorem Sound.turn
    (hb : b.Sound) (t : Turn)
    (hfresh : ∀ id, b.event? t = some (.accepted id) → id ∉ b.queue) :
    (b.turn t).Sound := by
  cases t with
  | move m =>
    apply (hb.perform m).2
    cases m with
    | submit request asked => exact fun id haccepted => hfresh id (event?_of_ok haccepted)
    | _ => trivial
  | spoil worker _ _ _ left reason => exact hb.spoil worker left reason

/-- Where no id is accepted twice, none is accepted while it is in the queue. -/
theorem sound_run
    {policy : Policy} {count : Nat} {turns : List Turn}
    (honce : ((opened policy count).told Event.accepted? turns).Nodup) :
    ((opened policy count).run turns).Sound ∧
      ∀ id ∈ ((opened policy count).run turns).queue,
        id ∈ (opened policy count).told Event.accepted? turns := by
  induction turns using List.reverseRecOn with
  | nil => exact ⟨sound_opened policy count, fun _ hmem => by contradiction⟩
  | append_singleton turns t ih =>
    rw [told_concat] at honce
    obtain ⟨hfirst, -, hapart⟩ := List.nodup_append.mp honce
    obtain ⟨hb, hqueue⟩ := ih hfirst
    have hocc : ((opened policy count).run turns).Occupied := occupied_run turns
    rw [run_concat, told_concat]
    refine ⟨hb.turn t ?_, ?_⟩
    · intro id hevent hmem
      refine hapart id (hqueue id hmem) id ?_ rfl
      rw [hevent]
      exact List.mem_singleton_self id
    · intro id hmem
      rcases (hocc.step_turn t).mem_queue_cases hmem with hold | hevent
      · exact List.mem_append_left _ (hqueue id hold)
      · rw [hevent]
        exact List.mem_append_right _ (List.mem_singleton_self id)

/-- What holds of a board without jobs and is kept by every step that accepts no id for a second
time holds along every run in which none is. -/
theorem once_induction
    {policy : Policy} {count : Nat} {motive : List Turn → Board → Prop}
    (start : motive [] (opened policy count))
    (step : ∀ turns t b c, b = (opened policy count).run turns → b.Sound → b.Custody →
      b.Occupied → b.Step t c →
      ((opened policy count).told Event.accepted? turns ++
        ((b.event? t).bind Event.accepted?).toList).Nodup →
      motive turns b → motive (turns ++ [t]) c)
    {turns : List Turn} (honce : ((opened policy count).told Event.accepted? turns).Nodup) :
    motive turns ((opened policy count).run turns) := by
  induction turns using List.reverseRecOn with
  | nil => exact start
  | append_singleton turns t ih =>
    rw [told_concat] at honce
    have hfirst := (List.nodup_append.mp honce).1
    have hocc : ((opened policy count).run turns).Occupied := occupied_run turns
    rw [run_concat]
    exact step turns t _ _ rfl (sound_run hfirst).1 (custody_run policy count turns) hocc
      (hocc.step_turn t) honce (ih hfirst)

/-! ## What is told and what becomes of the queue -/

/-- What becomes of the queue, by what is told. -/
inductive Queues (b c : Board) : Option Event → Prop
  | accept {id : String} {r : Record} (hqueue : c.queue = b.queue ++ [id])
    (hjobs : c.jobs = b.jobs ++ [(id, b.records.size)])
    (hr : c.records[b.records.size]? = some r) (hqueued : r.status = .queued) :
    Queues b c (some (.accepted id))
  | cancel {id : String} {place : Nat} {r s : Record} (hjob : (id, place) ∈ b.jobs)
    (hr : b.records[place]? = some r) (hqueued : r.status = .queued)
    (hs : c.records[place]? = some s) (hcancelled : s.status = .cancelled)
    (hqueue : c.queue = b.queue) (hjobs : c.jobs = b.jobs) :
    Queues b c (some (.cancelled id))
  | start {id : String} {place : Nat} {r s : Record} (hjob : (id, place) ∈ b.jobs)
    (hr : b.records[place]? = some r) (hlive : r.status ≠ .cancelled)
    (hs : c.records[place]? = some s) (hstarted : s.status ≠ .queued ∧ s.status ≠ .cancelled)
    (hqueue : b.queue = id :: c.queue) (hjobs : c.jobs = b.jobs) :
    Queues b c (some (.started id))
  | pass {id : String}
    (hcancelled : ∀ place r, b.jobs.lookup id = some place → b.records[place]? = some r →
      r.status = .cancelled)
    (hqueue : b.queue = id :: c.queue) (hjobs : c.jobs = b.jobs) :
    Queues b c none
  | rest {event : Option Event}
    (hquiet : event = none ∨ ∃ place reply, event = some (.heard place reply))
    (hqueue : c.queue = b.queue) (hjobs : ∀ job ∈ c.jobs, job ∈ b.jobs) :
    Queues b c event

theorem Step.queues
    (h : b.Step t c) :
    b.Queues c (b.event? t) := by
  have hsame : ∀ job ∈ b.jobs, job ∈ b.jobs := fun _ hjob => hjob
  cases h with
  | decline _ h => exact .rest (Or.inl (event?_of_error h)) rfl hsame
  | accept generated haccepted =>
    rw [event?_of_ok haccepted]
    exact .accept rfl rfl Array.getElem?_push_size rfl
  | keep hnone => exact .rest (Or.inl (event?_of_not_queued hnone)) rfl hsame
  | cancel hplace hr hqueued hs =>
    rw [event?_of_queued hplace hr hqueued]
    exact .cancel (mem_of_lookup hplace) hr hqueued hs.getElem?_self rfl rfl rfl
  | prune =>
    obtain ⟨hjobs, hframe⟩ := drops_prune b
    refine .rest (Or.inl rfl) ?_ hjobs
    rw [hframe]
  | advance | enter | dismiss => exact .rest (Or.inl rfl) rfl hsame
  | rest hnone => exact .rest (Or.inl (event?_of_nil hnone)) rfl hsame
  | pass hidle hqueue hcancelled =>
    rw [event?_of_cancelled hidle hqueue hcancelled]
    exact .pass hcancelled hqueue rfl
  | refuse hidle hqueue hplace hr hlive _ hs =>
    rw [event?_of_live hidle hqueue hplace hr hlive]
    exact .start (mem_of_lookup hplace) hr hlive hs.getElem?_self ⟨nofun, nofun⟩ hqueue rfl
  | start hidle hqueue hplace hr hlive _ hs =>
    rw [event?_of_live hidle hqueue hplace hr hlive]
    exact .start (mem_of_lookup hplace) hr hlive hs.getElem?_self ⟨nofun, nofun⟩ hqueue rfl
  | ignore ht hfree => exact .rest (Or.inl (event?_of_not_isBusy ht hfree)) rfl hsame
  | note hbusy => exact .rest (Or.inr ⟨_, _, event?_of_isBusy rfl hbusy⟩) rfl hsame
  | conclude hbusy hr hend =>
    refine .rest ?_ rfl hsame
    rcases hend.event?_cases ⟨_, hbusy⟩ with hnone | ⟨reply, hheard⟩
    · exact Or.inl hnone
    · exact Or.inr ⟨_, reply, hheard⟩

/-- A job that is started is that of the first id of the queue. -/
theorem Step.head_of_started
    (h : b.Step t c) {id : String} (hevent : b.event? t = some (.started id)) :
    b.queue = id :: c.queue := by
  have hqueues := h.queues
  rw [hevent] at hqueues
  cases hqueues with
  | start _ _ _ _ _ hqueue => exact hqueue
  | rest hquiet =>
    rcases hquiet with hnone | ⟨place, reply, hheard⟩
    · contradiction
    · cases hheard

theorem Step.mem_queue_of_started
    (h : b.Step t c) {id : String} (hevent : b.event? t = some (.started id)) :
    id ∈ b.queue := by
  rw [h.head_of_started hevent]
  exact List.mem_cons_self

/-! ## The line of accepted jobs -/

/-- The jobs that were accepted and not cancelled are those that were started and, behind them,
those in the queue. -/
structure InLine (b : Board) (accepted cancelled started : List String) : Prop where
  known : ∀ id place, (id, place) ∈ b.jobs → id ∈ accepted
  dropped : ∀ id ∈ cancelled, id ∈ accepted
  struck : ∀ id ∈ cancelled, ∀ place r, (id, place) ∈ b.jobs → b.records[place]? = some r →
    r.status = .cancelled
  waiting : ∀ id ∈ b.queue, id ∉ cancelled →
    ∃ place r, (id, place) ∈ b.jobs ∧ b.records[place]? = some r ∧ r.status = .queued
  order : accepted.filter (· ∉ cancelled) = started ++ b.queue.filter (· ∉ cancelled)

section InLine

variable {accepted cancelled started : List String}

/-- What was cancelled stays so. -/
theorem InLine.struck_step
    (hb : b.InLine accepted cancelled started) (hnamed : b.Named) (hocc : b.Occupied)
    (h : b.Step t c) {id : String} (hid : id ∈ cancelled) {place : Nat} {s : Record}
    (hjob : (id, place) ∈ b.jobs) (hs : c.records[place]? = some s) :
    s.status = .cancelled := by
  obtain ⟨r, hr, -⟩ := hnamed.record id place hjob
  have hcancelled := hb.struck id hid place r hjob hr
  obtain rfl := Option.some.inj (hs.symm.trans (h.getElem?_of_cancelled hocc hr hcancelled))
  exact hcancelled

/-- Who waits goes on waiting unless it is told otherwise. -/
theorem InLine.waiting_step
    (hb : b.InLine accepted cancelled started) (hcustody : b.Custody) (hocc : b.Occupied)
    (h : b.Step t c) {id : String} (hmem : id ∈ b.queue) (hid : id ∉ cancelled)
    (hcancel : b.event? t ≠ some (.cancelled id)) (hstart : b.event? t ≠ some (.started id)) :
    ∃ place r, (id, place) ∈ c.jobs ∧ c.records[place]? = some r ∧ r.status = .queued := by
  obtain ⟨place, r, hjob, hr, hqueued⟩ := hb.waiting id hmem hid
  have hsame : ∀ other, b.jobs.lookup other = some place → other = id := fun _ hother =>
    hcustody.toNamed.eq_of_place hjob (mem_of_lookup hother)
  refine ⟨place, r, hcustody.mem_jobs_step h hjob hr (isFinished_of_status hqueued), ?_, hqueued⟩
  apply h.getElem?_of_queued hocc hr hqueued
  · intro other hother
    rw [hsame other hother]
    exact hcancel
  · intro other hother
    rw [hsame other hother]
    exact hstart

/-- A job that waits is taken out of the line by its cancellation: it stands behind those that were
started, and no id stands there twice. -/
theorem InLine.order_cancel
    (hb : b.InLine accepted cancelled started) (honce : accepted.Nodup) {id : String}
    (hmem : id ∈ b.queue) (hid : id ∉ cancelled) :
    accepted.filter (· ∉ cancelled ++ [id]) =
      started ++ b.queue.filter (· ∉ cancelled ++ [id]) := by
  have hsplit : ∀ ids : List String, ids.filter (· ∉ cancelled ++ [id]) =
      (ids.filter (· ∉ cancelled)).filter (· ≠ id) := by
    intro ids
    rw [List.filter_filter]
    apply List.filter_congr
    intro other _
    simp [and_comm]
  have hline : (started ++ b.queue.filter (· ∉ cancelled)).Nodup := by
    rw [← hb.order]
    exact honce.filter _
  have hnot : id ∉ started := by
    intro hstarted
    have hwaits : id ∈ b.queue.filter (· ∉ cancelled) :=
      List.mem_filter.mpr ⟨hmem, decide_eq_true hid⟩
    exact (List.nodup_append.mp hline).2.2 id hstarted id hwaits rfl
  have hkept : started.filter (· ≠ id) = started := by
    rw [List.filter_eq_self]
    rintro other hother
    apply decide_eq_true
    rintro rfl
    exact hnot hother
  rw [hsplit, hb.order, List.filter_append, hkept, ← hsplit]

variable {id : String} {place : Nat} {r s : Record}

theorem InLine.accept
    (hb : b.InLine accepted cancelled started) (hcustody : b.Custody) (hocc : b.Occupied)
    (h : b.Step t c) (hevent : b.event? t = some (.accepted id)) (hnew : id ∉ accepted)
    (hqueue : c.queue = b.queue ++ [id]) (hjobs : c.jobs = b.jobs ++ [(id, b.records.size)])
    (hr : c.records[b.records.size]? = some r) (hqueued : r.status = .queued) :
    c.InLine (accepted ++ [id]) cancelled started where
  known other place hjob := by
    rw [hjobs] at hjob
    rcases List.mem_append.mp hjob with hjob | hjob
    · exact List.mem_append_left _ (hb.known other place hjob)
    · rw [(Prod.mk.inj (List.mem_singleton.mp hjob)).1]
      exact List.mem_append_right _ (List.mem_singleton_self id)
  dropped other hother := List.mem_append_left _ (hb.dropped other hother)
  struck other hother place s hjob hs := by
    rw [hjobs] at hjob
    rcases List.mem_append.mp hjob with hjob | hjob
    · exact hb.struck_step hcustody.toNamed hocc h hother hjob hs
    · rw [(Prod.mk.inj (List.mem_singleton.mp hjob)).1] at hother
      exact absurd (hb.dropped id hother) hnew
  waiting other hmem hother := by
    rw [hqueue] at hmem
    rcases List.mem_append.mp hmem with hmem | hmem
    · exact hb.waiting_step hcustody hocc h hmem hother (by simp [hevent]) (by simp [hevent])
    · rw [List.mem_singleton.mp hmem]
      exact ⟨_, r, by simp [hjobs], hr, hqueued⟩
  order := by
    rw [hqueue, List.filter_append, List.filter_append, hb.order, List.append_assoc]

theorem InLine.cancel
    (hb : b.InLine accepted cancelled started) (hcustody : b.Custody) (hocc : b.Occupied)
    (h : b.Step t c) (hevent : b.event? t = some (.cancelled id)) (honce : accepted.Nodup)
    (hjob : (id, place) ∈ b.jobs) (hr : b.records[place]? = some r) (hqueued : r.status = .queued)
    (hs : c.records[place]? = some s) (hcancelled : s.status = .cancelled)
    (hqueue : c.queue = b.queue) (hjobs : c.jobs = b.jobs) :
    c.InLine accepted (cancelled ++ [id]) started where
  known other q hother := hb.known other q (hjobs ▸ hother)
  dropped other hother := by
    rcases List.mem_append.mp hother with hother | hother
    · exact hb.dropped other hother
    · rw [List.mem_singleton.mp hother]
      exact hb.known id place hjob
  struck other hother q u hjob' hu := by
    rw [hjobs] at hjob'
    rcases List.mem_append.mp hother with hother | hother
    · exact hb.struck_step hcustody.toNamed hocc h hother hjob' hu
    · rw [List.mem_singleton.mp hother] at hjob'
      obtain rfl := hcustody.toNamed.place_eq hjob hjob'
      rw [Option.some.inj (hu.symm.trans hs)]
      exact hcancelled
  waiting other hmem hother := by
    rw [hqueue] at hmem
    obtain ⟨hold, hne⟩ : other ∉ cancelled ∧ other ≠ id := by simpa using hother
    refine hb.waiting_step hcustody hocc h hmem hold ?_ (by simp [hevent])
    rw [hevent]
    rintro heq
    exact hne (Event.cancelled.inj (Option.some.inj heq)).symm
  order := by
    have hid : r.id = id := hcustody.toNamed.id_eq hjob hr
    have hmem : id ∈ b.queue := hid ▸ (hcustody.waiting place r hr hqueued).2
    rw [hqueue]
    apply hb.order_cancel honce hmem
    intro hstruck
    rw [hb.struck id hstruck place r hjob hr] at hqueued
    contradiction

/-- Where nothing is accepted or cancelled, it is enough that no id behind in the queue is
started. -/
theorem InLine.of_jobs
    {taken : List String} (hb : b.InLine accepted cancelled started) (hcustody : b.Custody)
    (hocc : b.Occupied) (h : b.Step t c) (hjobs : ∀ job ∈ c.jobs, job ∈ b.jobs)
    (hcancel : ∀ id, b.event? t ≠ some (.cancelled id))
    (hqueue : ∀ id ∈ c.queue, id ∈ b.queue ∧ b.event? t ≠ some (.started id))
    (horder : started ++ b.queue.filter (· ∉ cancelled) =
      taken ++ c.queue.filter (· ∉ cancelled)) :
    c.InLine accepted cancelled taken where
  known other q hother := hb.known other q (hjobs _ hother)
  dropped := hb.dropped
  struck _ hother _ _ hjob hu :=
    hb.struck_step hcustody.toNamed hocc h hother (hjobs _ hjob) hu
  waiting other hmem hother :=
    hb.waiting_step hcustody hocc h (hqueue other hmem).1 hother (hcancel other)
      (hqueue other hmem).2
  order := hb.order.trans horder

theorem InLine.start
    (hb : b.InLine accepted cancelled started) (hcustody : b.Custody) (hocc : b.Occupied)
    (h : b.Step t c) (hevent : b.event? t = some (.started id)) (hnodup : b.queue.Nodup)
    (hjob : (id, place) ∈ b.jobs) (hr : b.records[place]? = some r)
    (hlive : r.status ≠ .cancelled) (hqueue : b.queue = id :: c.queue) (hjobs : c.jobs = b.jobs) :
    c.InLine accepted cancelled (started ++ [id]) := by
  have hid : id ∉ cancelled := fun hstruck => hlive (hb.struck id hstruck place r hjob hr)
  rw [hqueue, List.nodup_cons] at hnodup
  refine hb.of_jobs hcustody hocc h (fun _ hold => hjobs ▸ hold) (by simp [hevent]) ?_ ?_
  · intro other hmem
    rw [hevent, hqueue]
    refine ⟨List.mem_cons_of_mem _ hmem, ?_⟩
    rintro heq
    obtain rfl := Event.started.inj (Option.some.inj heq)
    exact hnodup.1 hmem
  · rw [hqueue, List.filter_cons_of_pos (by simpa using hid), List.append_assoc]
    rfl

theorem InLine.pass
    (hb : b.InLine accepted cancelled started) (hcustody : b.Custody) (hocc : b.Occupied)
    (h : b.Step t c) (hevent : b.event? t = none)
    (hcancelled : ∀ place r, b.jobs.lookup id = some place → b.records[place]? = some r →
      r.status = .cancelled)
    (hqueue : b.queue = id :: c.queue) (hjobs : c.jobs = b.jobs) :
    c.InLine accepted cancelled started := by
  have hid : ¬id ∉ cancelled := by
    intro hlive
    have hmem : id ∈ b.queue := by
      rw [hqueue]
      exact List.mem_cons_self
    obtain ⟨place, r, hjob, hr, hqueued⟩ := hb.waiting id hmem hlive
    rw [hcancelled place r (hcustody.toNamed.lookup_eq hjob) hr] at hqueued
    contradiction
  refine hb.of_jobs hcustody hocc h (fun _ hold => hjobs ▸ hold) (by simp [hevent]) ?_ ?_
  · intro other hmem
    rw [hevent, hqueue]
    exact ⟨List.mem_cons_of_mem _ hmem, nofun⟩
  · rw [hqueue, List.filter_cons_of_neg (by simpa using hid)]

/-- Nothing is told that has to do with the line. -/
theorem InLine.rest
    (hb : b.InLine accepted cancelled started) (hcustody : b.Custody) (hocc : b.Occupied)
    (h : b.Step t c)
    (hquiet : b.event? t = none ∨ ∃ place reply, b.event? t = some (.heard place reply))
    (hqueue : c.queue = b.queue) (hjobs : ∀ job ∈ c.jobs, job ∈ b.jobs) :
    c.InLine accepted cancelled started := by
  have hother : ∀ id, b.event? t ≠ some (.cancelled id) ∧ b.event? t ≠ some (.started id) := by
    intro id
    rcases hquiet with hnone | ⟨place, reply, hheard⟩
    · simp [hnone]
    · simp [hheard]
  refine hb.of_jobs hcustody hocc h hjobs (fun id => (hother id).1) ?_ ?_
  · intro id hmem
    exact ⟨hqueue ▸ hmem, (hother id).2⟩
  · rw [hqueue]

/-- Every step keeps the accepted jobs in line. -/
theorem InLine.step
    (hb : b.InLine accepted cancelled started) (hcustody : b.Custody) (hocc : b.Occupied)
    (hnodup : b.queue.Nodup) (h : b.Step t c)
    (honce : (accepted ++ ((b.event? t).bind Event.accepted?).toList).Nodup) :
    c.InLine (accepted ++ ((b.event? t).bind Event.accepted?).toList)
      (cancelled ++ ((b.event? t).bind Event.cancelled?).toList)
      (started ++ ((b.event? t).bind Event.started?).toList) := by
  have hqueues := h.queues
  obtain ⟨hfirst, -, hapart⟩ := List.nodup_append.mp honce
  generalize hevent : b.event? t = event at hapart hqueues ⊢
  cases hqueues with
  | @accept id _ hqueue hjobs hr hqueued =>
    have hnew : id ∉ accepted := fun hmem => hapart id hmem id (List.mem_singleton_self id) rfl
    have hline := hb.accept hcustody hocc h hevent hnew hqueue hjobs hr hqueued
    simpa [Event.accepted?, Event.cancelled?, Event.started?] using hline
  | cancel hjob hr hqueued hs hcancelled hqueue hjobs =>
    have hline := hb.cancel hcustody hocc h hevent hfirst hjob hr hqueued hs hcancelled hqueue hjobs
    simpa [Event.accepted?, Event.cancelled?, Event.started?] using hline
  | start hjob hr hlive _ _ hqueue hjobs =>
    have hline := hb.start hcustody hocc h hevent hnodup hjob hr hlive hqueue hjobs
    simpa [Event.accepted?, Event.cancelled?, Event.started?] using hline
  | pass hcancelled hqueue hjobs =>
    have hline := hb.pass hcustody hocc h hevent hcancelled hqueue hjobs
    simpa using hline
  | rest hquiet hqueue hjobs =>
    have hline := hb.rest hcustody hocc h (hevent ▸ hquiet) hqueue hjobs
    rcases hquiet with rfl | ⟨place, reply, rfl⟩
    · simpa using hline
    · simpa [Event.accepted?, Event.cancelled?, Event.started?] using hline

end InLine

/-- What is told along a run in which no id is accepted twice keeps the accepted jobs in line. -/
theorem inLine_run
    {policy : Policy} {count : Nat} {turns : List Turn}
    (honce : ((opened policy count).told Event.accepted? turns).Nodup) :
    ((opened policy count).run turns).InLine ((opened policy count).told Event.accepted? turns)
      ((opened policy count).told Event.cancelled? turns)
      ((opened policy count).told Event.started? turns) := by
  refine once_induction (motive := fun turns b =>
    b.InLine ((opened policy count).told Event.accepted? turns)
      ((opened policy count).told Event.cancelled? turns)
      ((opened policy count).told Event.started? turns)) ?_ ?_ honce
  · exact ⟨fun _ _ h => by contradiction, fun _ h => by contradiction,
      fun _ h => by contradiction, fun _ h => by contradiction, rfl⟩
  · rintro turns t _ c rfl hsound hcustody hocc hstep honce ih
    rw [told_concat, told_concat, told_concat]
    exact ih.step hcustody hocc hsound.queue hstep honce

/-- First in, first out: where no id is accepted twice, the jobs that are started are the first of
the accepted ones without those that are cancelled while they wait, each of them once, and the
others wait in this order. -/
theorem started_in_order_of_acceptance
    (policy : Policy) (count : Nat) {turns : List Turn}
    (honce : ((opened policy count).told Event.accepted? turns).Nodup) :
    let b := opened policy count
    let cancelled := b.told Event.cancelled? turns
    let line := (b.told Event.accepted? turns).filter (· ∉ cancelled)
    let started := b.told Event.started? turns
    started <+: line ∧ started.Nodup ∧
      line = started ++ (b.run turns).queue.filter (· ∉ cancelled) := by
  intro b cancelled line started
  have horder : line = started ++ (b.run turns).queue.filter (· ∉ cancelled) :=
    (inLine_run honce).order
  have hfirst : started <+: line := ⟨_, horder.symm⟩
  exact ⟨hfirst, (honce.filter _).sublist hfirst.sublist, horder⟩

/-- Two workers take jobs while one that waits is cancelled. -/
def cancelsSecond : List Turn :=
  [submitCube "one", submitCube "two", .take 1, submitCube "three", .cancel "two",
    submitCube "four", .take 0, .take 0].map .move

theorem started_in_order_of_acceptance_of_cancelled :
    let b := opened briefPolicy 2
    b.told Event.accepted? cancelsSecond = ["one", "two", "three", "four"] ∧
      b.told Event.cancelled? cancelsSecond = ["two"] ∧
      b.told Event.started? cancelsSecond = ["one", "three"] ∧
      b.told Event.started? cancelsSecond <+: ["one", "three", "four"] ∧
      (b.run cancelsSecond).queue = ["four"] := by
  intro b
  have haccepted : b.told Event.accepted? cancelsSecond = ["one", "two", "three", "four"] := by
    decide +kernel
  have hcancelled : b.told Event.cancelled? cancelsSecond = ["two"] := by
    decide +kernel
  have honce : (b.told Event.accepted? cancelsSecond).Nodup := by
    rw [haccepted]
    decide
  obtain ⟨hfirst, -⟩ := started_in_order_of_acceptance briefPolicy 2 honce
  change _ <+: (b.told Event.accepted? cancelsSecond).filter
    (· ∉ b.told Event.cancelled? cancelsSecond) at hfirst
  rw [haccepted, hcancelled] at hfirst
  exact ⟨haccepted, hcancelled, by decide +kernel, hfirst, by decide +kernel⟩

end Board

end SolidWorkshop.Job
