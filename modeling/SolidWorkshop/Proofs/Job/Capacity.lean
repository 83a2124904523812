import SolidWorkshop.Proofs.Job.Order

/-!
# The room of the queue

Every accepted job uses room in the queue until a worker takes its id out.  Cancelling a job that
waits, and dropping it, leave its id where it is: whoever comes to it passes over it.  A board is
therefore full by the jobs that no worker has come to, and these are all that wait and those that
were cancelled while they did.
-/

namespace SolidWorkshop.Job.Board

variable {b c : Board} {t : Turn}

/-! ## Ids in the order of their acceptance -/

/-- The ids of all jobs that were accepted, one after another. -/
def ids (b : Board) : List String :=
  b.records.toList.map (·.id)

theorem length_ids (b : Board) : b.ids.length = b.records.size := by
  simp [ids]

theorem getElem?_ids (b : Board) (place : Nat) :
    b.ids[place]? = (b.records[place]?).map (·.id) := by
  simp [ids]

/-- The id that a turn tells to be accepted, if any. -/
def newIds (b : Board) (t : Turn) : List String :=
  ((b.event? t).bind Event.accepted?).toList

/-- The queue is left as it is, or loses its first id, or gets the accepted one. -/
theorem Queues.newIds_cases
    {event : Option Event} (h : b.Queues c event) :
    (event.bind Event.accepted?).toList = [] ∧
        (c.queue = b.queue ∨ ∃ id, b.queue = id :: c.queue) ∨
      ∃ id r, (event.bind Event.accepted?).toList = [id] ∧ c.queue = b.queue ++ [id] ∧
        c.records[b.records.size]? = some r := by
  cases h with
  | accept hqueue _ hr => exact Or.inr ⟨_, _, rfl, hqueue, hr⟩
  | cancel _ _ _ _ _ hqueue => exact Or.inl ⟨rfl, Or.inl hqueue⟩
  | start _ _ _ _ _ hqueue => exact Or.inl ⟨rfl, Or.inr ⟨_, hqueue⟩⟩
  | pass _ hqueue => exact Or.inl ⟨rfl, Or.inr ⟨_, hqueue⟩⟩
  | rest hquiet hqueue =>
    refine Or.inl ⟨?_, Or.inl hqueue⟩
    rcases hquiet with rfl | ⟨place, reply, rfl⟩
    · rfl
    · rfl

/-- Records stay in their places under their ids, and the accepted job is the next one. -/
theorem Step.ids_eq
    (hocc : b.Occupied) (h : b.Step t c) :
    c.ids = b.ids ++ b.newIds t := by
  apply List.ext_getElem?
  intro place
  rw [getElem?_ids]
  cases hr : b.records[place]? with
  | some r =>
    obtain ⟨s, hs, hfares⟩ := h.exists_fares hr
    have hold : b.ids[place]? = some r.id := by rw [getElem?_ids, hr]; rfl
    have hlt := (List.getElem?_eq_some_iff.mp hold).1
    rw [hs, List.getElem?_append_left hlt, hold, Option.map_some, hfares.id_eq]
  | none =>
    have hle : b.ids.length ≤ place := by
      rw [length_ids]
      exact Array.getElem?_eq_none_iff.mp hr
    rw [List.getElem?_append_right hle, length_ids]
    cases hs : c.records[place]? with
    | some s =>
      rcases h.record_cases hocc hs with ⟨r, hr', -⟩ |
        ⟨request, asked, newId, rfl, haccepted, -, rfl, rfl⟩
      · exact absurd (hr.symm.trans hr') nofun
      · rw [newIds, event?_of_ok haccepted, Nat.sub_self]
        rfl
    | none =>
      rcases h.queues.newIds_cases with ⟨hnone, -⟩ | ⟨id, r, hnew, -, hr'⟩
      · rw [newIds, hnone]
        rfl
      · rw [length_ids] at hle
        have hne : place ≠ b.records.size := by
          rintro rfl
          exact absurd (hs.symm.trans hr') nofun
        rw [newIds, hnew, List.getElem?_eq_none (by simp; omega)]
        rfl

/-! ## Ids that are taken out of the queue -/

/-- How many ids a turn takes out of the queue: one if a free worker finds any. -/
def picks (b : Board) : Turn → Nat
  | .move (.take worker) =>
    match b.workers[worker]?, b.queue with
    | some .idle, _ :: _ => 1
    | _, _ => 0
  | _ => 0

/-- How many ids some turns take out of the queue. -/
def picked (b : Board) : List Turn → Nat
  | [] => 0
  | t :: turns => b.picks t + (b.turn t).picked turns

theorem picked_concat (b : Board) (turns : List Turn) (t : Turn) :
    b.picked (turns ++ [t]) = b.picked turns + (b.run turns).picks t := by
  induction turns generalizing b with
  | nil => exact Nat.add_comm _ _
  | cons u turns ih =>
    rw [List.cons_append, picked, picked, ih, Nat.add_assoc]
    rfl

theorem picks_of_heard
    {worker : Nat}
    (ht : t = .move (.desert worker) ∨ ∃ reply, t.heard? = some (worker, reply)) :
    b.picks t = 0 := by
  rcases ht with rfl | ⟨reply, ht⟩
  · rfl
  · cases t with
    | move m =>
      cases m with
      | take => contradiction
      | _ => rfl
    | spoil => rfl

theorem Ends.heard_or_deserted
    {worker : Nat} {overrides : List Override} {r s : Record} {artifacts : List (String × ByteArray)}
    (h : b.Ends worker overrides r t s artifacts) :
    t = .move (.desert worker) ∨ ∃ reply, t.heard? = some (worker, reply) := by
  cases h with
  | lost ht => exact Or.inr ⟨_, ht⟩
  | deserted => exact Or.inl rfl
  | error | stored | unfinished => exact Or.inr ⟨_, rfl⟩

/-- The first id is taken out of the queue, or nothing is. -/
theorem Step.picks_cases
    (h : b.Step t c) :
    (b.picks t = 1 ∧ ∃ id, b.queue = id :: c.queue) ∨ (b.picks t = 0 ∧ b.queue <+: c.queue) := by
  have htakes : ∀ {worker : Nat} {id : String} {rest : List String},
      b.workers[worker]? = some .idle → b.queue = id :: rest →
      b.picks (.move (.take worker)) = 1 := by
    intro worker id rest hidle hqueue
    rw [picks, hidle, hqueue]
  cases h with
  | decline | keep | cancel | advance | enter | dismiss | note =>
    exact Or.inr ⟨rfl, List.prefix_rfl⟩
  | accept => exact Or.inr ⟨rfl, List.prefix_append _ _⟩
  | prune =>
    obtain ⟨-, hframe⟩ := drops_prune b
    rw [hframe]
    exact Or.inr ⟨rfl, List.prefix_rfl⟩
  | rest hnone =>
    refine Or.inr ⟨?_, List.prefix_rfl⟩
    rw [picks]
    split
    · next hidle hqueue =>
      rw [hnone hidle] at hqueue
      contradiction
    · rfl
  | pass hidle hqueue => exact Or.inl ⟨htakes hidle hqueue, _, hqueue⟩
  | refuse hidle hqueue => exact Or.inl ⟨htakes hidle hqueue, _, hqueue⟩
  | start hidle hqueue => exact Or.inl ⟨htakes hidle hqueue, _, hqueue⟩
  | ignore ht => exact Or.inr ⟨picks_of_heard ht, List.prefix_rfl⟩
  | conclude _ _ hend => exact Or.inr ⟨picks_of_heard hend.heard_or_deserted, List.prefix_rfl⟩

theorem Step.picks_of_head
    (h : b.Step t c) {id : String} (hqueue : b.queue = id :: c.queue) :
    b.picks t = 1 := by
  rcases h.picks_cases with ⟨hone, -⟩ | ⟨-, hprefix⟩
  · exact hone
  · have hle := hprefix.length_le
    rw [hqueue, List.length_cons] at hle
    omega

theorem Step.picks_of_length_le
    (h : b.Step t c) (hle : b.queue.length ≤ c.queue.length) :
    b.picks t = 0 := by
  rcases h.picks_cases with ⟨-, id, hqueue⟩ | ⟨hzero, -⟩
  · rw [hqueue, List.length_cons] at hle
    omega
  · exact hzero

/-- The queue loses what is taken at its front, and gets what is accepted at its end. -/
theorem Step.queue_eq
    (h : b.Step t c) :
    c.queue = b.queue.drop (b.picks t) ++ b.newIds t := by
  rw [newIds]
  rcases h.queues.newIds_cases with ⟨hnone, hsame | ⟨id, hqueue⟩⟩ | ⟨id, r, hnew, hqueue, -⟩
  · rw [h.picks_of_length_le (hsame ▸ Nat.le_refl _), hnone, hsame, List.append_nil,
      List.drop_zero]
  · rw [h.picks_of_head hqueue, hnone, hqueue, List.append_nil, List.drop_one, List.tail_cons]
  · rw [h.picks_of_length_le (by simp [hqueue]), hnew, hqueue, List.drop_zero]

/-! ## What the queue is used by -/

/-- The ids that no worker has come to are those of the last accepted jobs, and are what is in the
queue.  All jobs that wait are among them.  The others were cancelled, unless a worker came upon
them by an earlier acceptance of the same id. -/
structure Reserves (b : Board) (taken : Nat) : Prop where
  bound : taken ≤ b.records.size
  queue : b.queue = b.ids.drop taken
  waiting : ∀ (place : Nat) (r : Record), b.records[place]? = some r → r.status = .queued →
    taken ≤ place
  others : ∀ (place : Nat) (r : Record), taken ≤ place → b.records[place]? = some r →
    r.status ≠ .queued → r.status = .cancelled ∨ r.id ∈ b.ids.take place

section Reserves

variable {taken place : Nat} {r s : Record}

theorem Reserves.length_queue
    (hb : b.Reserves taken) :
    b.queue.length = b.records.size - taken := by
  rw [hb.queue, List.length_drop, length_ids]

/-- The job of an id that is taken out of the queue waits no longer. -/
theorem Queues.not_queued_of_head
    (hnamed : b.Named) {event : Option Event} (h : b.Queues c event) {id : String}
    (hqueue : b.queue = id :: c.queue) (hjob : (id, place) ∈ b.jobs)
    (hr : b.records[place]? = some s) (hs : c.records[place]? = some s) :
    s.status ≠ .queued := by
  have hshorter : c.queue.length + 1 = b.queue.length := by
    rw [hqueue, List.length_cons]
  cases h with
  | accept hlonger =>
    rw [hlonger, List.length_append] at hshorter
    omega
  | cancel _ _ _ _ _ hsame => exact absurd (hsame ▸ hshorter) (Nat.succ_ne_self _)
  | rest _ hsame => exact absurd (hsame ▸ hshorter) (Nat.succ_ne_self _)
  | start hstarted _ _ hs' hstatus hhead =>
    obtain ⟨rfl, -⟩ := List.cons.inj (hqueue.symm.trans hhead)
    obtain rfl := hnamed.place_eq hjob hstarted
    obtain rfl := Option.some.inj (hs.symm.trans hs')
    exact hstatus.1
  | pass hcancelled hhead =>
    obtain ⟨rfl, -⟩ := List.cons.inj (hqueue.symm.trans hhead)
    rw [hcancelled place s (hnamed.lookup_eq hjob) hr]
    decide

theorem Reserves.getElem?_ids_of_head
    (hb : b.Reserves taken) {id : String} {rest : List String} (hqueue : b.queue = id :: rest) :
    b.ids[taken]? = some id := by
  rw [← List.head?_drop, ← hb.queue, hqueue, List.head?_cons]

/-- A job that still waits has not been come to. -/
theorem Reserves.waiting_step
    (hb : b.Reserves taken) (hcustody : b.Custody) (hocc : b.Occupied) (h : b.Step t c)
    (hs : c.records[place]? = some s) (hqueued : s.status = .queued) :
    taken + b.picks t ≤ place := by
  rcases h.record_cases hocc hs with ⟨r, hr, hfares⟩ | ⟨_, _, _, rfl, -, -, rfl, -⟩
  · have hstays : r = s := by
      rcases hfares.status_cases hocc hr with rfl | ⟨-, hcancelled⟩ | ⟨-, hstarted, -⟩
      · rfl
      · exact absurd (hcancelled.symm.trans hqueued) nofun
      · exact absurd hqueued hstarted
    obtain rfl := hstays
    have hle := hb.waiting place r hr hqueued
    rcases h.picks_cases with ⟨hone, id, hqueue⟩ | ⟨hzero, -⟩
    · have hne : taken ≠ place := by
        rintro rfl
        have hid := hb.getElem?_ids_of_head hqueue
        rw [getElem?_ids, hr] at hid
        obtain rfl := Option.some.inj hid
        exact h.queues.not_queued_of_head hcustody.toNamed hqueue
          (hcustody.waiting _ r hr hqueued).1 hr hs hqueued
      omega
    · omega
  · exact hb.bound

/-- A job that nobody came to and that waits no longer was cancelled, or its id was come to: it is
started by the id that the queue is headed by. -/
theorem Reserves.others_step
    (hb : b.Reserves taken) (hnamed : b.Named) (hocc : b.Occupied) (h : b.Step t c)
    (hle : taken + b.picks t ≤ place) (hs : c.records[place]? = some s)
    (hwaits : s.status ≠ .queued) :
    s.status = .cancelled ∨ s.id ∈ c.ids.take place := by
  rcases h.record_cases hocc hs with ⟨r, hr, hfares⟩ | ⟨_, _, _, -, -, -, -, rfl⟩
  · have hlt : place < b.ids.length := by
      rw [length_ids]
      exact (Array.getElem?_eq_some_iff.mp hr).1
    rw [h.ids_eq hocc, List.take_append_of_le_length (Nat.le_of_lt hlt), hfares.id_eq]
    by_cases hqueued : r.status = .queued
    · have hstarted : ∀ id, b.event? t = some (.started id) → b.jobs.lookup id = some place →
          r.id ∈ b.ids.take place := by
        intro id hevent hplace
        have hqueue := h.head_of_started hevent
        rw [h.picks_of_head hqueue] at hle
        rw [hnamed.id_eq (mem_of_lookup hplace) hr]
        apply List.mem_of_getElem?
        rw [List.getElem?_take_of_lt hle]
        exact hb.getElem?_ids_of_head hqueue
      have hfree := hocc.not_isBusy_of_queued hr hqueued
      cases hfares with
      | stay => exact absurd hqueued hwaits
      | cancel => exact Or.inl rfl
      | refuse hevent hplace => exact Or.inr (hstarted _ hevent hplace)
      | start hevent hplace => exact Or.inr (hstarted _ hevent hplace)
      | note _ hbusy => exact absurd hbusy (hfree _)
      | conclude hbusy => exact absurd hbusy (hfree _)
      | close _ hbusy => exact absurd hbusy (hfree _)
    · rcases hb.others place r (by omega) hr hqueued with hcancelled | hmem
      · have hstays := h.getElem?_of_cancelled hocc hr hcancelled
        obtain rfl := Option.some.inj (hs.symm.trans hstays)
        exact Or.inl hcancelled
      · exact Or.inr hmem
  · exact absurd rfl hwaits

/-- Every step keeps the last accepted jobs in the queue, but for those it takes out. -/
theorem Reserves.step
    (hb : b.Reserves taken) (hcustody : b.Custody) (hocc : b.Occupied) (h : b.Step t c) :
    c.Reserves (taken + b.picks t) := by
  have hids := h.ids_eq hocc
  have hpicks : taken + b.picks t ≤ b.ids.length := by
    rw [length_ids]
    rcases h.picks_cases with ⟨hone, id, hqueue⟩ | ⟨hzero, -⟩
    · have hlength := hb.length_queue
      rw [hqueue, List.length_cons] at hlength
      omega
    · rw [hzero]
      exact hb.bound
  constructor
  · rw [← length_ids, hids, List.length_append]
    omega
  · rw [h.queue_eq, hb.queue, List.drop_drop, hids, List.drop_append_of_le_length hpicks]
  · intro place s hs hqueued
    exact hb.waiting_step hcustody hocc h hs hqueued
  · intro place s hle hs hwaits
    exact hb.others_step hcustody.toNamed hocc h hle hs hwaits

/-- Along every run the queue holds the last accepted ids, in their order. -/
theorem reserves_run (policy : Policy) (count : Nat) (turns : List Turn) :
    ((opened policy count).run turns).Reserves ((opened policy count).picked turns) ∧
      ((opened policy count).run turns).ids = (opened policy count).told Event.accepted? turns := by
  refine run_induction (motive := fun turns b =>
    b.Reserves ((opened policy count).picked turns) ∧
      b.ids = (opened policy count).told Event.accepted? turns) ?_ ?_ turns
  · exact ⟨⟨Nat.le_refl _, rfl, fun _ _ hr => by contradiction, fun _ _ _ hr => by contradiction⟩,
      rfl⟩
  · rintro turns t _ c rfl hocc hstep ⟨hb, hids⟩
    rw [picked_concat, told_concat, hstep.ids_eq hocc, hids]
    exact ⟨hb.step (custody_run policy count turns) hocc hstep, rfl⟩

end Reserves

/-! ## When the queue is full -/

theorem submit_eq_queueFull_iff (b : Board) (request : CompileRequest) (id : Option String) :
    (b.submit request id).2 = .error .queueFull ↔ b.isFull = true := by
  constructor
  · intro h
    rw [submit] at h
    split at h
    · assumption
    · dsimp only at h
      split at h
      · cases h
      · cases h
  · intro hfull
    rw [submit, if_pos hfull]

theorem isFull_iff (b : Board) :
    b.isFull = true ↔ 0 < b.policy.maxQueue ∧ b.policy.maxQueue ≤ b.queue.length := by
  rw [isFull, Bool.and_eq_true, decide_eq_true_iff, decide_eq_true_iff]

/-- As long as no id is taken out of the queue, it stays full. -/
theorem Occupied.isFull_run
    (hocc : b.Occupied) (hfull : b.isFull = true) {turns : List Turn}
    (hnone : b.picked turns = 0) :
    (b.run turns).isFull = true := by
  induction turns generalizing b with
  | nil => exact hfull
  | cons t turns ih =>
    have hstep := hocc.step_turn t
    rw [picked, Nat.add_eq_zero_iff] at hnone
    refine ih (hocc.step hstep) ?_ hnone.2
    rw [isFull_iff] at hfull ⊢
    have hqueue := hstep.queue_eq
    rw [hnone.1, List.drop_zero] at hqueue
    rw [hstep.policy_eq, hqueue, List.length_append]
    omega

/-- The places of the jobs that wait. -/
def waiting (b : Board) : List Nat :=
  (List.range b.records.size).filter fun place =>
    (b.records[place]?).any fun r => r.status = .queued

/-- The places of the jobs that no longer wait and that nobody has come to, after some ids were
taken out of the queue. -/
def lapsed (b : Board) (taken : Nat) : List Nat :=
  (List.range' taken (b.records.size - taken)).filter fun place =>
    !(b.records[place]?).any fun r => r.status = .queued

theorem Reserves.waiting_eq
    {taken : Nat} (hb : b.Reserves taken) :
    b.waiting = (List.range' taken (b.records.size - taken)).filter fun place =>
      (b.records[place]?).any fun r => r.status = .queued := by
  have hrange : List.range b.records.size =
      List.range taken ++ List.range' taken (b.records.size - taken) := by
    rw [List.range_eq_range', List.range_eq_range']
    conv_lhs => rw [← Nat.add_sub_cancel' hb.bound, ← List.range'_append_1, Nat.zero_add]
  have hnone : ((List.range taken).filter fun place =>
      (b.records[place]?).any fun r => r.status = .queued) = [] := by
    rw [List.filter_eq_nil_iff]
    intro place hplace hqueued
    obtain ⟨r, hr, hstatus⟩ := (Option.any_eq_true _ _).mp hqueued
    have hle := hb.waiting place r hr (of_decide_eq_true hstatus)
    exact Nat.not_lt.mpr hle (List.mem_range.mp hplace)
  rw [Board.waiting, hrange, List.filter_append, hnone, List.nil_append]

/-- The room of the queue is used by the jobs that wait, and by those that nobody has come to since
they no longer wait. -/
theorem Reserves.length_queue_eq
    {taken : Nat} (hb : b.Reserves taken) :
    b.queue.length = b.waiting.length + (b.lapsed taken).length := by
  rw [hb.waiting_eq, lapsed, ← List.length_eq_length_filter_add, List.length_range',
    hb.length_queue]

theorem Reserves.lapsed_cases
    {taken place : Nat} (hb : b.Reserves taken) (hplace : place ∈ b.lapsed taken) :
    ∃ r, b.records[place]? = some r ∧ r.status ≠ .queued ∧
      (r.status = .cancelled ∨ r.id ∈ b.ids.take place) := by
  obtain ⟨hrange, hwaits⟩ := List.mem_filter.mp hplace
  have hbound := hb.bound
  rw [List.mem_range'_1] at hrange
  obtain ⟨r, hr⟩ : ∃ r, b.records[place]? = some r :=
    ⟨_, Array.getElem?_eq_getElem (by omega)⟩
  rw [hr, Option.any_some, Bool.not_eq_true', decide_eq_false_iff_not] at hwaits
  exact ⟨r, hr, hwaits, hb.others place r hrange.1 hr hwaits⟩

/-- Whoever takes an id out of the queue makes room for another one. -/
theorem Custody.isFull_of_picks
    (hb : b.Custody) (h : b.Step t c) (hone : b.picks t = 1) :
    c.isFull = false := by
  rcases h.picks_cases with ⟨-, id, hqueue⟩ | ⟨hzero, -⟩
  · rw [Bool.eq_false_iff]
    intro hfull
    obtain ⟨hlimit, hle⟩ := (isFull_iff c).mp hfull
    rw [h.policy_eq] at hlimit hle
    have hroom := hb.room hlimit
    rw [hqueue, List.length_cons] at hroom
    omega
  · exact absurd (hone.symm.trans hzero) nofun

/-- Room is used from the acceptance of a job until a worker takes its id out of the queue, whether
the job still waits or not.  So a submission finds the queue full when as many jobs as it has room
for either wait, or were cancelled (or started by an earlier acceptance of the same id) before
anybody came to them.  A worker that comes to an id makes room, and nothing else does. -/
theorem room_is_used_until_ids_are_taken (policy : Policy) (count : Nat) (turns : List Turn) :
    let b := (opened policy count).run turns
    let lapsed := b.lapsed ((opened policy count).picked turns)
    (∀ request id, (b.submit request id).2 = .error .queueFull ↔
      0 < policy.maxQueue ∧ policy.maxQueue ≤ b.waiting.length + lapsed.length) ∧
    (∀ place ∈ lapsed, ∃ r, b.records[place]? = some r ∧ r.status ≠ .queued ∧
      (r.status = .cancelled ∨
        r.id ∈ ((opened policy count).told Event.accepted? turns).take place)) ∧
    (∀ later, b.picked later = 0 → b.isFull = true → (b.run later).isFull = true) ∧
    ∀ t, b.picks t = 1 → (b.turn t).isFull = false := by
  intro b lapsed
  obtain ⟨hb, hids⟩ := reserves_run policy count turns
  have hocc : b.Occupied := occupied_run turns
  refine ⟨?_, ?_, ?_, ?_⟩
  · intro request id
    rw [submit_eq_queueFull_iff, isFull_iff, policy_run, hb.length_queue_eq, Int.natCast_add]
  · intro place hplace
    rw [← hids]
    exact hb.lapsed_cases hplace
  · intro later hnone hfull
    exact hocc.isFull_run hfull hnone
  · intro t hone
    exact (custody_run policy count turns).isFull_of_picks (hocc.step_turn t) hone

/-- The rules of a board whose queue has room for one id. -/
def narrowPolicy : Policy :=
  { briefPolicy with maxQueue := 1 }

/-- While a worker is at work on a job, another one is accepted and cancelled. -/
def cancelsWaiting : List Turn :=
  [submitCube "first", .take 0, submitCube "second", .cancel "second"].map .move

theorem room_is_used_until_ids_are_taken_of_cancelled :
    let b := (opened narrowPolicy 1).run cancelsWaiting
    let later := [.move (.log 0 (.error "")), .move (.conclude 0 (.error "" 500))]
    b.waiting = [] ∧ b.lapsed ((opened narrowPolicy 1).picked cancelsWaiting) = [1] ∧
      (b.submit ⟨"cube(1);", [], none, none, [], []⟩ none).2 = .error .queueFull ∧
      (b.run later).isFull = true ∧
      (((opened narrowPolicy 1).run (cancelsWaiting ++ later)).turn (.move (.take 0))).isFull =
        false := by
  intro b later
  obtain ⟨hrefused, -, hstays, -⟩ := room_is_used_until_ids_are_taken narrowPolicy 1 cancelsWaiting
  obtain ⟨-, -, -, hroom⟩ :=
    room_is_used_until_ids_are_taken narrowPolicy 1 (cancelsWaiting ++ later)
  have hnone : b.waiting = [] := by decide +kernel
  have hlapsed : b.lapsed ((opened narrowPolicy 1).picked cancelsWaiting) = [1] := by
    decide +kernel
  refine ⟨hnone, hlapsed, (hrefused _ none).mpr ⟨by decide, ?_⟩, ?_, ?_⟩
  · change _ ≤ ((b.waiting.length + (b.lapsed _).length : Nat) : Int)
    rw [hnone, hlapsed]
    decide
  · exact hstays later (by decide +kernel) (by decide +kernel)
  · exact hroom _ (by decide +kernel)

/-- The queue may be full although no job waits. -/
theorem not_forall_le_length_waiting_of_queueFull :
    ¬∀ (policy : Policy) (count : Nat) (turns : List Turn) (request : CompileRequest)
      (id : Option String),
      let b := (opened policy count).run turns
      (b.submit request id).2 = .error .queueFull → policy.maxQueue ≤ b.waiting.length := by
  intro hall
  have hfull : ((opened narrowPolicy 1).run cancelsWaiting).isFull = true := by
    decide +kernel
  have hnone : ((opened narrowPolicy 1).run cancelsWaiting).waiting = [] := by
    decide +kernel
  have hle := hall narrowPolicy 1 cancelsWaiting ⟨"cube(1);", [], none, none, [], []⟩ none
    ((submit_eq_queueFull_iff _ _ _).mpr hfull)
  rw [hnone] at hle
  exact absurd hle (by decide)

end SolidWorkshop.Job.Board
