import Mathlib.Data.List.Induction
import SolidWorkshop.Proofs.Job.Step

/-!
# Runs of a board

What a turn makes of one record is read off its step: most turns leave it as it is, a job that
waits may be cancelled, and otherwise the job has been started.  A run is a list of turns from a
board without jobs, whose workers are at work on started jobs throughout; some of its turns tell
something, and the history of a run is what they tell, one after another.
-/

namespace SolidWorkshop.Job

/-- The place of the record that a worker works on. -/
def Worker.place? : Worker → Option Nat
  | .idle => none
  | .busy place _ => some place

/-- What a turn tells. -/
inductive Event where
  | accepted (id : String)
  /-- A job that waits is cancelled. -/
  | cancelled (id : String)
  /-- A worker takes the job of the first id of the queue. -/
  | started (id : String)
  /-- Whoever works on a record hears from its compile. -/
  | heard (place : Nat) (reply : Reply)

namespace Event

/-- The id that is accepted. -/
def accepted? : Event → Option String
  | .accepted id => some id
  | _ => none

/-- The id of the job that is cancelled. -/
def cancelled? : Event → Option String
  | .cancelled id => some id
  | _ => none

/-- The id of the job that is started. -/
def started? : Event → Option String
  | .started id => some id
  | _ => none

end Event

namespace Board

/-- What a turn tells, if anything. -/
def event? (b : Board) : Turn → Option Event
  | .move (.submit request id) => (b.submit request id).2.toOption.map .accepted
  | .move (.cancel id) =>
    ((b.find? id).filter fun r => r.status = .queued).map fun _ => .cancelled id
  | .move (.take worker) =>
    match b.workers[worker]?, b.queue with
    | some .idle, id :: _ =>
      ((b.find? id).filter fun r => r.status ≠ .cancelled).map fun _ => .started id
    | _, _ => none
  | t => t.heard?.bind fun (worker, reply) =>
    (b.workers[worker]?.bind Worker.place?).map fun place => .heard place reply

/-! ## What a turn tells -/

section Event

variable {b : Board} {t : Turn} {request : CompileRequest} {asked : Option String} {id : String}
  {worker place : Nat} {r : Record} {rest : List String}

theorem event?_of_ok
    (h : (b.submit request asked).2 = .ok id) :
    b.event? (.move (.submit request asked)) = some (.accepted id) := by
  rw [event?, h]
  rfl

theorem event?_of_error
    {failure : Failure} (h : (b.submit request asked).2 = .error failure) :
    b.event? (.move (.submit request asked)) = none := by
  rw [event?, h]
  rfl

theorem find?_of_lookup
    (hplace : b.jobs.lookup id = some place) (hr : b.records[place]? = some r) :
    b.find? id = some r := by
  rw [find?, hplace]
  exact hr

theorem event?_of_queued
    (hplace : b.jobs.lookup id = some place) (hr : b.records[place]? = some r)
    (hqueued : r.status = .queued) :
    b.event? (.move (.cancel id)) = some (.cancelled id) := by
  rw [event?, find?_of_lookup hplace hr, Option.filter, if_pos (decide_eq_true hqueued)]
  rfl

theorem event?_of_not_queued
    (hnone : ∀ place r, b.jobs.lookup id = some place → b.records[place]? = some r →
      r.status ≠ .queued) :
    b.event? (.move (.cancel id)) = none := by
  rw [event?, Option.map_eq_none_iff, Option.filter_eq_none_iff]
  intro r hfind hqueued
  obtain ⟨place, hplace, hr⟩ := Option.bind_eq_some_iff.mp hfind
  exact hnone place r hplace hr (of_decide_eq_true hqueued)

theorem event?_of_live
    (hidle : b.workers[worker]? = some .idle) (hqueue : b.queue = id :: rest)
    (hplace : b.jobs.lookup id = some place) (hr : b.records[place]? = some r)
    (hlive : r.status ≠ .cancelled) :
    b.event? (.move (.take worker)) = some (.started id) := by
  rw [event?, hidle, hqueue]
  dsimp only
  rw [find?_of_lookup hplace hr, Option.filter, if_pos (decide_eq_true hlive)]
  rfl

theorem event?_of_cancelled
    (hidle : b.workers[worker]? = some .idle) (hqueue : b.queue = id :: rest)
    (hcancelled : ∀ place r, b.jobs.lookup id = some place → b.records[place]? = some r →
      r.status = .cancelled) :
    b.event? (.move (.take worker)) = none := by
  rw [event?, hidle, hqueue]
  dsimp only
  rw [Option.map_eq_none_iff, Option.filter_eq_none_iff]
  intro r hfind hlive
  obtain ⟨place, hplace, hr⟩ := Option.bind_eq_some_iff.mp hfind
  exact of_decide_eq_true hlive (hcancelled place r hplace hr)

theorem event?_of_nil
    (hnone : b.workers[worker]? = some .idle → b.queue = []) :
    b.event? (.move (.take worker)) = none := by
  rw [event?]
  split
  · next hidle hqueue =>
    rw [hnone hidle] at hqueue
    contradiction
  · rfl

/-- Only those who are at work hear anything. -/
theorem event?_of_heard?
    {reply : Reply} (ht : t.heard? = some (worker, reply)) :
    b.event? t =
      (b.workers[worker]?.bind Worker.place?).map fun place => .heard place reply := by
  cases t with
  | move m =>
    cases m with
    | log own line =>
      obtain ⟨rfl, rfl⟩ := Prod.mk.inj (Option.some.inj ht)
      rfl
    | conclude own last =>
      obtain ⟨rfl, rfl⟩ := Prod.mk.inj (Option.some.inj ht)
      rfl
    | _ => contradiction
  | spoil own content exitCode elapsed left reason =>
    obtain ⟨rfl, rfl⟩ := Prod.mk.inj (Option.some.inj ht)
    rfl

theorem event?_of_isBusy
    {reply : Reply} (ht : t.heard? = some (worker, reply)) (hbusy : b.IsBusy worker place) :
    b.event? t = some (.heard place reply) := by
  obtain ⟨overrides, hbusy⟩ := hbusy
  rw [event?_of_heard? ht, hbusy]
  rfl

theorem isBusy_of_place?
    (h : b.workers[worker]?.bind Worker.place? = some place) :
    b.IsBusy worker place := by
  obtain ⟨work, hwork, hplace⟩ := Option.bind_eq_some_iff.mp h
  cases work with
  | idle => contradiction
  | busy own overrides =>
    obtain rfl := Option.some.inj hplace
    exact ⟨overrides, hwork⟩

theorem event?_of_not_isBusy
    (ht : t = .move (.desert worker) ∨ ∃ reply, t.heard? = some (worker, reply))
    (hfree : ∀ place, ¬b.IsBusy worker place) :
    b.event? t = none := by
  rcases ht with rfl | ⟨reply, ht⟩
  · rfl
  · rw [event?_of_heard? ht, Option.map_eq_none_iff, Option.eq_none_iff_forall_ne_some]
    exact fun place hplace => hfree place (isBusy_of_place? hplace)

theorem exists_isBusy_of_event?
    {reply : Reply} (h : b.event? t = some (.heard place reply)) :
    ∃ worker, t.heard? = some (worker, reply) ∧ b.IsBusy worker place := by
  cases hheard : t.heard? with
  | some pair =>
    obtain ⟨worker, last⟩ := pair
    rw [event?_of_heard? hheard, Option.map_eq_some_iff] at h
    obtain ⟨q, hq, hevent⟩ := h
    obtain ⟨rfl, rfl⟩ := Event.heard.inj hevent
    exact ⟨worker, rfl, isBusy_of_place? hq⟩
  | none =>
    cases t with
    | spoil => contradiction
    | move m =>
      cases m with
      | submit => simp [event?] at h
      | cancel => simp [event?] at h
      | take =>
        rw [event?] at h
        split at h
        · simp at h
        · contradiction
      | log | conclude | prune | advance | enter | dismiss | desert => contradiction

end Event

/-! ## What becomes of one record -/

/-- What a turn from one board to another makes of the record at a place. -/
inductive Fares (b : Board) (t : Turn) (c : Board) (place : Nat) (r : Record) : Record → Prop
  /-- Whoever works on the record hears nothing. -/
  | stay (hdeaf : ∀ worker reply, t.heard? = some (worker, reply) → ¬b.IsBusy worker place) :
    Fares b t c place r r
  | cancel {id : String} (hevent : b.event? t = some (.cancelled id))
    (hjob : b.jobs.lookup id = some place) (hqueued : r.status = .queued) :
    Fares b t c place r (r.cancel b.now)
  | refuse {id : String} {message : String} {status : Int}
    (hevent : b.event? t = some (.started id)) (hjob : b.jobs.lookup id = some place)
    (hlive : r.status ≠ .cancelled) :
    Fares b t c place r (((r.start b.now).fail message status).close b.now)
  | start {id : String} (hevent : b.event? t = some (.started id))
    (hjob : b.jobs.lookup id = some place) (hlive : r.status ≠ .cancelled) :
    Fares b t c place r (r.start b.now).compiling
  | note {worker : Nat} {line : LogLine} (ht : t = .move (.log worker line))
    (hbusy : b.IsBusy worker place) :
    Fares b t c place r (b.noted r line)
  | conclude {worker : Nat} {overrides : List Override} {s : Record}
    (hbusy : b.IsBusy worker place) (hend : b.Ends worker overrides r t s c.artifacts) :
    Fares b t c place r s
  | close {worker : Nat} (ht : t = .move .dismiss) (hbusy : b.IsBusy worker place) :
    Fares b t c place r (r.close b.now)

section Fares

variable {b c : Board} {t : Turn} {place : Nat} {r s : Record}

theorem Fares.id_eq
    (h : b.Fares t c place r s) :
    s.id = r.id := by
  cases h with
  | conclude _ hend => exact hend.id_eq
  | _ => rfl

/-- Of one record that is rewritten, and the others. -/
theorem Replaces.exists_fares
    {new : Array Record} {q : Nat} {u : Record} (hs : Replaces b.records new place s)
    (hr : b.records[place]? = some r) (hself : b.Fares t c place r s)
    (hdeaf : ∀ worker reply, t.heard? = some (worker, reply) → b.IsBusy worker place)
    (hu : b.records[q]? = some u) :
    ∃ v, new[q]? = some v ∧ b.Fares t c q u v := by
  rw [hs]
  split_ifs with hq
  · obtain rfl := hq
    obtain rfl : r = u := Option.some.inj (hr.symm.trans hu)
    exact ⟨s, rfl, hself⟩
  · refine ⟨u, hu, .stay ?_⟩
    rintro worker reply ht ⟨overrides, hother⟩
    obtain ⟨overrides', hbusy⟩ := hdeaf worker reply ht
    obtain ⟨rfl, -⟩ := Worker.busy.inj (Option.some.inj (hbusy.symm.trans hother))
    exact hq rfl

theorem Ends.worker_eq
    {worker other : Nat} {overrides : List Override} {artifacts : List (String × ByteArray)}
    {reply : Reply} (h : b.Ends worker overrides r t s artifacts)
    (ht : t.heard? = some (other, reply)) :
    other = worker := by
  cases h with
  | lost ht' => exact (Prod.mk.inj (Option.some.inj (ht.symm.trans ht'))).1
  | deserted => contradiction
  | error | stored | unfinished => exact (Prod.mk.inj (Option.some.inj ht)).1.symm

/-- A worker that is done with a job is told so by its compile, or is deserted. -/
theorem Ends.event?_cases
    {worker : Nat} {overrides : List Override} {artifacts : List (String × ByteArray)}
    (h : b.Ends worker overrides r t s artifacts) (hbusy : b.IsBusy worker place) :
    b.event? t = none ∨ ∃ reply, b.event? t = some (.heard place reply) := by
  cases h with
  | lost ht => exact Or.inr ⟨_, event?_of_isBusy ht hbusy⟩
  | deserted => exact Or.inl rfl
  | error | stored | unfinished => exact Or.inr ⟨_, event?_of_isBusy rfl hbusy⟩

/-- Every record stays in its place. -/
theorem Step.exists_fares
    (h : b.Step t c) (hr : b.records[place]? = some r) :
    ∃ s, c.records[place]? = some s ∧ b.Fares t c place r s := by
  cases h with
  | decline | keep | advance | enter | rest | pass => exact ⟨r, hr, .stay nofun⟩
  | accept =>
    refine ⟨r, ?_, .stay nofun⟩
    dsimp only
    rw [Array.getElem?_push, if_neg (ne_size_of_getElem? hr), hr]
  | cancel hplace hr' hqueued hs =>
    have hevent := event?_of_queued hplace hr' hqueued
    exact hs.exists_fares hr' (.cancel hevent hplace hqueued) nofun hr
  | prune =>
    obtain ⟨-, hframe⟩ := drops_prune b
    rw [hframe]
    exact ⟨r, hr, .stay nofun⟩
  | dismiss hother hclosed =>
    by_cases hbusy : ∃ worker, b.IsBusy worker place
    · obtain ⟨worker, hbusy⟩ := hbusy
      obtain ⟨s, hs, rfl | rfl⟩ := hclosed place r hr
      · exact ⟨s, hs, .stay nofun⟩
      · exact ⟨_, hs, .close rfl hbusy⟩
    · refine ⟨r, ?_, .stay nofun⟩
      dsimp only
      rw [hother place fun worker hworker => hbusy ⟨worker, hworker⟩, hr]
  | refuse hidle hqueue hplace hr' hlive hprepared hs =>
    have hevent := event?_of_live hidle hqueue hplace hr' hlive
    exact hs.exists_fares hr' (.refuse hevent hplace hlive) nofun hr
  | start hidle hqueue hplace hr' hlive hprepared hs =>
    have hevent := event?_of_live hidle hqueue hplace hr' hlive
    exact hs.exists_fares hr' (.start hevent hplace hlive) nofun hr
  | ignore ht hfree =>
    refine ⟨r, hr, .stay ?_⟩
    rintro worker reply hheard
    rcases ht with rfl | ⟨reply', ht⟩
    · contradiction
    · obtain ⟨rfl, -⟩ := Prod.mk.inj (Option.some.inj (ht.symm.trans hheard))
      exact hfree place
  | note hbusy hr' hs =>
    refine hs.exists_fares hr' (.note rfl hbusy) ?_ hr
    intro worker reply hheard
    obtain ⟨rfl, -⟩ := Prod.mk.inj (Option.some.inj hheard)
    exact hbusy
  | conclude hbusy hr' hend hs =>
    refine hs.exists_fares hr' (.conclude ⟨_, hbusy⟩ hend) ?_ hr
    intro worker reply hheard
    rw [hend.worker_eq hheard]
    exact ⟨_, hbusy⟩

/-- A record is rewritten, or it is the one of the job that was just accepted. -/
theorem Step.record_cases
    (hocc : b.Occupied) (h : b.Step t c) (hs : c.records[place]? = some s) :
    (∃ r, b.records[place]? = some r ∧ b.Fares t c place r s) ∨
      ∃ request id newId, t = .move (.submit request id) ∧
        (b.submit request id).2 = .ok newId ∧ c.jobs = b.jobs ++ [(newId, place)] ∧
        place = b.records.size ∧ s = { id := newId, request, createdAt := b.now } := by
  cases hr : b.records[place]? with
  | some r =>
    obtain ⟨s', hs', hfares⟩ := h.exists_fares hr
    obtain rfl : s = s' := Option.some.inj (hs.symm.trans hs')
    exact Or.inl ⟨r, rfl, hfares⟩
  | none =>
    have hrewritten : ∀ {new : Array Record} {q : Nat} {u v : Record},
        Replaces b.records new q v → b.records[q]? = some u → new[place]? = some s → False := by
      intro new q u v hnew hu hplace
      rw [hnew] at hplace
      split_ifs at hplace with hq
      · rw [hq, hr] at hu
        contradiction
      · rw [hr] at hplace
        contradiction
    cases h with
    | decline | keep | advance | enter | rest | pass | ignore =>
      exact absurd (hr.symm.trans hs) nofun
    | prune =>
      obtain ⟨-, hframe⟩ := drops_prune b
      rw [hframe] at hs
      exact absurd (hr.symm.trans hs) nofun
    | accept generated haccepted =>
      dsimp only at hs
      rw [Array.getElem?_push] at hs
      split_ifs at hs with hq
      · exact Or.inr ⟨_, _, _, rfl, haccepted, by rw [hq], hq, (Option.some.inj hs).symm⟩
      · exact absurd (hr.symm.trans hs) nofun
    | dismiss hother =>
      have hfree : ∀ worker, ¬b.IsBusy worker place := by
        intro worker hbusy
        obtain ⟨u, hu, -⟩ := hocc worker place hbusy
        exact absurd (hr.symm.trans hu) nofun
      exact absurd ((hr.symm.trans (hother place hfree).symm).trans hs) nofun
    | cancel _ hr' _ hnew => exact (hrewritten hnew hr' hs).elim
    | refuse _ _ _ hr' _ _ hnew => exact (hrewritten hnew hr' hs).elim
    | start _ _ _ hr' _ _ hnew => exact (hrewritten hnew hr' hs).elim
    | note _ hr' hnew => exact (hrewritten hnew hr' hs).elim
    | conclude _ hr' _ hnew => exact (hrewritten hnew hr' hs).elim

theorem Occupied.status_of_isBusy
    {worker : Nat} (hb : b.Occupied) (hbusy : b.IsBusy worker place)
    (hr : b.records[place]? = some r) :
    r.status ≠ .queued ∧ r.status ≠ .cancelled := by
  obtain ⟨r', hr', hstatus⟩ := hb worker place hbusy
  obtain rfl : r' = r := Option.some.inj (hr'.symm.trans hr)
  exact hstatus

theorem Occupied.not_isBusy_of_queued
    (hb : b.Occupied) (hr : b.records[place]? = some r) (hqueued : r.status = .queued)
    (worker : Nat) :
    ¬b.IsBusy worker place :=
  fun hbusy => (hb.status_of_isBusy hbusy hr).1 hqueued

/-- A record stays as it is, or its job is cancelled while it waits, or it has been started. -/
theorem Fares.status_cases
    (hocc : b.Occupied) (hr : b.records[place]? = some r) (h : b.Fares t c place r s) :
    s = r ∨ r.status = .queued ∧ s.status = .cancelled ∨
      r.status ≠ .cancelled ∧ s.status ≠ .queued ∧ s.status ≠ .cancelled := by
  cases h with
  | stay => exact Or.inl rfl
  | cancel _ _ hqueued => exact Or.inr (Or.inl ⟨hqueued, rfl⟩)
  | refuse _ _ hlive => exact Or.inr (Or.inr ⟨hlive, nofun, nofun⟩)
  | start _ _ hlive => exact Or.inr (Or.inr ⟨hlive, nofun, nofun⟩)
  | note _ hbusy =>
    have hstatus := hocc.status_of_isBusy hbusy hr
    exact Or.inr (Or.inr ⟨hstatus.2, hstatus⟩)
  | close _ hbusy =>
    have hstatus := hocc.status_of_isBusy hbusy hr
    exact Or.inr (Or.inr ⟨hstatus.2, hstatus⟩)
  | conclude hbusy hend =>
    have hstatus := hocc.status_of_isBusy hbusy hr
    refine Or.inr (Or.inr ⟨hstatus.2, ?_⟩)
    rcases hend.status_cases with hfailed | hsucceeded | ⟨hsame, -⟩
    · rw [hfailed]
      decide
    · rw [hsucceeded]
      decide
    · rw [hsame]
      exact hstatus

/-- A job that waits has waited before, or was just accepted. -/
theorem Step.queued_cases
    (hocc : b.Occupied) (h : b.Step t c) (hs : c.records[place]? = some s)
    (hqueued : s.status = .queued) :
    b.records[place]? = some s ∨ c.jobs = b.jobs ++ [(s.id, place)] := by
  rcases h.record_cases hocc hs with ⟨r, hr, hfares⟩ | ⟨_, _, _, -, -, hjobs, -, rfl⟩
  · rcases hfares.status_cases hocc hr with rfl | ⟨-, hcancelled⟩ | ⟨-, hstarted, -⟩
    · exact Or.inl hr
    · rw [hcancelled] at hqueued
      contradiction
    · exact absurd hqueued hstarted
  · exact Or.inr hjobs

/-- A cancelled job stays as it is. -/
theorem Step.getElem?_of_cancelled
    (hocc : b.Occupied) (h : b.Step t c) (hr : b.records[place]? = some r)
    (hcancelled : r.status = .cancelled) :
    c.records[place]? = some r := by
  obtain ⟨s, hs, hfares⟩ := h.exists_fares hr
  rcases hfares.status_cases hocc hr with rfl | ⟨hqueued, -⟩ | ⟨hlive, -⟩
  · exact hs
  · rw [hcancelled] at hqueued
    contradiction
  · exact absurd hcancelled hlive

/-- A job waits on, unless it is cancelled or started. -/
theorem Step.getElem?_of_queued
    (hocc : b.Occupied) (h : b.Step t c) (hr : b.records[place]? = some r)
    (hqueued : r.status = .queued)
    (hcancel : ∀ id, b.jobs.lookup id = some place → b.event? t ≠ some (.cancelled id))
    (hstart : ∀ id, b.jobs.lookup id = some place → b.event? t ≠ some (.started id)) :
    c.records[place]? = some r := by
  have hfree := hocc.not_isBusy_of_queued hr hqueued
  obtain ⟨s, hs, hfares⟩ := h.exists_fares hr
  cases hfares with
  | stay => exact hs
  | cancel hevent hplace => exact absurd hevent (hcancel _ hplace)
  | refuse hevent hplace => exact absurd hevent (hstart _ hplace)
  | start hevent hplace => exact absurd hevent (hstart _ hplace)
  | note _ hbusy => exact absurd hbusy (hfree _)
  | conclude hbusy => exact absurd hbusy (hfree _)
  | close _ hbusy => exact absurd hbusy (hfree _)

theorem IsStarted.step
    (hplace : b.IsStarted place) (hocc : b.Occupied) (h : b.Step t c) :
    c.IsStarted place := by
  obtain ⟨r, hr, hqueued, hcancelled⟩ := hplace
  obtain ⟨s, hs, hfares⟩ := h.exists_fares hr
  refine ⟨s, hs, ?_⟩
  rcases hfares.status_cases hocc hr with rfl | ⟨hwaits, -⟩ | ⟨-, hstarted⟩
  · exact ⟨hqueued, hcancelled⟩
  · exact absurd hwaits hqueued
  · exact hstarted

/-- Whoever is at work now was so before, or has just started a job. -/
theorem Step.isBusy_cases
    {worker : Nat} (h : b.Step t c) (hbusy : c.IsBusy worker place) :
    b.IsBusy worker place ∨ c.IsStarted place := by
  cases h with
  | decline | keep | advance | rest | pass | ignore | accept | cancel | refuse | note =>
    exact Or.inl hbusy
  | prune =>
    obtain ⟨-, hframe⟩ := drops_prune b
    rw [hframe] at hbusy
    exact Or.inl hbusy
  | enter count => exact Or.inl (isBusy_admitWorkers hbusy)
  | dismiss => exact absurd hbusy (not_isBusy_of_idle (by simp) worker place)
  | start hidle hqueue hplace hr hlive hprepared hs =>
    rcases isBusy_assign_busy hbusy with ⟨-, rfl⟩ | ⟨-, hbusy⟩
    · exact Or.inr ⟨_, hs.getElem?_self, nofun, nofun⟩
    · exact Or.inl hbusy
  | conclude => exact Or.inl (isBusy_assign_idle hbusy).2

theorem Occupied.step
    (hb : b.Occupied) (h : b.Step t c) :
    c.Occupied := by
  intro worker q hbusy
  rcases h.isBusy_cases hbusy with hold | hstarted
  · exact (hb worker q hold).step hb h
  · exact hstarted

end Fares

/-! ## Runs -/

/-- The board after some turns. -/
def run (b : Board) (turns : List Turn) : Board :=
  turns.foldl turn b

/-- What is told in some turns, as far as it is asked for. -/
def told {α : Type} (b : Board) (select : Event → Option α) : List Turn → List α
  | [] => []
  | t :: turns => ((b.event? t).bind select).toList ++ (b.turn t).told select turns

theorem occupied_opened (policy : Policy) (count : Nat) : (opened policy count).Occupied :=
  fun worker place h => absurd h (not_isBusy_of_idle (by simp [opened]) worker place)

theorem run_concat (b : Board) (turns : List Turn) (t : Turn) :
    b.run (turns ++ [t]) = (b.run turns).turn t := by
  rw [run, List.foldl_append]
  rfl

theorem run_append (b : Board) (before after : List Turn) :
    b.run (before ++ after) = (b.run before).run after :=
  List.foldl_append

theorem told_concat
    {α : Type} (b : Board) (select : Event → Option α) (turns : List Turn) (t : Turn) :
    b.told select (turns ++ [t]) =
      b.told select turns ++ (((b.run turns).event? t).bind select).toList := by
  induction turns generalizing b with
  | nil => exact List.append_nil _
  | cons u turns ih =>
    rw [List.cons_append, told, told, ih, List.append_assoc]
    rfl

theorem Occupied.run
    {b : Board} (hb : b.Occupied) (turns : List Turn) :
    (b.run turns).Occupied := by
  induction turns generalizing b with
  | nil => exact hb
  | cons t turns ih => exact ih (hb.step (hb.step_turn t))

section Runs

variable {policy : Policy} {count : Nat}

theorem occupied_run (turns : List Turn) : ((opened policy count).run turns).Occupied :=
  (occupied_opened policy count).run turns

/-- What holds of a board without jobs and is kept by every step holds along every run. -/
theorem run_induction
    {motive : List Turn → Board → Prop} (start : motive [] (opened policy count))
    (step : ∀ turns t b c, b = (opened policy count).run turns → b.Occupied → b.Step t c →
      motive turns b → motive (turns ++ [t]) c)
    (turns : List Turn) :
    motive turns ((opened policy count).run turns) := by
  induction turns using List.reverseRecOn with
  | nil => exact start
  | append_singleton turns t ih =>
    have hb : ((opened policy count).run turns).Occupied := occupied_run turns
    rw [run_concat]
    exact step turns t _ _ rfl hb (hb.step_turn t) ih

end Runs

end Board

end SolidWorkshop.Job
