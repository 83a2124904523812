import SolidWorkshop.Proofs.Job.Order
import SolidWorkshop.Proofs.Lookup

/-!
# Records and artifacts

As long as no id is accepted twice, only one worker is ever at work on a job.  What is kept of the
job can then be told from the messages that this worker has heard: the log, the end of the job,
and the bytes of the artifact, whose file carries the name of the job and no other.
-/

namespace SolidWorkshop.Job

/-- The message that is heard of the record at a place. -/
def Event.heard? (place : Nat) : Event → Option Reply
  | .heard own reply => if own = place then some reply else none
  | _ => none

/-- The line that the last message of a compile leaves in the log. -/
def errorLines : Reply → List LogLine
  | .error message _ => [.error message]
  | _ => []

namespace Record

/-- The lines of the log. -/
def lines (r : Record) : List LogLine :=
  r.logs.map (·.line)

/-- The record has nothing of the end of a job. -/
structure IsOpen (r : Record) : Prop where
  result : r.result = none
  fault : r.fault = none
  artifact : r.artifact = none

/-- The record is that of a failed job. -/
structure HasFailed (r : Record) : Prop where
  status : r.status = .failed
  progress : r.progress = 100
  result : r.result = none
  fault : r.fault.isSome
  artifact : r.artifact = none

/-- The record is that of a job that has succeeded with a result. -/
structure HasSucceeded (r : Record) (result : CompileResult) : Prop where
  status : r.status = .succeeded
  progress : r.progress = 100
  result : r.result = some result
  fault : r.fault = none
  artifact : r.artifact = some (Board.artifactName r.id)

theorem lines_note (r : Record) (line : LogLine) (now : Instant) :
    (r.note line now).lines = r.lines ++ [line] :=
  List.map_append

theorem IsOpen.hasFailed
    {r : Record} (h : r.IsOpen) (message : String) (status : Int) (now : Instant) :
    ((r.fail message status).close now).HasFailed :=
  ⟨rfl, rfl, h.result, rfl, h.artifact⟩

end Record

namespace Board

/-- A record agrees with the messages that were heard of it, and its artifact, while the job is
known, with the file of this name. -/
structure Coherent (b : Board) (heard : List Reply) (place : Nat) (r : Record) : Prop where
  succeeded : r.status = .succeeded ↔ r.result.isSome
  failed : r.status = .failed ↔ r.fault.isSome
  complete : r.progress = 100 ↔ r.status = .succeeded ∨ r.status = .failed
  fault : r.fault.isSome → r.result = none
  /-- The result, with its size and digest, is that of the bytes of the last message. -/
  result : ∀ result, r.result = some result →
    r.fault = none ∧ ∃ overrides content exitCode elapsed,
      heard.getLast? = some (.result content exitCode elapsed) ∧
      result = b.resultFor r.id overrides content exitCode elapsed ∧
      ((r.id, place) ∈ b.jobs → b.artifacts.lookup (artifactName r.id) = some content)
  /-- The log has the lines that were heard, and after them the error if there was one. -/
  logs : ∃ (lines : List LogLine) (last : Option Reply),
    heard = lines.map .log ++ last.toList ∧ (∀ reply ∈ last, reply.isTerminal = true) ∧
      r.lines = lines ++ last.toList.flatMap errorLines

/-! ## What was heard of a record -/

/-- What is kept of a job by what was heard of it. -/
inductive Account (b : Board) (r : Record) (heard : List Reply) : Prop
  | waiting (hstatus : r.status = .queued ∨ r.status = .cancelled) (hopen : r.IsOpen)
    (hprogress : r.progress = 0) (hlines : r.lines = []) (hheard : heard = [])
  | running (hstatus : r.status = .running) (hopen : r.IsOpen) (hprogress : r.progress = 10)
    (hheard : heard = r.lines.map .log)
  | failed (lines : List LogLine) (last : Option Reply) (hfailed : r.HasFailed)
    (hlast : ∀ reply ∈ last, reply.isTerminal = true)
    (hlines : r.lines = lines ++ last.toList.flatMap errorLines)
    (hheard : heard = lines.map .log ++ last.toList)
  | succeeded (overrides : List Override) (content : ByteArray) (exitCode : Option Int)
    (elapsed : Binary64)
    (hsucceeded : r.HasSucceeded (b.resultFor r.id overrides content exitCode elapsed))
    (hheard : heard = r.lines.map .log ++ [.result content exitCode elapsed])

section Account

variable {b c : Board} {t : Turn} {place : Nat} {r s : Record} {heard : List Reply}

theorem heard?_of_isBusy
    {worker : Nat} {reply : Reply} (ht : t.heard? = some (worker, reply))
    (hbusy : b.IsBusy worker place) :
    (b.event? t).bind (Event.heard? place) = some reply := by
  rw [event?_of_isBusy ht hbusy]
  exact if_pos rfl

theorem heard?_of_deaf
    (hdeaf : ∀ worker reply, t.heard? = some (worker, reply) → ¬b.IsBusy worker place) :
    (b.event? t).bind (Event.heard? place) = none := by
  rw [Option.bind_eq_none_iff]
  intro event hevent
  cases event with
  | heard own reply =>
    apply if_neg
    rintro rfl
    obtain ⟨worker, ht, hbusy⟩ := exists_isBusy_of_event? hevent
    exact hdeaf worker reply ht hbusy
  | accepted | cancelled | started => rfl

theorem resultFor_of_policy
    (h : c.policy = b.policy) (id : String) (overrides : List Override) (content : ByteArray)
    (exitCode : Option Int) (elapsed : Binary64) :
    c.resultFor id overrides content exitCode elapsed =
      b.resultFor id overrides content exitCode elapsed := by
  rw [resultFor, resultFor, artifactPath, artifactPath, h]

theorem Account.of_policy
    (ha : b.Account r heard) (h : c.policy = b.policy) :
    c.Account r heard := by
  cases ha with
  | waiting hstatus hopen hprogress hlines hheard =>
    exact .waiting hstatus hopen hprogress hlines hheard
  | running hstatus hopen hprogress hheard => exact .running hstatus hopen hprogress hheard
  | failed lines last hfailed hlast hlines hheard =>
    exact .failed lines last hfailed hlast hlines hheard
  | succeeded overrides content exitCode elapsed hsucceeded hheard =>
    rw [← resultFor_of_policy h] at hsucceeded
    exact .succeeded overrides content exitCode elapsed hsucceeded hheard

theorem Account.of_queued
    (ha : b.Account r heard) (hqueued : r.status = .queued) :
    r.IsOpen ∧ r.progress = 0 ∧ r.lines = [] ∧ heard = [] := by
  cases ha with
  | waiting _ hopen hprogress hlines hheard => exact ⟨hopen, hprogress, hlines, hheard⟩
  | running hstatus => exact absurd (hqueued.symm.trans hstatus) nofun
  | failed _ _ hfailed => exact absurd (hqueued.symm.trans hfailed.status) nofun
  | succeeded _ _ _ _ hsucceeded => exact absurd (hqueued.symm.trans hsucceeded.status) nofun

theorem Account.of_running
    (ha : b.Account r heard) (hrunning : r.status = .running) :
    r.IsOpen ∧ r.progress = 10 ∧ heard = r.lines.map .log := by
  cases ha with
  | waiting hstatus =>
    rw [hrunning] at hstatus
    rcases hstatus with hstatus | hstatus
    · contradiction
    · contradiction
  | running _ hopen hprogress hheard => exact ⟨hopen, hprogress, hheard⟩
  | failed _ _ hfailed => exact absurd (hrunning.symm.trans hfailed.status) nofun
  | succeeded _ _ _ _ hsucceeded => exact absurd (hrunning.symm.trans hsucceeded.status) nofun

theorem Sound.status_of_isBusy
    {worker : Nat} (hb : b.Sound) (hbusy : b.IsBusy worker place)
    (hr : b.records[place]? = some r) :
    r.status = .running := by
  obtain ⟨r', hr', hrunning⟩ := hb.working worker place hbusy
  rw [Option.some.inj (hr.symm.trans hr')]
  exact hrunning

/-- Who is started has waited. -/
theorem Sound.queued_of_started
    (hb : b.Sound) (h : b.Step t c) {id : String} (hevent : b.event? t = some (.started id))
    (hplace : b.jobs.lookup id = some place) (hr : b.records[place]? = some r)
    (hlive : r.status ≠ .cancelled) :
    r.status = .queued :=
  (hb.waiting id place r (mem_of_lookup hplace) (h.mem_queue_of_started hevent) hr).resolve_right
    hlive

/-- What is kept of a job that a worker is done with. -/
theorem Ends.account
    {worker : Nat} {overrides : List Override} {artifacts : List (String × ByteArray)}
    (h : b.Ends worker overrides r t s artifacts) (hbusy : b.IsBusy worker place)
    (hrunning : r.status = .running) (hopen : r.IsOpen) :
    b.Account s (r.lines.map .log ++ ((b.event? t).bind (Event.heard? place)).toList) := by
  cases h with
  | @error message status =>
    rw [heard?_of_isBusy rfl hbusy]
    have hnoted : (r.note (.error message) b.now).IsOpen :=
      ⟨hopen.result, hopen.fault, hopen.artifact⟩
    refine .failed r.lines (some (.error message status)) (hnoted.hasFailed _ _ _) ?_ ?_ rfl
    · simp [Reply.isTerminal]
    · exact Record.lines_note _ _ _
  | @stored content exitCode elapsed =>
    rw [heard?_of_isBusy rfl hbusy]
    exact .succeeded overrides content exitCode elapsed ⟨rfl, rfl, rfl, hopen.fault, rfl⟩ rfl
  | lost ht hr =>
    rw [heard?_of_isBusy ht hbusy]
    refine .failed r.lines (some (.result _ _ _)) (hopen.hasFailed _ _ _) ?_ ?_ rfl
    · simp [Reply.isTerminal]
    · exact (List.append_nil _).symm
  | @unfinished line =>
    rw [heard?_of_isBusy rfl hbusy, if_pos hrunning]
    have hnoted : (b.noted r line).IsOpen := ⟨hopen.result, hopen.fault, hopen.artifact⟩
    refine .failed (r.lines ++ [line]) none (hnoted.hasFailed _ _ _) (by simp) ?_ ?_
    · exact (Record.lines_note _ _ _).trans (List.append_nil _).symm
    · simp
  | deserted =>
    exact .failed r.lines none (hopen.hasFailed _ _ _) (by simp) (List.append_nil _).symm rfl

/-- Every step keeps the account of a job. -/
theorem Account.step
    (ha : b.Account r heard) (hb : b.Sound) (h : b.Step t c) (hr : b.records[place]? = some r)
    (hfares : b.Fares t c place r s) :
    c.Account s (heard ++ ((b.event? t).bind (Event.heard? place)).toList) := by
  apply Account.of_policy _ h.policy_eq
  cases hfares with
  | stay hdeaf =>
    rw [heard?_of_deaf hdeaf, Option.toList_none, List.append_nil]
    exact ha
  | cancel hevent _ hqueued =>
    obtain ⟨hopen, hprogress, hlines, rfl⟩ := ha.of_queued hqueued
    rw [hevent]
    exact .waiting (Or.inr rfl) ⟨hopen.result, hopen.fault, hopen.artifact⟩ hprogress hlines rfl
  | refuse hevent hplace hlive =>
    have hqueued := hb.queued_of_started h hevent hplace hr hlive
    obtain ⟨hopen, -, hlines, rfl⟩ := ha.of_queued hqueued
    rw [hevent]
    have hstarted : (r.start b.now).IsOpen := ⟨hopen.result, hopen.fault, hopen.artifact⟩
    exact .failed [] none (hstarted.hasFailed _ _ _) (by simp) hlines rfl
  | start hevent hplace hlive =>
    have hqueued := hb.queued_of_started h hevent hplace hr hlive
    obtain ⟨hopen, -, hlines, rfl⟩ := ha.of_queued hqueued
    rw [hevent]
    refine .running rfl ⟨hopen.result, hopen.fault, hopen.artifact⟩ rfl ?_
    change [] = r.lines.map Reply.log
    rw [hlines]
    rfl
  | note ht hbusy =>
    have hrunning := hb.status_of_isBusy hbusy hr
    obtain ⟨hopen, hprogress, rfl⟩ := ha.of_running hrunning
    obtain rfl := ht
    rw [heard?_of_isBusy rfl hbusy]
    refine .running hrunning ⟨hopen.result, hopen.fault, hopen.artifact⟩ hprogress ?_
    change _ = (r.note _ b.now).lines.map Reply.log
    rw [Record.lines_note, List.map_append]
    rfl
  | conclude hbusy hend =>
    have hrunning := hb.status_of_isBusy hbusy hr
    obtain ⟨hopen, -, rfl⟩ := ha.of_running hrunning
    exact hend.account hbusy hrunning hopen
  | close ht hbusy =>
    have hrunning := hb.status_of_isBusy hbusy hr
    obtain ⟨hopen, hprogress, rfl⟩ := ha.of_running hrunning
    obtain rfl := ht
    exact .running hrunning ⟨hopen.result, hopen.fault, hopen.artifact⟩ hprogress
      (List.append_nil _)

end Account

/-! ## The files of artifacts -/

/-- Records have ids of their own, all of them accepted. -/
structure Distinct (b : Board) (accepted : List String) : Prop where
  accepted : ∀ (place : Nat) (r : Record), b.records[place]? = some r → r.id ∈ accepted
  place_eq : ∀ (p q : Nat) (r s : Record), b.records[p]? = some r → b.records[q]? = some s →
    r.id = s.id → p = q

/-- The artifacts of known jobs have the names of these jobs. -/
def NamesFiles (b : Board) : Prop :=
  ∀ (id : String) (place : Nat) (r : Record) (name : String), (id, place) ∈ b.jobs →
    b.records[place]? = some r → r.artifact = some name → name = artifactName id

section Files

variable {b c : Board} {t : Turn} {place : Nat} {r s : Record} {accepted : List String}
  {id : String}

theorem Distinct.step
    (hb : b.Distinct accepted) (hocc : b.Occupied) (h : b.Step t c)
    (honce : (accepted ++ ((b.event? t).bind Event.accepted?).toList).Nodup) :
    c.Distinct (accepted ++ ((b.event? t).bind Event.accepted?).toList) := by
  have hapart := (List.nodup_append.mp honce).2.2
  have hrecord : ∀ (place : Nat) (s : Record), c.records[place]? = some s →
      (∃ r : Record, b.records[place]? = some r ∧ s.id = r.id) ∨
        place = b.records.size ∧ b.event? t = some (.accepted s.id) := by
    intro place s hs
    rcases h.record_cases hocc hs with ⟨r, hr, hfares⟩ | ⟨request, asked, id, rfl, hok, -, hq, rfl⟩
    · exact Or.inl ⟨r, hr, hfares.id_eq⟩
    · exact Or.inr ⟨hq, event?_of_ok hok⟩
  have hnew : ∀ id, b.event? t = some (.accepted id) → id ∉ accepted := by
    intro id hevent hmem
    refine hapart id hmem id ?_ rfl
    rw [hevent]
    exact List.mem_singleton_self id
  constructor
  · intro place s hs
    rcases hrecord place s hs with ⟨r, hr, hid⟩ | ⟨-, hevent⟩
    · rw [hid]
      exact List.mem_append_left _ (hb.accepted place r hr)
    · rw [hevent]
      exact List.mem_append_right _ (List.mem_singleton_self _)
  · intro p q u v hu hv heq
    rcases hrecord p u hu with ⟨r, hr, hid⟩ | ⟨hp, hevent⟩
    · rcases hrecord q v hv with ⟨r', hr', hid'⟩ | ⟨-, hevent'⟩
      · exact hb.place_eq p q r r' hr hr' (hid.symm.trans (heq.trans hid'))
      · rw [← heq, hid] at hevent'
        exact absurd (hb.accepted p r hr) (hnew _ hevent')
    · rcases hrecord q v hv with ⟨r', hr', hid'⟩ | ⟨hq, -⟩
      · rw [heq, hid'] at hevent
        exact absurd (hb.accepted q r' hr') (hnew _ hevent)
      · exact hp.trans hq.symm

theorem artifactName_ne
    {other : String} (hne : id ≠ other) :
    artifactName id ≠ artifactName other :=
  fun h => hne ((String.append_left_inj ".stl").mp h)

theorem lookup_drop
    (hb : b.NamesFiles) {first : String} (hne : id ≠ first) :
    (b.drop first).artifacts.lookup (artifactName id) = b.artifacts.lookup (artifactName id) := by
  unfold drop
  dsimp only
  split
  · next name hname =>
    obtain ⟨r, hfind, hartifact⟩ := Option.bind_eq_some_iff.mp hname
    obtain ⟨place, hplace, hr⟩ := Option.bind_eq_some_iff.mp hfind
    obtain rfl := hb first place r name (mem_of_lookup hplace) hr hartifact
    exact lookup_filter_of_ne _ (artifactName_ne hne)
  · rfl

theorem lookup_foldl_drop
    {ids : List String} (hb : b.NamesFiles) (hid : id ∉ ids) :
    (ids.foldl drop b).artifacts.lookup (artifactName id) =
      b.artifacts.lookup (artifactName id) := by
  induction ids generalizing b with
  | nil => rfl
  | cons first ids ih =>
    rw [List.mem_cons, not_or] at hid
    obtain ⟨hjobs, hframe⟩ := drops_drop b first
    have hfirst : (b.drop first).NamesFiles := by
      intro other place r name hjob hr hartifact
      rw [hframe] at hr
      exact hb other place r name (hjobs _ hjob) hr hartifact
    rw [List.foldl_cons, ih hfirst hid.2, lookup_drop hb hid.1]

/-- Pruning leaves the files of the jobs that stay known. -/
theorem lookup_prune
    (hb : b.NamesFiles) (hjob : (id, place) ∈ b.prune.jobs) :
    b.prune.artifacts.lookup (artifactName id) = b.artifacts.lookup (artifactName id) := by
  rw [prune_eq_foldl] at hjob ⊢
  rw [jobs_foldl_drop, List.mem_filter] at hjob
  exact lookup_foldl_drop hb (of_decide_eq_true hjob.2)

theorem lookup_leftovers
    (hr : b.records[place]? = some r) (hne : id ≠ r.id) (left : Option ByteArray) :
    (b.leftovers place left).lookup (artifactName id) = b.artifacts.lookup (artifactName id) := by
  unfold leftovers
  rw [hr]
  cases left with
  | none => rfl
  | some content => exact lookup_setEntry_of_ne (artifactName_ne hne) _ _

/-- A worker that is done with a job writes no file but that of this job. -/
theorem Ends.lookup_artifacts
    {worker : Nat} {overrides : List Override} {artifacts : List (String × ByteArray)}
    (h : b.Ends worker overrides r t s artifacts) (hne : id ≠ r.id) :
    artifacts.lookup (artifactName id) = b.artifacts.lookup (artifactName id) := by
  cases h with
  | error | unfinished | deserted => rfl
  | stored => exact lookup_setEntry_of_ne (artifactName_ne hne) _ _
  | lost ht hr => exact lookup_leftovers hr hne _

/-- The file of a job that nobody is at work on stays as it is while the job is known. -/
theorem Step.lookup_artifacts
    (hb : b.NamesFiles) (hdistinct : b.Distinct accepted) (h : b.Step t c)
    (hr : b.records[place]? = some r) (hjob : (r.id, place) ∈ c.jobs)
    (hfree : ∀ worker, ¬b.IsBusy worker place) :
    c.artifacts.lookup (artifactName r.id) = b.artifacts.lookup (artifactName r.id) := by
  cases h with
  | prune => exact lookup_prune hb hjob
  | @conclude _ worker own overrides other _ _ _ hbusy hother hend =>
    apply hend.lookup_artifacts
    intro hsame
    obtain rfl := hdistinct.place_eq place own r other hr hother hsame
    exact hfree worker ⟨overrides, hbusy⟩
  | _ => rfl

theorem Step.mem_jobs_of_record
    (h : b.Step t c) (hr : b.records[place]? = some r) (hjob : (id, place) ∈ c.jobs) :
    (id, place) ∈ b.jobs := by
  cases h with
  | accept =>
    rcases List.mem_append.mp hjob with hjob | hjob
    · exact hjob
    · obtain ⟨-, hplace⟩ := Prod.mk.inj (List.mem_singleton.mp hjob)
      exact absurd hplace (ne_size_of_getElem? hr)
  | prune => exact (drops_prune b).jobs _ hjob
  | _ => exact hjob

end Files

/-! ## The invariant -/

/-- Every record is accounted for by what was heard of it, and the files of the known jobs that
have succeeded have the bytes that were heard. -/
structure Kept (b : Board) (heard : Nat → List Reply) : Prop where
  account : ∀ (place : Nat) (r : Record), b.records[place]? = some r → b.Account r (heard place)
  silent : ∀ place : Nat, b.records[place]? = none → heard place = []
  filed : ∀ (place : Nat) (r : Record) (content : ByteArray) (exitCode : Option Int)
    (elapsed : Binary64), b.records[place]? = some r → r.status = .succeeded →
    (r.id, place) ∈ b.jobs → (heard place).getLast? = some (.result content exitCode elapsed) →
    b.artifacts.lookup (artifactName r.id) = some content

section Kept

variable {b c : Board} {t : Turn} {place : Nat} {r s : Record} {heard : Nat → List Reply}
  {accepted : List String}

theorem Kept.namesFiles
    (hb : b.Kept heard) (hnamed : b.Named) :
    b.NamesFiles := by
  intro id place r name hjob hr hartifact
  rw [← hnamed.id_eq hjob hr]
  cases hb.account place r hr with
  | waiting _ hopen => exact absurd (hopen.artifact.symm.trans hartifact) nofun
  | running _ hopen => exact absurd (hopen.artifact.symm.trans hartifact) nofun
  | failed _ _ hfailed => exact absurd (hfailed.artifact.symm.trans hartifact) nofun
  | succeeded _ _ _ _ hsucceeded =>
    exact (Option.some.inj (hsucceeded.artifact.symm.trans hartifact)).symm

/-- A job that has succeeded has done so before, or its worker has just heard of the result and
has written the file. -/
theorem Fares.succeeded_cases
    (hb : b.Sound) (hr : b.records[place]? = some r) (h : b.Fares t c place r s)
    (hsucceeded : s.status = .succeeded) :
    (s = r ∧ (b.event? t).bind (Event.heard? place) = none) ∨
      ∃ content exitCode elapsed,
        (b.event? t).bind (Event.heard? place) = some (.result content exitCode elapsed) ∧
        c.artifacts.lookup (artifactName r.id) = some content := by
  cases h with
  | stay hdeaf => exact Or.inl ⟨rfl, heard?_of_deaf hdeaf⟩
  | cancel | refuse | start => contradiction
  | note _ hbusy => exact absurd ((hb.status_of_isBusy hbusy hr).symm.trans hsucceeded) nofun
  | close _ hbusy => exact absurd ((hb.status_of_isBusy hbusy hr).symm.trans hsucceeded) nofun
  | conclude hbusy hend =>
    generalize c.artifacts = artifacts at hend ⊢
    cases hend with
    | error | lost | deserted => contradiction
    | stored =>
      exact Or.inr ⟨_, _, _, heard?_of_isBusy rfl hbusy, lookup_setEntry_self _ _ _⟩
    | unfinished =>
      rw [if_pos (hb.status_of_isBusy hbusy hr)] at hsucceeded
      contradiction

theorem Kept.step
    (hb : b.Kept heard) (hsound : b.Sound) (hnamed : b.Named) (hocc : b.Occupied)
    (hdistinct : b.Distinct accepted) (h : b.Step t c) :
    c.Kept fun place => heard place ++ ((b.event? t).bind (Event.heard? place)).toList := by
  have hsilent : ∀ place : Nat, b.records[place]? = none →
      (b.event? t).bind (Event.heard? place) = none := by
    intro place hnone
    apply heard?_of_deaf
    intro worker _ _ hbusy
    obtain ⟨r, hr, -⟩ := hocc worker place hbusy
    exact absurd (hnone.symm.trans hr) nofun
  refine ⟨?_, ?_, ?_⟩
  · intro place s hs
    rcases h.record_cases hocc hs with ⟨r, hr, hfares⟩ | ⟨_, _, _, -, -, -, rfl, rfl⟩
    · exact (hb.account place r hr).step hsound h hr hfares
    · have hnone : b.records[b.records.size]? = none := Array.getElem?_size
      rw [hb.silent _ hnone, hsilent _ hnone]
      exact .waiting (Or.inl rfl) ⟨rfl, rfl, rfl⟩ rfl rfl rfl
  · intro place hnone
    have hold : b.records[place]? = none := by
      cases hr : b.records[place]? with
      | none => rfl
      | some r =>
        obtain ⟨s, hs, -⟩ := h.exists_fares hr
        exact absurd (hnone.symm.trans hs) nofun
    rw [hb.silent place hold, hsilent place hold]
    rfl
  · intro place s content exitCode elapsed hs hsucceeded hjob hlast
    rcases h.record_cases hocc hs with ⟨r, hr, hfares⟩ | ⟨_, _, _, -, -, -, -, rfl⟩
    · rcases hfares.succeeded_cases hsound hr hsucceeded with
        ⟨rfl, hnone⟩ | ⟨content', exitCode', elapsed', hheard, hfile⟩
      · have hfree := hsound.not_isBusy hr (by rw [hsucceeded]; decide)
        rw [hnone, Option.toList_none, List.append_nil] at hlast
        rw [h.lookup_artifacts (hb.namesFiles hnamed) hdistinct hr hjob hfree]
        exact hb.filed place s content exitCode elapsed hr hsucceeded
          (h.mem_jobs_of_record hr hjob) hlast
      · rw [hheard, Option.toList_some, List.getLast?_concat] at hlast
        obtain ⟨rfl, -⟩ := Reply.result.inj (Option.some.inj hlast)
        rw [hfares.id_eq]
        exact hfile
    · contradiction

theorem coherent_of_isOpen
    {heard : List Reply} (hopen : r.IsOpen) (hstatus : r.status ≠ .succeeded ∧ r.status ≠ .failed)
    (hprogress : r.progress ≠ 100) (hheard : heard = r.lines.map .log) :
    b.Coherent heard place r where
  succeeded := by simp [hstatus.1, hopen.result]
  failed := by simp [hstatus.2, hopen.fault]
  complete := by simp [hstatus, hprogress]
  fault _ := hopen.result
  result result hresult := by
    rw [hopen.result] at hresult
    contradiction
  logs := ⟨r.lines, none, by simp [hheard], by simp, by simp⟩

/-- What is accounted for is coherent, if the file of a known job that has succeeded is there. -/
theorem Account.coherent
    {heard : List Reply} (ha : b.Account r heard)
    (hfiled : ∀ content exitCode elapsed, r.status = .succeeded → (r.id, place) ∈ b.jobs →
      heard.getLast? = some (.result content exitCode elapsed) →
      b.artifacts.lookup (artifactName r.id) = some content) :
    b.Coherent heard place r := by
  cases ha with
  | waiting hstatus hopen hprogress hlines hheard =>
    apply coherent_of_isOpen hopen
    · rcases hstatus with hqueued | hcancelled
      · rw [hqueued]
        decide
      · rw [hcancelled]
        decide
    · rw [hprogress]
      decide
    · rw [hheard, hlines]
      rfl
  | running hstatus hopen hprogress hheard =>
    apply coherent_of_isOpen hopen
    · rw [hstatus]
      decide
    · rw [hprogress]
      decide
    · exact hheard
  | failed lines last hfailed hlast hlines hheard =>
    exact {
      succeeded := by simp [hfailed.status, hfailed.result]
      failed := by simp [hfailed.status, hfailed.fault]
      complete := by simp [hfailed.status, hfailed.progress]
      fault := fun _ => hfailed.result
      result := fun result hresult => absurd (hfailed.result.symm.trans hresult) nofun
      logs := ⟨lines, last, hheard, hlast, hlines⟩ }
  | succeeded overrides content exitCode elapsed hsucceeded hheard =>
    have hend : heard.getLast? = some (.result content exitCode elapsed) := by
      rw [hheard, List.getLast?_concat]
    exact {
      succeeded := by simp [hsucceeded.status, hsucceeded.result]
      failed := by simp [hsucceeded.status, hsucceeded.fault]
      complete := by simp [hsucceeded.status, hsucceeded.progress]
      fault := fun h => by simp [hsucceeded.fault] at h
      result := fun result hresult => ⟨hsucceeded.fault, overrides, content, exitCode, elapsed,
        hend, Option.some.inj (hresult.symm.trans hsucceeded.result),
        fun hjob => hfiled content exitCode elapsed hsucceeded.status hjob hend⟩
      logs := ⟨r.lines, some (.result content exitCode elapsed), hheard,
        by simp [Reply.isTerminal], (List.append_nil _).symm⟩ }

end Kept

/-! ## Runs -/

section Runs

variable {policy : Policy} {count : Nat} {turns : List Turn}

end Runs

end Board

end SolidWorkshop.Job
