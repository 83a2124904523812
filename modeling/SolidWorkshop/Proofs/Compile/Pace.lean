import SolidWorkshop.Proofs.Compile.Turn
import SolidWorkshop.Proofs.Flight.Caller

/-!
# Errands and stages

An errand goes through the stages of a compile.  Once it may build, it can build in its workspace as
a compile does, start the process, and come to the end that the run of a compile comes to, with the
same workspaces given back.
-/

namespace SolidWorkshop.Compile.Errand

open Engine

/-- One errand leads to another by what happens in between. -/
def Leads (p : Purpose) (s t : Errand) : Prop :=
  ∃ events, s.run? p events = some t

section Asking

variable {κ ν : Type} [DecidableEq κ]

/-- A waiter can be told whatever there may be to tell. -/
def CanBeTold (moves : List (Flight.Move κ ν)) (waiter : Nat) : Prop :=
  ∀ answer, ∃ later, told? (later ++ moves) waiter = some answer

/-- What is stored of a key is known, and if it is nothing nobody is at work on the key. -/
structure Shows (moves : List (Flight.Move κ ν)) (key : κ) (stored : Option ν) : Prop where
  peek? : (Flight.State.after moves).peek? key = stored
  isVacant : stored = none → (Flight.State.after moves).IsVacant key

end Asking

/-- The run of an errand, before it is connected to its process, is the run of a build. -/
structure Runs (s : Errand) (a : Attempt) (r : Build) : Prop where
  wait : s.wait = .connection a
  process : s.process = .running
  isClosed : s.isClosed = false
  watched : s.watched = none
  isLate : s.isLate = false
  workspace : s.workspace = r.workspace
  isPresent : r.workspace.isPresent = true
  definitions : a.definitions = r.definitions
  since : a.since = r.since
  /-- Without time there is but one end. -/
  finish : isNoTime a.limit = true → r.finish = .timedOut

/-- The worker waits for the end of a process that has been stopped, and its streams are open. -/
structure Lingers (s : Errand) : Prop where
  wait : ∃ a sequel, s.wait = .exit a sequel
  process : s.process = .ended
  isClosed : s.isClosed = false
  isPresent : s.workspace.isPresent = true

/-- How far an errand has come, and how many workspaces have been left on the bench: as many as
before, and its own once it has ended without giving it back. -/
def Stands (kept : Nat) (b : Bench) (s : Errand) : Stage → Prop
  | .loading _ =>
    (∃ waiter, s.wait = .engine waiter ∧ CanBeTold s.loads waiter) ∧
      Shows s.libraries b.library.key (b.libraries.peek? b.library.key) ∧
      s.workspace = .removed ∧ b.kept = kept
  | .resolving engine _ =>
    (∃ waiter, s.wait = .library engine waiter ∧ CanBeTold s.libraries waiter) ∧
      s.workspace = .removed ∧ b.kept = kept
  | .building r => (∃ a, s.Runs a r) ∧ b.kept = kept
  | .stopping => s.Lingers ∧ b.kept = kept
  | .ended outcome => s.wait = .past outcome ∧ b.kept = kept + s.workspace.isPresent.toNat

/-- An errand is run on a bench, and followed by its consumer. -/
structure Attends (p : Purpose) (b : Bench) (s : Errand) : Prop where
  library : p.library = b.library
  keepWorkspaces : p.keepWorkspaces = b.limits.keepWorkspaces
  clock : s.clock = b.clock
  consumer : s.consumer = .following

/-- An errand keeps pace with a compile on a bench. -/
structure KeepsPace (p : Purpose) (kept : Nat) (b : Bench) (stage : Stage) (s : Errand) : Prop
    extends Attends p b s where
  isCancelled : s.isCancelled = false
  stands : s.Stands kept b stage

variable {p : Purpose} {kept : Nat} {b : Bench} {s t u : Errand} {a : Attempt} {r : Build}
  {refusal : Option Refusal} {sequel : Sequel}

namespace Leads

theorem refl (p : Purpose) (s : Errand) : Leads p s s :=
  ⟨[], rfl⟩

theorem step
    {e : Event} (hstep : s.step? p e = some t) (h : Leads p t u) :
    Leads p s u := by
  obtain ⟨events, hrun⟩ := h
  refine ⟨e :: events, ?_⟩
  rw [run?, List.foldlM_cons, hstep]
  exact hrun

theorem work
    (hwork : s.work p refusal = some t) (h : Leads p t u) :
    Leads p s u :=
  h.step (e := .work refusal) hwork

theorem trans
    (hs : Leads p s t) (ht : Leads p t u) :
    Leads p s u := by
  obtain ⟨events, hrun⟩ := hs
  obtain ⟨later, hlater⟩ := ht
  refine ⟨events ++ later, ?_⟩
  rw [run?, List.foldlM_append]
  exact Option.bind_eq_some_iff.mpr ⟨t, hrun, hlater⟩

/-- What happens to the engines being loaded happens to nobody else. -/
theorem loads (later : List (Flight.Move Unit Loaded)) :
    Leads p s { s with loads := later ++ s.loads } := by
  induction later with
  | nil => exact refl p s
  | cons move later ih => exact ih.trans (.step (e := .load move) rfl (refl p _))

/-- What happens to the libraries being resolved happens to nobody else. -/
theorem libraries (later : List (Flight.Move Library.Key Library.Files)) :
    Leads p s { s with libraries := later ++ s.libraries } := by
  induction later with
  | nil => exact refl p s
  | cons move later ih => exact ih.trans (.step (e := .resolve move) rfl (refl p _))

end Leads

/-! ## The end of a run -/

theorem Attends.giveBack
    (h : s.Attends p b) :
    s.Attends p b.giveBack := by
  unfold Bench.giveBack
  split_ifs
  · exact ⟨h.library, h.keepWorkspaces, h.clock, h.consumer⟩
  · exact h

/-- An errand that has a workspace gives it back as the bench does. -/
theorem Attends.kept_giveBack
    (h : s.Attends p b) (hkept : b.kept = kept) (hpresent : t.workspace.isPresent = true)
    (outcome : Ended) :
    b.giveBack.kept = kept + (t.finish p outcome).workspace.isPresent.toNat := by
  unfold Errand.finish Bench.giveBack
  rw [h.keepWorkspaces]
  split_ifs
  · simp [hkept, hpresent]
  · simp [hkept, Workspace.removed]

theorem Attends.finish
    (h : s.Attends p b) (hkept : b.kept = kept) (hpresent : s.workspace.isPresent = true)
    (outcome : Ended) :
    (s.finish p outcome).KeepsPace p kept b.giveBack (.ended outcome) := by
  obtain ⟨hlibrary, hkeep, hclock, hconsumer⟩ := h.giveBack
  exact ⟨⟨hlibrary, hkeep, hclock, hconsumer⟩, rfl, rfl, h.kept_giveBack hkept hpresent outcome⟩

/-- What a run has left is collected by an errand as from a build. -/
theorem Attends.collect
    (h : s.Attends p b) (hkept : b.kept = kept) (hworkspace : s.workspace = r.workspace)
    (hpresent : r.workspace.isPresent = true) (hdefinitions : a.definitions = r.definitions)
    (hsince : a.since = r.since) (status : Int) :
    (s.conclude p a status .collect).KeepsPace p kept (collect b r status).bench
      (collect b r status).stage := by
  have hcollect : (Compile.collect b r status).bench = b.giveBack ∧
      (Compile.collect b r status).stage = .ended (s.bring a status) := by
    unfold Compile.collect bring
    rw [hworkspace, h.clock, hdefinitions, hsince]
    cases r.workspace.read [outputFile] with
    | error failure => exact ⟨rfl, rfl⟩
    | ok content =>
      cases content with
      | _ => exact ⟨rfl, rfl⟩
  rw [hcollect.1, hcollect.2]
  exact h.finish hkept (by rw [hworkspace, hpresent]) _

/-- An errand comes from here to its conclusion, with its workspace as it is. -/
def LeadsTo (p : Purpose) (s : Errand) (a : Attempt) (status : Int) (sequel : Sequel) : Prop :=
  ∃ t : Errand, Leads p s (t.conclude p a status sequel) ∧
    t.workspace = s.workspace ∧ t.clock = s.clock ∧ t.consumer = s.consumer

/-- The process of an errand is stopped, and its end is waited for. -/
structure IsStopped (s : Errand) (a : Attempt) (sequel : Sequel) (t : Errand) : Prop where
  wait : t.wait = .exit a sequel
  process : t.process = .ended
  isCancelled : t.isCancelled = false
  isClosed : t.isClosed = s.isClosed
  workspace : t.workspace = s.workspace
  clock : t.clock = s.clock
  consumer : t.consumer = s.consumer

/-- An errand comes from here to where its process has been stopped. -/
def LeadsToStop (p : Purpose) (s : Errand) (a : Attempt) (sequel : Sequel) : Prop :=
  ∃ t, Leads p s t ∧ s.IsStopped a sequel t

/-- A run that has been stopped is over once nobody holds its streams open. -/
theorem LeadsToStop.leadsTo
    (h : s.LeadsToStop p a sequel) :
    s.LeadsTo p a stoppedStatus sequel := by
  obtain ⟨t, hleads, hstopped⟩ := h
  let noted : Errand := { t with process := .noted stoppedStatus }
  let closed : Errand := { noted with isClosed := true }
  have hnote : t.step? p (.note stoppedStatus) = some noted := by
    simp [step?, hstopped.process, noted]
  have hclose : noted.step? p .close = some closed := rfl
  have hend : closed.work p none = some (closed.conclude p a stoppedStatus sequel) := by
    simp [work, hstopped.wait, hstopped.isCancelled, closed, noted]
  exact ⟨closed, hleads.trans (.step hnote (.step hclose (.work hend (.refl p _)))),
    hstopped.workspace, hstopped.clock, hstopped.consumer⟩

theorem leadsToStop_of_terminate
    (hprocess : s.process = .running) (hwork : s.work p none = some (s.terminate p a sequel)) :
    s.LeadsToStop p a sequel := by
  let stopped : Errand := { s with process := .ended, wait := .exit a sequel, isCancelled := false }
  have hterminate : s.terminate p a sequel = stopped := by
    simp [terminate, hprocess, Process.stop, stopped]
  rw [hterminate] at hwork
  exact ⟨stopped, .work hwork (.refl p _), ⟨rfl, rfl, rfl, rfl, rfl, rfl, rfl⟩⟩

/-- A run that takes too long is stopped, and what it has left is to be collected. -/
theorem leadsToStop_of_late
    (hwait : s.wait = .watchers a false) (hprocess : s.process = .running)
    (hwatched : s.watched = none) (hcancelled : s.isCancelled = false) :
    s.LeadsToStop p a .collect :=
  leadsToStop_of_terminate hprocess (by simp [work, hwait, hcancelled, hwatched])

theorem LeadsToStop.step
    {e : Event} (h : t.LeadsToStop p a sequel) (hstep : s.step? p e = some t)
    (hclosed : t.isClosed = s.isClosed) (hworkspace : t.workspace = s.workspace)
    (hclock : t.clock = s.clock) (hconsumer : t.consumer = s.consumer) :
    s.LeadsToStop p a sequel := by
  obtain ⟨u, hleads, hstopped⟩ := h
  exact ⟨u, .step hstep hleads, ⟨hstopped.wait, hstopped.process, hstopped.isCancelled,
    hstopped.isClosed.trans hclosed, hstopped.workspace.trans hworkspace,
    hstopped.clock.trans hclock, hstopped.consumer.trans hconsumer⟩⟩

/-- A run that cannot be watched to its end is stopped. -/
theorem leadsToStop_of_broken
    (hwait : s.wait = .run a) (hprocess : s.process = .running) (hwatched : s.watched = none)
    (failure : Failure) :
    s.LeadsToStop p a (.fail failure) := by
  let broken : Errand := { s with watched := some (.fail failure) }
  have hwatch : s.step? p (.watch (.fail failure)) = some broken := by
    simp [step?, hwait, hwatched, broken]
  have hwork : broken.work p none = some (broken.terminate p a (.fail failure)) := by
    simp [work, hwait, broken]
  have hstop : broken.LeadsToStop p a (.fail failure) := leadsToStop_of_terminate hprocess hwork
  exact hstop.step hwatch rfl rfl rfl rfl

/-- A run that comes to its end is collected. -/
theorem leadsTo_of_exited
    (hwait : s.wait = .run a) (hprocess : s.process = .running) (hwatched : s.watched = none)
    (status : Int) :
    s.LeadsTo p a status .collect := by
  let ended : Errand := { s with process := .ended }
  let noted : Errand := { s with process := .noted status }
  let watched : Errand := { noted with watched := some .collect }
  have hexit : s.step? p .exit = some ended := by
    simp [step?, hprocess, ended]
  have hnote : ended.step? p (.note status) = some noted := rfl
  have hwatch : noted.step? p (.watch .collect) = some watched := by
    simp [step?, hwait, hwatched, noted, watched]
  have hwork : watched.work p none = some (watched.conclude p a status .collect) := by
    simp [work, hwait, terminate, noted, watched]
  exact ⟨watched, .step hexit (.step hnote (.step hwatch (.work hwork (.refl p _)))), rfl, rfl, rfl⟩

/-- A run that comes to its end is collected when its time is up, if its streams are open until
then. -/
theorem leadsTo_of_overdue
    (hwait : s.wait = .run a) (hprocess : s.process = .running) (hwatched : s.watched = none)
    (hcancelled : s.isCancelled = false) (status : Int) :
    s.LeadsTo p a status .collect := by
  let ended : Errand := { s with process := .ended }
  let noted : Errand := { s with process := .noted status }
  let late : Errand := { noted with isLate := true }
  let hurried : Errand := { late with wait := .watchers a false }
  have hexit : s.step? p .exit = some ended := by
    simp [step?, hprocess, ended]
  have hnote : ended.step? p (.note status) = some noted := rfl
  have hlimit : noted.step? p .limit = some late := by
    simp [step?, hwait, noted, late]
  have hhurry : late.work p none = some hurried := by
    simp [work, hwait, hwatched, hcancelled, noted, late, hurried]
  have hwork : hurried.work p none = some (hurried.conclude p a status .collect) := by
    simp [work, hwatched, hcancelled, terminate, noted, late, hurried]
  exact ⟨hurried, .step hexit (.step hnote (.step hlimit (.work hhurry (.work hwork (.refl p _))))),
    rfl, rfl, rfl⟩

/-- The status that a run ends with. -/
def finishStatus : Finish → Int
  | .exited status | .overdue status => status
  | .timedOut | .broken => stoppedStatus

/-- What is to be done after a run. -/
def finishSequel : Finish → Sequel
  | .exited _ | .overdue _ | .timedOut => .collect
  | .broken => .fail .cancelled

/-- The run of an errand can be stopped when the run of a build is. -/
theorem Runs.leadsToStop
    (h : s.Runs a r) (hcancelled : s.isCancelled = false) (hstopped : r.finish.isStopped = true) :
    s.LeadsToStop p a (finishSequel r.finish) := by
  have hconnect : s.step? p (.work none) = some (s.connect a) := by
    simp [step?, work, h.wait, hcancelled]
  cases htime : isNoTime a.limit with
  | true =>
    let late : Errand := { s with wait := .watchers a false }
    have hlate : s.connect a = late := by
      simp [connect, htime, late]
    have hstop : late.LeadsToStop p a .collect :=
      leadsToStop_of_late rfl h.process h.watched hcancelled
    rw [h.finish htime]
    exact hstop.step (hconnect.trans (congrArg some hlate)) rfl rfl rfl rfl
  | false =>
    let running : Errand := { s with wait := .run a }
    have hrunning : s.connect a = running := by
      simp [connect, htime, running]
    rw [hrunning] at hconnect
    cases hfinish : r.finish with
    | exited | overdue =>
      rw [hfinish] at hstopped
      contradiction
    | broken =>
      have hstop : running.LeadsToStop p a (.fail .cancelled) :=
        leadsToStop_of_broken (s := running) rfl h.process h.watched .cancelled
      exact hstop.step hconnect rfl rfl rfl rfl
    | timedOut =>
      let late : Errand := { running with isLate := true }
      let hurried : Errand := { late with wait := .watchers a false }
      have hlimit : running.step? p .limit = some late := rfl
      have hhurry : late.step? p (.work none) = some hurried := by
        simp [step?, work, late, running, hurried, h.watched, hcancelled]
      have hstop : hurried.LeadsToStop p a .collect :=
        leadsToStop_of_late rfl h.process h.watched hcancelled
      have hearlier := (hstop.step hhurry rfl rfl rfl rfl).step hlimit rfl rfl rfl rfl
      exact hearlier.step hconnect rfl rfl rfl rfl

/-- The run of an errand can come to the end that the run of a build comes to. -/
theorem Runs.leadsTo
    (h : s.Runs a r) (hcancelled : s.isCancelled = false) :
    s.LeadsTo p a (finishStatus r.finish) (finishSequel r.finish) := by
  have hconnect : isNoTime a.limit = false →
      s.work p none = some { s with wait := .run a } := by
    intro htime
    simp [work, connect, h.wait, hcancelled, htime]
  have htime : r.finish ≠ .timedOut → isNoTime a.limit = false := by
    intro hfinish
    by_contra hnone
    exact hfinish (h.finish (by simpa using hnone))
  cases hfinish : r.finish with
  | timedOut | broken =>
    have hstop := h.leadsToStop (p := p) hcancelled (by rw [hfinish]; rfl)
    rw [hfinish] at hstop
    exact hstop.leadsTo
  | exited status =>
    obtain ⟨t, hleads, hsame⟩ := leadsTo_of_exited (p := p) (s := { s with wait := .run a }) rfl
      h.process h.watched status
    exact ⟨t, .work (hconnect (htime (by simp [hfinish]))) hleads, hsame⟩
  | overdue status =>
    obtain ⟨t, hleads, hsame⟩ := leadsTo_of_overdue (p := p) (s := { s with wait := .run a }) rfl
      h.process h.watched hcancelled status
    exact ⟨t, .work (hconnect (htime (by simp [hfinish]))) hleads, hsame⟩

/-- A run that has been stopped lingers as long as its streams are open. -/
theorem IsStopped.stands
    (h : s.IsStopped a sequel t) (hclosed : s.isClosed = false)
    (hpresent : s.workspace.isPresent = true) (hkept : b.kept = kept) :
    t.Stands kept b .stopping :=
  ⟨⟨⟨a, sequel, h.wait⟩, h.process, h.isClosed.trans hclosed, by rw [h.workspace, hpresent]⟩, hkept⟩

/-- An errand comes to the end of its run as a compile does. -/
theorem KeepsPace.complete
    (h : s.KeepsPace p kept b (.building r)) :
    ∃ t, Leads p s t ∧
      t.KeepsPace p kept (Compile.complete b r).bench (Compile.complete b r).stage := by
  obtain ⟨⟨hlibrary, hkeep, hclock, hconsumer⟩, hcancelled, ⟨⟨a, hruns⟩, hkept⟩⟩ := h
  have hpresent : s.workspace.isPresent = true := by rw [hruns.workspace, hruns.isPresent]
  have hstops : r.finish.isStopped = true →
      ∃ t, Leads p s t ∧ t.KeepsPace p kept b .stopping := by
    intro hstopped
    obtain ⟨t, hleads, ht⟩ := hruns.leadsToStop (p := p) hcancelled hstopped
    exact ⟨t, hleads, ⟨hlibrary, hkeep, ht.clock.trans hclock, ht.consumer.trans hconsumer⟩,
      ht.isCancelled, ht.stands hruns.isClosed hpresent hkept⟩
  obtain ⟨t, hleads, hworkspace, hclock', hconsumer'⟩ := hruns.leadsTo (p := p) hcancelled
  have ht : t.Attends p b := ⟨hlibrary, hkeep, hclock'.trans hclock, hconsumer'.trans hconsumer⟩
  have hsame : t.workspace = r.workspace := hworkspace.trans hruns.workspace
  have hcollect := ht.collect hkept hsame hruns.isPresent hruns.definitions hruns.since
  unfold Compile.complete
  cases hfinish : r.finish with
  | exited status | overdue status =>
    rw [hfinish] at hleads
    exact ⟨_, hleads, hcollect status⟩
  | timedOut =>
    rw [hfinish] at hleads hstops
    dsimp only
    split_ifs
    · exact hstops rfl
    · exact ⟨_, hleads, hcollect stoppedStatus⟩
  | broken =>
    rw [hfinish] at hleads hstops
    dsimp only
    split_ifs
    · exact hstops rfl
    · exact ⟨_, hleads, ht.finish hkept (by rw [hsame, hruns.isPresent]) (.error .cancelled)⟩

/-! ## The start of a run -/

/-- What the system refuses on a bench: a workspace, or the process if the next run is refused. -/
def refusalOn (b : Bench) : Option Refusal :=
  match b.grant, b.nextRun with
  | .refused reason, _ => some (.workspace reason)
  | .bare reason, _ => some (.libraries reason)
  | .granted, .refused reason => some (.process reason)
  | .granted, .run _ => none

theorem grantOf_refusalOn (b : Bench) : grantOf (refusalOn b) = b.grant := by
  unfold refusalOn
  cases b.grant with
  | refused reason => rfl
  | bare reason => rfl
  | granted =>
    cases b.nextRun with
    | _ => rfl

theorem refusalOn_of_refused
    {reason : String} (hgrant : b.grant = .granted) (hnext : b.nextRun = .refused reason) :
    refusalOn b = some (.process reason) := by
  rw [refusalOn, hgrant, hnext]

theorem refusalOn_of_run
    {run : Run} (hgrant : b.grant = .granted) (hnext : b.nextRun = .run run) :
    refusalOn b = none := by
  rw [refusalOn, hgrant, hnext]

/-- A run whose output breaks the reading off is stopped, and its failure is told once nobody holds
its streams open. -/
theorem Attends.exists_broken
    (failure : Failure) (h : s.Attends p b) (hkept : b.kept = kept) (hwait : s.wait = .run a)
    (hprocess : s.process = .running) (hwatched : s.watched = none)
    (hclosed : s.isClosed = false) (hpresent : s.workspace.isPresent = true) :
    (∃ t, Leads p s t ∧ t.KeepsPace p kept b .stopping) ∧
      ∃ t, Leads p s t ∧ t.KeepsPace p kept b.giveBack (.ended (.error failure)) := by
  have hstop : s.LeadsToStop p a (.fail failure) :=
    leadsToStop_of_broken hwait hprocess hwatched failure
  constructor
  · obtain ⟨t, hleads, ht⟩ := hstop
    exact ⟨t, hleads, ⟨h.library, h.keepWorkspaces, ht.clock.trans h.clock,
      ht.consumer.trans h.consumer⟩, ht.isCancelled, ht.stands hclosed hpresent hkept⟩
  · obtain ⟨t, hleads, hworkspace, hclock, hconsumer⟩ := hstop.leadsTo
    have ht : t.Attends p b :=
      ⟨h.library, h.keepWorkspaces, hclock.trans h.clock, hconsumer.trans h.consumer⟩
    exact ⟨_, hleads, ht.finish hkept (by rw [hworkspace, hpresent]) (.error failure)⟩

/-- What has been started runs and comes to the same stage. -/
theorem Attends.exists_observe
    {w : Workspace} {engine : Loaded} {definitions : List String} (run : Run)
    (h : s.Attends p b) (hkept : b.kept = kept) (hcancelled : s.isCancelled = false)
    (hwait : s.wait = .connection ⟨definitions, s.clock, engine.timeout⟩)
    (hprocess : s.process = .running) (hwatched : s.watched = none) (hlate : s.isLate = false)
    (hclosed : s.isClosed = false) (hworkspace : s.workspace = w) (hpresent : w.isPresent = true) :
    ∃ t, Leads p s t ∧ t.KeepsPace p kept (observe b engine w definitions run).bench
      (observe b engine w definitions run).stage := by
  let passed : Errand := { s with clock := s.clock.sub run.seconds.neg }
  have hpass : s.step? p (.pass run.seconds) = some passed := rfl
  have hclock : passed.clock = (b.pass run.seconds).clock :=
    congrArg (Binary64.sub · run.seconds.neg) h.clock
  have hattends : passed.Attends p (b.pass run.seconds) :=
    ⟨h.library, h.keepWorkspaces, hclock, h.consumer⟩
  unfold observe
  dsimp only
  cases htold : (run.told engine.timeout).failure with
  | some failure =>
    have htime : isNoTime engine.timeout = false := by
      by_contra hnone
      rw [Bool.not_eq_false] at hnone
      simp [Run.told, hnone] at htold
    let running : Errand := { passed with wait := .run ⟨definitions, s.clock, engine.timeout⟩ }
    have hwork : passed.work p none = some running := by
      simp [work, connect, passed, running, hwait, hcancelled, htime]
    have hattends' : running.Attends p (b.pass run.seconds) :=
      ⟨h.library, h.keepWorkspaces, hclock, h.consumer⟩
    obtain ⟨⟨t, hleads, ht⟩, ⟨u, hleads', hu⟩⟩ := hattends'.exists_broken failure hkept rfl
      hprocess hwatched hclosed (by rw [← hpresent, ← hworkspace])
    dsimp only
    split_ifs
    · exact ⟨t, .step hpass (.work hwork hleads), ht⟩
    · exact ⟨t, .step hpass (.work hwork hleads), ht⟩
    · exact ⟨u, .step hpass (.work hwork hleads'), hu⟩
    · exact ⟨u, .step hpass (.work hwork hleads'), hu⟩
  | none =>
    have hfinish : isNoTime engine.timeout = true → run.finish engine.timeout = .timedOut :=
      fun hnone => if_pos hnone
    cases hproduct : run.product with
    | none =>
      refine ⟨passed, .step hpass (.refl p _), hattends, hcancelled, ?_, hkept⟩
      exact ⟨_, hwait, hprocess, hclosed, hwatched, hlate, hworkspace, hpresent, rfl, h.clock,
        hfinish⟩
    | some entry =>
      let written : Errand := { passed with
        workspace := { s.workspace with entries := (w.put [outputFile] entry).entries } }
      have hwrite : passed.step? p (.write (w.put [outputFile] entry).entries) = some written := by
        simp [step?, passed, written, hprocess]
      refine ⟨written, .step hpass (.step hwrite (.refl p _)),
        ⟨h.library, h.keepWorkspaces, hclock, h.consumer⟩, hcancelled, ?_, hkept⟩
      refine ⟨_, hwait, hprocess, hclosed, hwatched, hlate, ?_, hpresent, rfl, h.clock, hfinish⟩
      simp [written, hworkspace, Workspace.put]

/-- An errand launches its process as a compile does. -/
theorem Attends.exists_launch
    {w : Workspace} {engine : Loaded} {definitions : List String} (h : s.Attends p b)
    (hkept : b.kept = kept) (hcancelled : s.isCancelled = false) (hgrant : b.grant = .granted)
    (hworkspace : s.workspace = w) (hpresent : w.isPresent = true) :
    ∃ t, Leads p (s.launch p (refusalOn b) engine definitions) t ∧
      t.KeepsPace p kept (Compile.launch b engine w definitions).bench
        (Compile.launch b engine w definitions).stage := by
  have hpresent' : s.workspace.isPresent = true := by rw [hworkspace, hpresent]
  have hstarted : s.Attends p { b with started := b.started + 1 } :=
    ⟨h.library, h.keepWorkspaces, h.clock, h.consumer⟩
  unfold Compile.launch Errand.launch
  split_ifs
  · exact ⟨_, .refl p _, h.finish hkept hpresent' _⟩
  · cases hnext : b.nextRun with
    | refused reason =>
      rw [refusalOn_of_refused hgrant hnext]
      exact ⟨_, .refl p _, hstarted.finish hkept hpresent' _⟩
    | run run =>
      rw [refusalOn_of_run hgrant hnext]
      have hattends : Attends p { b with started := b.started + 1 } { s with
          process := .running
          isClosed := false
          watched := none
          isLate := false
          wait := .connection ⟨definitions, s.clock, engine.timeout⟩ } :=
        ⟨h.library, h.keepWorkspaces, h.clock, h.consumer⟩
      exact hattends.exists_observe run hkept hcancelled rfl rfl rfl rfl rfl hworkspace hpresent

/-- An errand carries a build out as a compile does. -/
theorem Attends.exists_carryOut
    {engine : Loaded} {files : Library.Files} (h : s.Attends p b) (hkept : b.kept = kept)
    (hcancelled : s.isCancelled = false) (hgrant : b.grant = .granted) :
    ∃ t, Leads p (s.carryOut p (refusalOn b) engine files) t ∧
      t.KeepsPace p kept (Compile.build b p.message engine files).bench
        (Compile.build b p.message engine files).stage := by
  have hpresent := isPresent_furnish p.message p.library.name files.named
  have hmake : Workspace.make b.grant = (.fresh, none) := by rw [hgrant]; rfl
  unfold Compile.build carryOut
  rw [hmake, ← h.library, prepare_eq_furnish]
  dsimp only
  cases hfurnish : furnish p.message p.library.name files.named with
  | mk w refused =>
    rw [hfurnish] at hpresent
    have hattends : Attends p b { s with workspace := w } :=
      ⟨h.library, h.keepWorkspaces, h.clock, h.consumer⟩
    cases refused with
    | some failure => exact ⟨_, .refl p _, hattends.finish hkept hpresent _⟩
    | none =>
      dsimp only [unlessRefused]
      cases expressions p.message.overrides with
      | error failure => exact ⟨_, .refl p _, hattends.finish hkept hpresent _⟩
      | ok definitions => exact hattends.exists_launch hkept hcancelled hgrant rfl hpresent

/-- What there is of a workspace that cannot be made whole is left by an errand and by a
compile. -/
theorem Attends.abandon
    (h : s.Attends p b) (hkept : b.kept = kept) (failure : Failure) :
    (s.abandon (.error failure)).KeepsPace p kept (b.leave s.workspace)
      (.ended (.error failure)) := by
  unfold Bench.leave
  split_ifs with hpresent
  · refine ⟨⟨h.library, h.keepWorkspaces, h.clock, h.consumer⟩, rfl, rfl, ?_⟩
    simp [Errand.abandon, hkept, hpresent]
  · refine ⟨⟨h.library, h.keepWorkspaces, h.clock, h.consumer⟩, rfl, rfl, ?_⟩
    simp [Errand.abandon, hkept, hpresent]

/-- An errand builds as a compile does. -/
theorem Attends.exists_build
    (engine : Loaded) (files : Library.Files) (h : s.Attends p b) (hkept : b.kept = kept)
    (hcancelled : s.isCancelled = false) :
    ∃ t, Leads p (s.build p (refusalOn b) engine files) t ∧
      t.KeepsPace p kept (Compile.build b p.message engine files).bench
        (Compile.build b p.message engine files).stage := by
  have hattends : ∀ w, Attends p b { s with workspace := w } :=
    fun _ => ⟨h.library, h.keepWorkspaces, h.clock, h.consumer⟩
  cases hgrant : b.grant with
  | granted =>
    have hbuild : s.build p (refusalOn b) engine files =
        { s with workspace := .fresh }.carryOut p (refusalOn b) engine files := by
      rw [Errand.build, grantOf_refusalOn, hgrant]
      rfl
    rw [hbuild]
    exact (hattends .fresh).exists_carryOut hkept hcancelled hgrant
  | refused reason =>
    unfold Errand.build Compile.build
    rw [grantOf_refusalOn, hgrant]
    exact ⟨_, .refl p _, (hattends .removed).abandon hkept (.workspaceRefused reason)⟩
  | bare reason =>
    unfold Errand.build Compile.build
    rw [grantOf_refusalOn, hgrant]
    exact ⟨_, .refl p _, (hattends .bare).abandon hkept (.workspaceRefused reason)⟩

end SolidWorkshop.Compile.Errand
