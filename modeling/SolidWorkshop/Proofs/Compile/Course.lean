import SolidWorkshop.Proofs.Compile.Pace
import SolidWorkshop.Proofs.Flight.Fate

/-!
# The course of a compile

With nobody in its way an errand can go on wherever a compile goes on, and so it can be run from its
beginning to the end that a compile comes to.  When its consumer leaves, it gives back what a
compile that is stopped at this stage gives back.
-/

namespace SolidWorkshop.Compile.Errand

open Engine

variable {p : Purpose} {kept : Nat} {b : Bench} {s t u : Errand} {a : Attempt} {r : Build}

/-! ## What is shared -/

section Asking

open Flight.State (after sound_after step_move answering)

variable {κ ν : Type} [DecidableEq κ] {key : κ} {moves : List (Flight.Move κ ν)}

/-- Who asks for a value that is stored has it at once. -/
theorem told?_asking_of_stored
    {v : ν} (hstored : (after moves).peek? key = some v) :
    told? (asking key moves) (nextWaiter moves) = some (.value v) := by
  have hask : (after (.get key :: moves)).agenda[(after moves).agenda.length]? =
      some (.ask (nextWaiter moves)) := by
    simp [after, Flight.State.move, Flight.State.ask, Flight.State.plan, nextWaiter]
  have hw : (after (.get key :: moves)).waiters[nextWaiter moves]? = some { key } := by
    simp [after, Flight.State.move, Flight.State.ask, Flight.State.plan, nextWaiter]
  have hflight : ∀ i, (key, i) ∉ (after moves).inflight := by
    intro i hmem
    rw [(sound_after moves).ledger.apart key i hmem] at hstored
    contradiction
  have hstep := step_move (sound_after (.get key :: moves)) (.turn (after moves).agenda.length)
  rcases hstep.ask hask hw with ⟨outcome, hanswers, -, -, hwaiter⟩ | ⟨i, hmem, -⟩ | ⟨hpeek, -⟩
  · have htold : told? (asking key moves) (nextWaiter moves) = some outcome := by
      rw [told?, asking, after, hwaiter]
      rfl
    rw [htold]
    cases hanswers with
    | cancelled hdoomed => contradiction
    | stored _ hvalue =>
      obtain rfl := Option.some.inj (hvalue.symm.trans hstored)
      rfl
    | ended _ hmem => exact absurd hmem (hflight _)
  · exact absurd hmem (hflight i)
  · have hnone := hstored.symm.trans hpeek
    contradiction

/-- Who asks for a vacant key has to wait. -/
theorem told?_asking_of_isVacant
    (h : (after moves).IsVacant key) :
    told? (asking key moves) (nextWaiter moves) = none := by
  have hturn : after (asking key moves) = ((after moves).ask key).1.turn := by
    rw [asking, h.idle, List.length_nil, after, ← Flight.State.turn_eq_move]
    rfl
  rw [told?, hturn, h.turn_ask, nextWaiter, Flight.State.getElem?_waiters_withCaller]
  rfl

/-- Who waits for a vacant key can be told whatever there is to tell. -/
theorem canBeTold_asking
    (h : (after moves).IsVacant key) :
    CanBeTold (asking key moves) (nextWaiter moves) := by
  intro answer
  refine ⟨List.replicate 4 (.turn 0) ++ [.finish key answer, .turn 0], ?_⟩
  have hsame : (List.replicate 4 (.turn 0) ++ [.finish key answer, .turn 0]) ++ asking key moves =
      answering key answer ++ moves := by
    simp [asking, answering, h.idle, List.replicate]
  rw [told?, hsame, h.after_answering, nextWaiter, Flight.State.landed,
    Flight.State.getElem?_waiters_withCaller]
  rfl

/-- Whatever is to be stored of a key, there is a history that shows it. -/
theorem exists_shows (key : κ) (stored : Option ν) :
    ∃ moves : List (Flight.Move κ ν), Shows moves key stored := by
  have hvacant : (after ([] : List (Flight.Move κ ν))).IsVacant key :=
    Flight.State.isVacant_empty key
  cases stored with
  | none => exact ⟨[], rfl, fun _ => hvacant⟩
  | some v =>
    refine ⟨answering key (.value v) ++ [], ?_, nofun⟩
    rw [hvacant.after_answering]
    exact hvacant.peek?_landed rfl

end Asking

/-! ## Before the run -/

/-- An errand that has no workspace leaves none. -/
theorem Attends.finish_bare
    (h : s.Attends p b) (hkept : b.kept = kept) (hbare : s.workspace = .removed)
    (outcome : Ended) :
    (s.finish p outcome).KeepsPace p kept b (.ended outcome) := by
  refine ⟨⟨h.library, h.keepWorkspaces, h.clock, h.consumer⟩, rfl, rfl, ?_⟩
  simp [Errand.finish, hbare, hkept, Workspace.removed]

theorem Attends.exists_equip
    (engine : Loaded) (h : s.Attends p b) (hkept : b.kept = kept)
    (hcancelled : s.isCancelled = false) (hbare : s.workspace = .removed)
    (hshows : Shows s.libraries b.library.key (b.libraries.peek? b.library.key)) :
    ∃ t, Leads p (s.equip p (refusalOn b) engine) t ∧
      t.KeepsPace p kept (Compile.equip b p.message engine).bench
        (Compile.equip b p.message engine).stage := by
  let asked : Errand := { s with libraries := asking p.library.key s.libraries }
  have hasked : asked.Attends p b := ⟨h.library, h.keepWorkspaces, h.clock, h.consumer⟩
  rw [← h.library] at hshows
  unfold Compile.equip Errand.equip
  rw [← h.library]
  split_ifs
  · dsimp only
    cases hpeek : b.libraries.peek? p.library.key with
    | some files =>
      rw [told?_asking_of_stored (hshows.peek?.trans hpeek)]
      exact hasked.exists_build engine files hkept hcancelled
    | none =>
      have hvacant := hshows.isVacant hpeek
      rw [told?_asking_of_isVacant hvacant]
      refine ⟨_, .refl p _, ⟨h.library, h.keepWorkspaces, h.clock, h.consumer⟩, hcancelled, ?_⟩
      exact ⟨⟨_, rfl, canBeTold_asking hvacant⟩, hbare, hkept⟩
  · exact h.exists_build engine [] hkept hcancelled

/-- What is stored is what the bench has, and nobody is at work on more. -/
structure Mirrors (b : Bench) (s : Errand) : Prop where
  loads : Shows s.loads () b.loaded?
  libraries : Shows s.libraries b.library.key (b.libraries.peek? b.library.key)

/-- An errand begins as a compile does. -/
theorem Attends.exists_enter
    (h : s.Attends p b) (hkept : b.kept = kept) (hcancelled : s.isCancelled = false)
    (hbare : s.workspace = .removed) (hwait : s.wait = .turn) (hmirrors : s.Mirrors b) :
    ∃ t, Leads p s t ∧ t.KeepsPace p kept (Compile.enter b p.message).bench
      (Compile.enter b p.message).stage := by
  let asked : Errand := { s with loads := asking () s.loads }
  have hasked : asked.Attends p b := ⟨h.library, h.keepWorkspaces, h.clock, h.consumer⟩
  have hwork : ∀ refusal, s.work p refusal = some (s.enter p refusal) := by
    intro refusal
    simp [work, hwait, hcancelled]
  unfold Compile.enter
  cases hloaded : b.loaded? with
  | some engine =>
    obtain ⟨t, hleads, hpace⟩ := hasked.exists_equip engine hkept hcancelled hbare
      hmirrors.libraries
    refine ⟨t, .work (hwork (refusalOn b)) ?_, hpace⟩
    unfold Errand.enter
    dsimp only
    rw [told?_asking_of_stored (hmirrors.loads.peek?.trans hloaded)]
    exact hleads
  | none =>
    have hvacant := hmirrors.loads.isVacant hloaded
    let waiting : Errand := { asked with wait := .engine (nextWaiter s.loads) }
    let passed : Errand := { waiting with clock := s.clock.sub b.ask.seconds.neg }
    have henter : s.enter p none = waiting := by
      unfold Errand.enter
      dsimp only
      rw [told?_asking_of_isVacant hvacant]
    have hpass : waiting.step? p (.pass b.ask.seconds) = some passed := rfl
    refine ⟨passed, .work ((hwork none).trans (congrArg some henter)) (.step hpass (.refl p _)),
      ⟨h.library, h.keepWorkspaces, ?_, h.consumer⟩, hcancelled,
      ⟨_, rfl, canBeTold_asking hvacant⟩, hmirrors.libraries, hbare, hkept⟩
    exact congrArg (Binary64.sub · b.ask.seconds.neg) h.clock

/-! ## From wait to wait -/

theorem KeepsPace.advance_loading
    {probe : Probe} (h : s.KeepsPace p kept b (.loading probe)) :
    ∃ t, Leads p s t ∧ t.KeepsPace p kept (Compile.advance b p.message (.loading probe)).bench
      (Compile.advance b p.message (.loading probe)).stage := by
  obtain ⟨hattends, hcancelled, ⟨⟨waiter, hwait, htold⟩, hshows, hbare, hkept⟩⟩ := h
  unfold Compile.advance
  dsimp only
  cases hloaded : probe.loaded b.limits with
  | none =>
    exact ⟨s, .refl p s, hattends, hcancelled, ⟨waiter, hwait, htold⟩, hshows, hbare, hkept⟩
  | some answer =>
    obtain ⟨later, hanswer⟩ := htold (.ofExcept answer)
    let answered : Errand := { s with loads := later ++ s.loads }
    let b' := (b.answerLoad 1 probe).1
    obtain ⟨loads, hsame⟩ : ∃ loads, b' = { b with loads } := b.answerLoad_eq 1 probe
    have hattends' : answered.Attends p b' := by
      rw [hsame]
      exact ⟨hattends.library, hattends.keepWorkspaces, hattends.clock, hattends.consumer⟩
    have hkept' : b'.kept = kept := by
      rw [hsame]
      exact hkept
    have hshows' : Shows answered.libraries b'.library.key (b'.libraries.peek? b'.library.key) := by
      rw [hsame]
      exact hshows
    have hwork : ∀ refusal, answered.work p refusal =
        some (answered.goOn p (Errand.equip p refusal) (.ofExcept answer)) := by
      intro refusal
      simp [work, answered, hwait, hcancelled, hanswer]
    cases answer with
    | error failure =>
      exact ⟨_, (Leads.loads later).trans (.work (hwork none) (.refl p _)),
        hattends'.finish_bare hkept' hbare (.error failure)⟩
    | ok engine =>
      obtain ⟨t, hleads, hpace⟩ := hattends'.exists_equip engine hkept' hcancelled hbare
        hshows'
      exact ⟨t, (Leads.loads later).trans (.work (hwork (refusalOn b')) hleads), hpace⟩

theorem KeepsPace.advance_resolving
    {engine : Loaded} {found : Library.Resolution}
    (h : s.KeepsPace p kept b (.resolving engine found)) :
    ∃ t, Leads p s t ∧
      t.KeepsPace p kept (Compile.advance b p.message (.resolving engine found)).bench
        (Compile.advance b p.message (.resolving engine found)).stage := by
  obtain ⟨hattends, hcancelled, ⟨⟨waiter, hwait, htold⟩, hbare, hkept⟩⟩ := h
  obtain ⟨later, hanswer⟩ := htold (.ofExcept found.outcome)
  let answered : Errand := { s with libraries := later ++ s.libraries }
  let b' := b.answerResolve found
  have hattends' : answered.Attends p b' :=
    ⟨hattends.library, hattends.keepWorkspaces, hattends.clock, hattends.consumer⟩
  have hwork : ∀ refusal, answered.work p refusal =
      some (answered.goOn p (fun s => s.build p refusal engine) (.ofExcept found.outcome)) := by
    intro refusal
    simp [work, answered, hwait, hcancelled, hanswer]
  unfold Compile.advance
  dsimp only
  cases houtcome : found.outcome with
  | error failure =>
    rw [houtcome] at hwork
    exact ⟨_, (Leads.libraries later).trans (.work (hwork none) (.refl p _)),
      hattends'.finish_bare hkept hbare (.error failure)⟩
  | ok files =>
    rw [houtcome] at hwork
    obtain ⟨t, hleads, hpace⟩ := hattends'.exists_build engine files hkept
      hcancelled
    exact ⟨t, (Leads.libraries later).trans (.work (hwork (refusalOn b')) hleads), hpace⟩

/-- Wherever a compile goes on, an errand can go on to the same stage. -/
theorem KeepsPace.advance
    {stage : Stage} (h : s.KeepsPace p kept b stage) :
    ∃ t, Leads p s t ∧ t.KeepsPace p kept (Compile.advance b p.message stage).bench
      (Compile.advance b p.message stage).stage := by
  cases stage with
  | loading probe => exact h.advance_loading
  | resolving engine found => exact h.advance_resolving
  | building r => exact h.complete
  | stopping => exact ⟨s, .refl p s, h⟩
  | ended outcome => exact ⟨s, .refl p s, h⟩

/-- It makes no difference to an errand what a run waits for. -/
theorem KeepsPace.expire
    {stage : Stage} (h : s.KeepsPace p kept b stage) :
    s.KeepsPace p kept b stage.expire := by
  cases stage with
  | building r =>
    obtain ⟨hattends, hcancelled, ⟨⟨a, hruns⟩, hkept⟩⟩ := h
    obtain ⟨hwait, hprocess, hclosed, hwatched, hlate, hworkspace, hpresent, hdefinitions, hsince,
      hfinish⟩ := hruns
    exact ⟨hattends, hcancelled, ⟨a, hwait, hprocess, hclosed, hwatched, hlate, hworkspace,
      hpresent, hdefinitions, hsince, hfinish⟩, hkept⟩
  | loading | resolving | stopping | ended => exact h

/-- An errand goes on as long as a compile does. -/
theorem KeepsPace.finishWithin
    (fuel : Nat) (progress : Progress) (h : s.KeepsPace p kept progress.bench progress.stage) :
    ∃ t, Leads p s t ∧
      t.KeepsPace p kept (Compile.finishWithin p.message fuel progress).bench
        (Compile.finishWithin p.message fuel progress).stage := by
  induction fuel generalizing s progress with
  | zero => exact ⟨s, .refl p s, h⟩
  | succ fuel ih =>
    rw [Compile.finishWithin]
    split
    · exact ⟨s, .refl p s, h⟩
    · obtain ⟨t, hleads, hpace⟩ := h.expire.advance
      dsimp only
      generalize hnext : Compile.advance progress.bench p.message progress.stage.expire = next
      rw [hnext] at hpace
      obtain ⟨u, hrest, hend⟩ := ih { next.after progress.log progress.spawns with
        requests := progress.requests ++ next.requests } hpace
      exact ⟨u, hleads.trans hrest, hend⟩

/-- An errand that nobody has asked for can be run from its beginning as far as a compile. -/
theorem IsIdle.exists_run
    (h : s.IsIdle) (hlibrary : p.library = b.library)
    (hkeep : p.keepWorkspaces = b.limits.keepWorkspaces) (hclock : s.clock = b.clock)
    (hmirrors : s.Mirrors b) (waits : Nat) :
    ∃ t, Leads p s t ∧
      t.KeepsPace p b.kept
        (Compile.finishWithin p.message waits (Compile.enter b p.message)).bench
        (Compile.finishWithin p.message waits (Compile.enter b p.message)).stage := by
  let asked : Errand := { s with consumer := .following, wait := .turn }
  have hidle : s.consumer = .idle ∧ s.isCancelled = false ∧ s.workspace = .removed := by
    rw [h]
    exact ⟨rfl, rfl, rfl⟩
  obtain ⟨hconsumer, hcancelled, hbare⟩ := hidle
  have hask : s.step? p .ask = some asked := by
    simp [step?, hconsumer, asked]
  have hattends : asked.Attends p b := ⟨hlibrary, hkeep, hclock, rfl⟩
  have hmirrors' : asked.Mirrors b := ⟨hmirrors.loads, hmirrors.libraries⟩
  obtain ⟨t, hleads, hpace⟩ := hattends.exists_enter rfl hcancelled hbare rfl hmirrors'
  obtain ⟨u, hrest, hend⟩ := hpace.finishWithin waits _
  exact ⟨u, .step hask (hleads.trans hrest), hend⟩

/-! ## A consumer that leaves -/

/-- A worker that holds nothing is stopped at once. -/
theorem leads_part
    (hwait : s.wait.isOver = true) (hconsumer : s.consumer = .leaving) :
    Leads p s { s with consumer := .gone } := by
  refine .step (e := .part) ?_ (.refl p _)
  simp [step?, hconsumer, hwait]

theorem leadsToStop_of_cancelled
    {isCancelled : Bool} (hwait : s.wait = .watchers a isCancelled)
    (hcancelled : s.isCancelled = true ∨ isCancelled = true) (hprocess : s.process = .running) :
    s.LeadsToStop p a (.fail .cancelled) := by
  refine leadsToStop_of_terminate hprocess ?_
  rcases hcancelled with hcancelled | rfl
  · simp [work, hwait, hcancelled]
  · simp [work, hwait]

/-- A consumer that leaves while the run is watched waits for the end of the process, and of those
who hold its streams open. -/
theorem Runs.exists_lingers
    (h : s.Runs a r) (hcancelled : s.isCancelled = false) (hconsumer : s.consumer = .following) :
    ∃ t, Leads p s t ∧ t.consumer = .leaving ∧ t.Lingers := by
  have hpresent : s.workspace.isPresent = true := by rw [h.workspace, h.isPresent]
  have hconnect : s.work p none = some (s.connect a) := by
    simp [work, h.wait, hcancelled]
  have hend : ∀ u : Errand, u.LeadsToStop p a (.fail .cancelled) → u.consumer = .leaving →
      u.isClosed = s.isClosed → u.workspace = s.workspace →
      ∃ t, Leads p u t ∧ t.consumer = .leaving ∧ t.Lingers := by
    rintro u ⟨t, hleads, ht⟩ hleaving hclosed hworkspace
    refine ⟨t, hleads, ht.consumer.trans hleaving, ⟨a, _, ht.wait⟩, ht.process, ?_, ?_⟩
    · rw [ht.isClosed, hclosed, h.isClosed]
    · rw [ht.workspace, hworkspace, hpresent]
  cases htime : isNoTime a.limit with
  | true =>
    let late : Errand := { s with wait := .watchers a false }
    let left : Errand := { late with consumer := .leaving, isCancelled := true }
    have hlate : s.connect a = late := by
      simp [connect, htime, late]
    have hleave : late.step? p .leave = some left := by
      simp [step?, cancel, late, left, hconsumer, Wait.isOver]
    obtain ⟨t, hleads, ht⟩ := hend left (leadsToStop_of_cancelled rfl (Or.inl rfl) h.process) rfl
      rfl rfl
    exact ⟨t, .work (hconnect.trans (congrArg some hlate)) (.step hleave hleads), ht⟩
  | false =>
    let running : Errand := { s with wait := .run a }
    let left : Errand := { running with consumer := .leaving, isCancelled := true }
    let hurried : Errand := { left with wait := .watchers a true, isCancelled := false }
    have hrunning : s.connect a = running := by
      simp [connect, htime, running]
    have hleave : running.step? p .leave = some left := by
      simp [step?, cancel, running, left, hconsumer, Wait.isOver]
    have hhurry : left.work p none = some hurried := by
      simp [work, left, running, hurried, h.watched]
    obtain ⟨t, hleads, ht⟩ := hend hurried (leadsToStop_of_cancelled rfl (Or.inr rfl) h.process)
      rfl rfl rfl
    exact ⟨t, .work (hconnect.trans (congrArg some hrunning)) (.step hleave (.work hhurry hleads)),
      ht⟩

/-- A worker that is cancelled before it is connected to its process gives its workspace back. -/
theorem Runs.exists_gone
    (h : s.Runs a r) (hconsumer : s.consumer = .following) :
    ∃ t : Errand, t.workspace.isPresent = true ∧
      Leads p s { t.finish p (.error .cancelled) with consumer := .gone } := by
  obtain ⟨hworkspace, hprocess, -⟩ := held_cancel s
  let left : Errand := { s.cancel with consumer := .leaving }
  let withdrawn : Errand :=
    { left with process := .ended, wait := .withdrawal .cancelled, isCancelled := false }
  let noted : Errand := { withdrawn with process := .noted stoppedStatus }
  have hleave : s.step? p .leave = some left := by
    simp [step?, hconsumer, h.wait, Wait.isOver, left]
  have hwork : left.work p none = some withdrawn := by
    simp [work, withdraw, left, withdrawn, wait_cancel, isCancelled_cancel, h.wait, hprocess,
      h.process, Process.stop]
  have hnote : withdrawn.step? p (.note stoppedStatus) = some noted := rfl
  have hend : noted.work p none = some (noted.finish p (.error .cancelled)) := rfl
  refine ⟨noted, ?_, .step hleave (.work hwork (.step hnote (.work hend (leads_part rfl rfl))))⟩
  simp [noted, withdrawn, left, hworkspace, h.workspace, h.isPresent]

/-- A worker that holds nothing is gone as soon as its consumer leaves. -/
theorem Attends.leads_gone
    (h : s.Attends p b) (hnone : s.wait.hasWorkspace = false) (hover : s.wait.isOver = false)
    (hbare : s.workspace = .removed) :
    ∃ t, Leads p s t ∧ t.consumer = .gone ∧ t.workspace = .removed := by
  let left : Errand := { s.cancel with consumer := .leaving }
  have hleave : s.step? p .leave = some left := by
    simp [step?, h.consumer, hover, left]
  have hwork : left.work p none = some (left.finish p (.error .cancelled)) := by
    cases hwait : s.wait with
    | turn | engine | library => simp [work, left, wait_cancel, isCancelled_cancel, hwait]
    | _ => simp [hwait, Wait.hasWorkspace, Wait.isOver] at hnone hover
  refine ⟨_, .step hleave (.work hwork (leads_part rfl rfl)), rfl, ?_⟩
  simp [Errand.finish, left, (held_cancel s).1, hbare]

/-- When the consumer of an errand leaves, it is gone in the end, and as many workspaces are left
as on a bench; or the worker waits for those who hold the streams of its run open, and none is given
back on the bench yet. -/
def LeavesAs (p : Purpose) (kept : Nat) (b : Bench) (s : Errand) : Prop :=
  ∃ t, Leads p s t ∧
    (t.consumer = .gone ∧ b.kept = kept + t.workspace.isPresent.toNat ∨
      t.consumer = .leaving ∧ t.Lingers ∧ b.kept = kept)

/-- Nothing is left of an errand that has no workspace yet. -/
theorem Attends.leavesAs_of_bare
    {later : Bench} (h : s.Attends p b) (hnone : s.wait.hasWorkspace = false)
    (hover : s.wait.isOver = false) (hbare : s.workspace = .removed) (hkept : later.kept = kept) :
    s.LeavesAs p kept later := by
  obtain ⟨t, hleads, hgone, hremoved⟩ := h.leads_gone hnone hover hbare
  refine ⟨t, hleads, Or.inl ⟨hgone, ?_⟩⟩
  simp [hremoved, hkept, Workspace.removed]

/-- A run is stopped at once, or as soon as nobody holds its streams open. -/
theorem Runs.leavesAs
    (h : s.Runs a r) (hattends : s.Attends p b) (hcancelled : s.isCancelled = false)
    (hkept : b.kept = kept) :
    s.LeavesAs p kept (r.stop b).1 := by
  obtain ⟨t, hpresent, hleads⟩ := h.exists_gone (p := p) hattends.consumer
  have hgiveBack : b.giveBack.kept = _ :=
    hattends.kept_giveBack hkept hpresent (.error .cancelled)
  have hquick : (r.stop b).1 = b.giveBack ∨ (r.stop b).1 = b := by
    unfold Build.stop
    cases r.finish with
    | overdue => exact Or.inl rfl
    | exited | timedOut | broken =>
      dsimp only
      split_ifs
      · exact Or.inr rfl
      · exact Or.inl rfl
  rcases hquick with hquick | hquick
  · exact ⟨_, hleads, Or.inl ⟨rfl, (congrArg Bench.kept hquick).trans hgiveBack⟩⟩
  · obtain ⟨u, hleads', hleaving, hlingers⟩ := h.exists_lingers (p := p) hcancelled
      hattends.consumer
    exact ⟨u, hleads', Or.inr ⟨hleaving, hlingers, (congrArg Bench.kept hquick).trans hkept⟩⟩

/-- A worker that waits for the streams of a stopped run is let go when it is cancelled. -/
theorem Lingers.leavesAs
    (h : s.Lingers) (hattends : s.Attends p b) (hkept : b.kept = kept) :
    s.LeavesAs p kept b.giveBack := by
  obtain ⟨⟨a, sequel, hwait⟩, hprocess, -, hpresent⟩ := h
  let left : Errand := { s.cancel with consumer := .leaving }
  have hleave : s.step? p .leave = some left := by
    simp [step?, hattends.consumer, hwait, Wait.isOver, left]
  have hwork : left.work p none = some (left.finish p (.error .cancelled)) := by
    simp [work, left, wait_cancel, isCancelled_cancel, hwait]
  refine ⟨_, .step hleave (.work hwork (leads_part rfl rfl)), Or.inl ⟨rfl, ?_⟩⟩
  exact hattends.kept_giveBack hkept (by rw [← hpresent, ← (held_cancel s).1]) (.error .cancelled)

/-- When the consumer of an errand leaves, as many workspaces are left as when a compile is stopped
at the same stage, once nobody holds the streams of its run open. -/
theorem KeepsPace.stop
    {stage : Stage} (h : s.KeepsPace p kept b stage) :
    s.LeavesAs p kept (Compile.stop b stage).1 := by
  obtain ⟨hattends, hcancelled, hstands⟩ := h
  cases stage with
  | loading probe =>
    obtain ⟨⟨waiter, hwait, -⟩, -, hbare, hkept⟩ := hstands
    obtain ⟨loads, hsame⟩ := b.answerLoad_eq 1 probe
    exact hattends.leavesAs_of_bare (by rw [hwait]; rfl) (by rw [hwait]; rfl) hbare
      ((congrArg Bench.kept hsame).trans hkept)
  | resolving engine found =>
    obtain ⟨⟨waiter, hwait, -⟩, hbare, hkept⟩ := hstands
    exact hattends.leavesAs_of_bare (by rw [hwait]; rfl) (by rw [hwait]; rfl) hbare hkept
  | building r =>
    obtain ⟨⟨a, hruns⟩, hkept⟩ := hstands
    exact hruns.leavesAs hattends hcancelled hkept
  | stopping => exact hstands.1.leavesAs hattends hstands.2
  | ended outcome =>
    obtain ⟨hwait, hkept⟩ := hstands
    refine ⟨{ s with consumer := .gone }, .step (e := .leave) ?_ (.refl p _), Or.inl ⟨rfl, hkept⟩⟩
    simp [step?, hattends.consumer, hwait, Wait.isOver]

end SolidWorkshop.Compile.Errand
