import SolidWorkshop.Proofs.Compile.Errand
import SolidWorkshop.Proofs.Flight.Move

/-!
# Turns of a worker

What a worker does in a turn, told by what it waits for, and what it holds between two of them: no
process unless it watches one, and no workspace unless it has one to give back.  The exception is a
workspace that could not be made whole, which nobody gives back.
-/

namespace SolidWorkshop

namespace Flight

variable {κ ν : Type}

/-- A population is aborted, or told that it is cancelled. -/
def Move.cancels : Move κ ν → Bool
  | .abort _ | .finish _ .cancelled => true
  | _ => false

end Flight

namespace Compile.Errand

open Engine

variable {p : Purpose} {refusal : Option Refusal} {s t : Errand}

/-! ## What a turn does -/

/-- What a turn of the worker does. -/
inductive Turn (p : Purpose) (refusal : Option Refusal) (s : Errand) : Errand → Prop
  /-- A cancellation comes up before there is a workspace. -/
  | drop (hover : s.wait.isOver = false) (hnone : s.wait.hasWorkspace = false)
      (hcancelled : s.isCancelled = true) : Turn p refusal s (s.finish p (.error .cancelled))
  /-- Another cancellation comes up while the end of the process is waited for. -/
  | cutShort (hlast : s.wait.isLast = true) (hcancelled : s.isCancelled = true) :
      Turn p refusal s (s.finish p (.error .cancelled))
  | enter (hwait : s.wait = .turn) (hfree : s.isCancelled = false) :
      Turn p refusal s (s.enter p refusal)
  | equip {waiter : Nat} {outcome : Outcome Loaded} (hwait : s.wait = .engine waiter)
      (hfree : s.isCancelled = false) (htold : told? s.loads waiter = some outcome) :
      Turn p refusal s (s.goOn p (equip p refusal) outcome)
  | build {engine : Loaded} {waiter : Nat} {outcome : Outcome Library.Files}
      (hwait : s.wait = .library engine waiter) (hfree : s.isCancelled = false)
      (htold : told? s.libraries waiter = some outcome) :
      Turn p refusal s (s.goOn p (fun s => s.build p refusal engine) outcome)
  | connect {a : Attempt} (hwait : s.wait = .connection a) (hfree : s.isCancelled = false) :
      Turn p refusal s (s.connect a)
  /-- The connection is cancelled or refused. -/
  | withdraw {a : Attempt} {failure : Failure} (hwait : s.wait = .connection a)
      (hfailure : s.isCancelled = true ∧ failure = .cancelled ∨
        ∃ reason, refusal = some (.process reason) ∧ failure = .spawnFailed reason) :
      Turn p refusal s (s.withdraw failure)
  | report {failure : Failure} {status : Int} (hwait : s.wait = .withdrawal failure)
      (hnoted : s.process = .noted status) : Turn p refusal s (s.finish p (.error failure))
  /-- The run is cancelled, or takes too long. -/
  | hurry {a : Attempt} (hwait : s.wait = .run a) (hlate : s.isCancelled = true ∨ s.isLate = true) :
      Turn p refusal s { s with wait := .watchers a s.isCancelled, isCancelled := false }
  | terminate {a : Attempt} (sequel : Sequel)
      (hwait : s.wait = .run a ∨ ∃ isCancelled, s.wait = .watchers a isCancelled) :
      Turn p refusal s (s.terminate p a sequel)
  | conclude {a : Attempt} {sequel : Sequel} {status : Int} (hwait : s.wait = .exit a sequel)
      (hnoted : s.process = .noted status) : Turn p refusal s (s.conclude p a status sequel)

section Waits

variable {a : Attempt}

theorem turn_of_turn
    (hwait : s.wait = .turn) (hwork : s.work p refusal = some t) :
    s.Turn p refusal t := by
  simp only [work, hwait, Option.some.injEq] at hwork
  obtain rfl := hwork
  split_ifs with hcancelled
  · exact .drop (by rw [hwait]; rfl) (by rw [hwait]; rfl) hcancelled
  · exact .enter hwait (by simpa using hcancelled)

theorem turn_of_engine
    {waiter : Nat} (hwait : s.wait = .engine waiter) (hwork : s.work p refusal = some t) :
    s.Turn p refusal t := by
  simp only [work, hwait] at hwork
  split_ifs at hwork with hcancelled
  · obtain rfl := Option.some.inj hwork
    exact .drop (by rw [hwait]; rfl) (by rw [hwait]; rfl) hcancelled
  · obtain ⟨outcome, htold, rfl⟩ := Option.map_eq_some_iff.mp hwork
    exact .equip hwait (by simpa using hcancelled) htold

theorem turn_of_library
    {engine : Loaded} {waiter : Nat} (hwait : s.wait = .library engine waiter)
    (hwork : s.work p refusal = some t) :
    s.Turn p refusal t := by
  simp only [work, hwait] at hwork
  split_ifs at hwork with hcancelled
  · obtain rfl := Option.some.inj hwork
    exact .drop (by rw [hwait]; rfl) (by rw [hwait]; rfl) hcancelled
  · obtain ⟨outcome, htold, rfl⟩ := Option.map_eq_some_iff.mp hwork
    exact .build hwait (by simpa using hcancelled) htold

theorem turn_of_connection
    (hwait : s.wait = .connection a) (hwork : s.work p refusal = some t) :
    s.Turn p refusal t := by
  simp only [work, hwait] at hwork
  split at hwork
  · next hcancelled =>
    obtain rfl := Option.some.inj hwork
    exact .withdraw hwait (Or.inl ⟨hcancelled, rfl⟩)
  · obtain rfl := Option.some.inj hwork
    exact .withdraw hwait (Or.inr ⟨_, rfl, rfl⟩)
  · next hfree _ =>
    obtain rfl := Option.some.inj hwork
    exact .connect hwait hfree

theorem turn_of_withdrawal
    {failure : Failure} (hwait : s.wait = .withdrawal failure)
    (hwork : s.work p refusal = some t) :
    s.Turn p refusal t := by
  simp only [work, hwait] at hwork
  split at hwork
  · next hcancelled =>
    obtain rfl := Option.some.inj hwork
    exact .cutShort (by rw [hwait]; rfl) hcancelled
  · next hnoted =>
    obtain rfl := Option.some.inj hwork
    exact .report hwait hnoted
  · contradiction

theorem turn_of_run
    (hwait : s.wait = .run a) (hwork : s.work p refusal = some t) :
    s.Turn p refusal t := by
  simp only [work, hwait] at hwork
  split at hwork
  · obtain rfl := Option.some.inj hwork
    exact .terminate _ (Or.inl hwait)
  · split_ifs at hwork with hcancelled hlate
    · obtain rfl := Option.some.inj hwork
      have hhurry : s.Turn p refusal _ := .hurry hwait (Or.inl hcancelled)
      rwa [hcancelled] at hhurry
    · obtain rfl := Option.some.inj hwork
      have hhurry : s.Turn p refusal _ := .hurry hwait (Or.inr hlate)
      rw [Bool.not_eq_true] at hcancelled
      rw [hcancelled] at hhurry ⊢
      exact hhurry

theorem turn_of_watchers
    {isCancelled : Bool} (hwait : s.wait = .watchers a isCancelled)
    (hwork : s.work p refusal = some t) :
    s.Turn p refusal t := by
  simp only [work, hwait] at hwork
  split_ifs at hwork
  · obtain rfl := Option.some.inj hwork
    exact .terminate _ (Or.inr ⟨isCancelled, hwait⟩)
  · obtain rfl := Option.some.inj hwork
    exact .terminate _ (Or.inr ⟨isCancelled, hwait⟩)

theorem turn_of_exit
    {sequel : Sequel} (hwait : s.wait = .exit a sequel) (hwork : s.work p refusal = some t) :
    s.Turn p refusal t := by
  simp only [work, hwait] at hwork
  split_ifs at hwork with hcancelled
  · obtain rfl := Option.some.inj hwork
    exact .cutShort (by rw [hwait]; rfl) hcancelled
  · split at hwork
    · next hnoted _ =>
      obtain rfl := Option.some.inj hwork
      exact .conclude hwait hnoted
    · contradiction

end Waits

theorem turn_of_work
    (hwork : s.work p refusal = some t) :
    s.Turn p refusal t := by
  cases hwait : s.wait with
  | absent | past => simp [work, hwait] at hwork
  | turn => exact turn_of_turn hwait hwork
  | engine waiter => exact turn_of_engine hwait hwork
  | library engine waiter => exact turn_of_library hwait hwork
  | connection a => exact turn_of_connection hwait hwork
  | withdrawal failure => exact turn_of_withdrawal hwait hwork
  | run a => exact turn_of_run hwait hwork
  | watchers a isCancelled => exact turn_of_watchers hwait hwork
  | exit a sequel => exact turn_of_exit hwait hwork

/-! ## What the worker holds -/

/-- The worker could not make a workspace whole, and what there is of it stays where it is. -/
def IsForsaken (reason : String) (s : Errand) : Prop :=
  s.wait = .past (.error (.workspaceRefused reason)) ∧ s.workspace = .bare

/-- What is held while the worker waits. -/
structure Tidy (p : Purpose) (s : Errand) : Prop where
  process : s.wait.Admits s.process
  workspace : p.keepWorkspaces = false → s.wait.hasWorkspace = false →
    s.workspace = .removed ∨ ∃ reason, s.IsForsaken reason

/-- Nothing is held. -/
structure Bare (p : Purpose) (s : Errand) : Prop where
  process : s.process ≠ .running
  workspace : p.keepWorkspaces = false → s.workspace = .removed

/-- A turn of the worker does nothing but its own work: it leaves the consumer alone, it cancels no
population, and it forsakes no workspace but one that is refused the directory for libraries. -/
structure Works (p : Purpose) (refusal : Option Refusal) (s t : Errand) : Prop where
  tidy : t.Tidy p
  consumer : t.consumer = s.consumer
  loads : ∀ move ∈ t.loads, move.cancels = true → move ∈ s.loads
  libraries : ∀ move ∈ t.libraries, move.cancels = true → move ∈ s.libraries
  forsaken : p.keepWorkspaces = false → ∀ reason, t.IsForsaken reason →
    s.IsForsaken reason ∨ refusal = some (.libraries reason)

theorem mem_of_mem_asking
    {κ ν : Type} [DecidableEq κ] {key : κ} {moves : List (Flight.Move κ ν)}
    {move : Flight.Move κ ν} (h : move ∈ asking key moves) (hcancels : move.cancels = true) :
    move ∈ moves := by
  rw [asking, List.mem_cons, List.mem_cons] at h
  rcases h with rfl | rfl | h
  · contradiction
  · contradiction
  · exact h

theorem ne_running_of_hasEnded
    {process : Process} (h : process.hasEnded = true) :
    process ≠ .running := by
  rintro rfl
  contradiction

theorem hasWorkspace_of_running
    {wait : Wait} (h : wait.Admits .running) :
    wait.hasWorkspace = true := by
  cases wait with
  | connection | run | watchers => rfl
  | withdrawal | exit => contradiction
  | _ => exact absurd rfl h

theorem hasWorkspace_of_isOver
    {wait : Wait} (h : wait.isOver = true) :
    wait.hasWorkspace = false := by
  cases wait with
  | absent | past => rfl
  | _ => contradiction

/-- A worker that waits has not forsaken a workspace. -/
theorem not_isForsaken
    {reason : String} (h : s.wait.isOver = false) :
    ¬s.IsForsaken reason := by
  rintro ⟨hwait, -⟩
  rw [hwait] at h
  contradiction

theorem Tidy.ne_running_of_none
    (h : s.Tidy p) (hnone : s.wait.hasWorkspace = false) :
    s.process ≠ .running := by
  intro hrunning
  have hprocess := h.process
  rw [hrunning] at hprocess
  rw [hasWorkspace_of_running hprocess] at hnone
  contradiction

/-- A worker without a workspace holds nothing. -/
theorem Tidy.bare
    (h : s.Tidy p) (hover : s.wait.isOver = false) (hnone : s.wait.hasWorkspace = false) :
    s.Bare p := by
  refine ⟨h.ne_running_of_none hnone, fun hkeep => ?_⟩
  rcases h.workspace hkeep hnone with hremoved | ⟨reason, hforsaken⟩
  · exact hremoved
  · exact absurd hforsaken (not_isForsaken hover)

/-- When a worker waits for nothing but the end of its process, this has ended. -/
theorem Tidy.ne_running
    (h : s.Tidy p) (hlast : s.wait.isLast = true) :
    s.process ≠ .running := by
  have hprocess := h.process
  cases hwait : s.wait with
  | withdrawal | exit =>
    rw [hwait] at hprocess
    exact ne_running_of_hasEnded hprocess
  | _ =>
    rw [hwait] at hlast
    contradiction

/-! ## What a turn leaves to others -/

theorem works_finish
    (h : s.process ≠ .running) (outcome : Ended) :
    s.Works p refusal (s.finish p outcome) where
  tidy := ⟨h, fun hkeep _ => Or.inl (by simp [finish, hkeep])⟩
  consumer := rfl
  loads _ hmove _ := hmove
  libraries _ hmove _ := hmove
  forsaken hkeep _ hforsaken := by
    have hremoved : (s.finish p outcome).workspace = .removed := by simp [finish, hkeep]
    exact absurd (hremoved.symm.trans hforsaken.2) nofun

theorem works_conclude
    (h : s.process ≠ .running) (a : Attempt) (status : Int) (sequel : Sequel) :
    s.Works p refusal (s.conclude p a status sequel) := by
  cases sequel with
  | collect => exact works_finish h _
  | fail failure => exact works_finish h _

/-- A worker that has a workspace goes from one wait to another and keeps it. -/
theorem works_hold
    (hprocess : t.wait.Admits t.process) (hhold : t.wait.hasWorkspace = true)
    (hconsumer : t.consumer = s.consumer) (hloads : t.loads = s.loads)
    (hlibraries : t.libraries = s.libraries) :
    s.Works p refusal t where
  tidy := ⟨hprocess, fun _ hnone => absurd (hnone.symm.trans hhold) nofun⟩
  consumer := hconsumer
  loads _ hmove _ := hloads ▸ hmove
  libraries _ hmove _ := hlibraries ▸ hmove
  forsaken _ _ hforsaken := by
    rw [hforsaken.1] at hhold
    contradiction

/-- A process that has been started has ended once it has been stopped. -/
theorem hasEnded_stop
    {process : Process} (h : process ≠ .absent) :
    process.stop.hasEnded = true := by
  cases process with
  | absent => contradiction
  | _ => rfl

theorem works_terminate
    (h : s.process ≠ .absent) (a : Attempt) (sequel : Sequel) :
    s.Works p refusal (s.terminate p a sequel) := by
  unfold terminate
  split
  · next status hnoted => exact works_conclude (by rw [hnoted]; nofun) a status sequel
  · exact works_hold (hasEnded_stop h) rfl rfl rfl rfl

theorem works_withdraw
    (h : s.process ≠ .absent) (failure : Failure) :
    s.Works p refusal (s.withdraw failure) :=
  works_hold (hasEnded_stop h) rfl rfl rfl rfl

theorem works_connect
    (h : s.process ≠ .absent) (a : Attempt) :
    s.Works p refusal (s.connect a) := by
  unfold connect
  split_ifs
  · exact works_hold h rfl rfl rfl rfl
  · exact works_hold h rfl rfl rfl rfl

theorem works_launch
    (h : s.process ≠ .running) (engine : Loaded) (definitions : List String) :
    s.Works p refusal (s.launch p refusal engine definitions) := by
  unfold launch
  split_ifs
  · exact works_finish h _
  · split
    · exact works_finish h _
    · exact works_hold nofun rfl rfl rfl rfl

/-- The workspace that a worker begins with is its own. -/
theorem Works.of_workspace
    {workspace : Workspace} (h : Works p refusal { s with workspace } t)
    (hover : s.wait.isOver = false) :
    s.Works p refusal t where
  tidy := h.tidy
  consumer := h.consumer
  loads := h.loads
  libraries := h.libraries
  forsaken hkeep reason hforsaken := by
    rcases h.forsaken hkeep reason hforsaken with hearlier | hrefusal
    · exact absurd hearlier (not_isForsaken hover)
    · exact Or.inr hrefusal

theorem works_carryOut
    (h : s.process ≠ .running) (hover : s.wait.isOver = false) (engine : Loaded)
    (files : Library.Files) :
    s.Works p refusal (s.carryOut p refusal engine files) := by
  unfold carryOut
  split
  · next workspace failure _ =>
    exact .of_workspace (works_finish (s := { s with workspace }) h (.error failure)) hover
  · next workspace _ =>
    split
    · next failure _ =>
      exact .of_workspace (works_finish (s := { s with workspace }) h (.error failure)) hover
    · next definitions _ =>
      exact .of_workspace (works_launch (s := { s with workspace }) h engine definitions) hover

/-- A workspace that is refused a directory has not been made, or lacks the one for libraries. -/
theorem make_refused
    {workspace : Workspace} {failure : Failure}
    (hmake : Workspace.make (grantOf refusal) = (workspace, some failure)) :
    workspace = .removed ∨ ∃ reason, refusal = some (.libraries reason) ∧ workspace = .bare ∧
      failure = .workspaceRefused reason := by
  cases refusal with
  | none => simp [grantOf, Workspace.make] at hmake
  | some r =>
    cases r with
    | process => simp [grantOf, Workspace.make] at hmake
    | workspace reason => exact Or.inl (Prod.mk.inj hmake).1.symm
    | libraries reason =>
      obtain ⟨rfl, hfailure⟩ := Prod.mk.inj hmake
      exact Or.inr ⟨reason, rfl, rfl, (Option.some.inj hfailure).symm⟩

/-- What there is of a workspace that is refused one of its directories stays. -/
theorem works_abandon
    {workspace : Workspace} {failure : Failure} (h : s.process ≠ .running)
    (hmake : Workspace.make (grantOf refusal) = (workspace, some failure)) :
    s.Works p refusal ({ s with workspace }.abandon (.error failure)) := by
  rcases make_refused hmake with rfl | ⟨reason, rfl, rfl, rfl⟩
  · exact ⟨⟨h, fun _ _ => Or.inl rfl⟩, rfl, fun _ hmove _ => hmove, fun _ hmove _ => hmove,
      fun _ _ hforsaken => absurd hforsaken.2 nofun⟩
  · refine ⟨⟨h, fun _ _ => Or.inr ⟨reason, rfl, rfl⟩⟩, rfl, fun _ hmove _ => hmove,
      fun _ hmove _ => hmove, fun _ other hforsaken => Or.inr ?_⟩
    have hsame := hforsaken.1
    simp only [abandon, Wait.past.injEq, Except.error.injEq, Failure.workspaceRefused.injEq]
      at hsame
    rw [hsame]

theorem works_build
    (h : s.process ≠ .running) (hover : s.wait.isOver = false) (engine : Loaded)
    (files : Library.Files) :
    s.Works p refusal (s.build p refusal engine files) := by
  unfold build
  split
  · next hmake => exact works_abandon h hmake
  · next workspace _ =>
    exact .of_workspace (works_carryOut (s := { s with workspace }) h hover engine files) hover

theorem works_goOn
    {ν : Type} {next : Errand → ν → Errand} (h : s.process ≠ .running)
    (hnext : ∀ v, s.Works p refusal (next s v)) (outcome : Outcome ν) :
    s.Works p refusal (s.goOn p next outcome) := by
  cases outcome with
  | value v => exact hnext v
  | failure failure => exact works_finish h _
  | cancelled => exact works_finish h _

theorem Works.of_asking_engine
    (h : Works p refusal { s with loads := asking () s.loads } t) :
    s.Works p refusal t where
  tidy := h.tidy
  consumer := h.consumer
  loads move hmove hcancels := mem_of_mem_asking (h.loads move hmove hcancels) hcancels
  libraries := h.libraries
  forsaken := h.forsaken

theorem Works.of_asking_library
    {key : Library.Key} (h : Works p refusal { s with libraries := asking key s.libraries } t) :
    s.Works p refusal t where
  tidy := h.tidy
  consumer := h.consumer
  loads := h.loads
  libraries move hmove hcancels := mem_of_mem_asking (h.libraries move hmove hcancels) hcancels
  forsaken := h.forsaken

/-- A worker that holds nothing goes to wait and holds nothing. -/
theorem Bare.works_wait
    (h : s.Bare p) {wait : Wait} (hwait : wait.Admits s.process) (hover : wait.isOver = false) :
    s.Works p refusal { s with wait } where
  tidy := ⟨hwait, fun hkeep _ => Or.inl (h.workspace hkeep)⟩
  consumer := rfl
  loads _ hmove _ := hmove
  libraries _ hmove _ := hmove
  forsaken _ _ hforsaken := absurd hforsaken (not_isForsaken hover)

theorem Bare.works_equip
    (h : s.Bare p) (hover : s.wait.isOver = false) (engine : Loaded) :
    s.Works p refusal (s.equip p refusal engine) := by
  unfold equip
  split_ifs
  · have hbare : Bare p { s with libraries := asking p.library.key s.libraries } :=
      ⟨h.process, h.workspace⟩
    apply Works.of_asking_library
    dsimp only
    split
    · exact works_goOn hbare.process (works_build hbare.process hover engine) _
    · exact hbare.works_wait h.process rfl
  · exact works_build h.process hover engine []

theorem Bare.works_enter
    (h : s.Bare p) (hover : s.wait.isOver = false) :
    s.Works p refusal (s.enter p refusal) := by
  have hbare : Bare p { s with loads := asking () s.loads } := ⟨h.process, h.workspace⟩
  apply Works.of_asking_engine
  unfold enter
  dsimp only
  split
  · exact works_goOn hbare.process (hbare.works_equip hover) _
  · exact hbare.works_wait h.process rfl

/-- A turn of the worker. -/
theorem Tidy.works
    (h : s.Tidy p) (hturn : s.Turn p refusal t) :
    s.Works p refusal t := by
  have hprocess := h.process
  cases hturn with
  | drop hover hnone _ => exact works_finish (h.bare hover hnone).process _
  | cutShort hlast _ => exact works_finish (h.ne_running hlast) _
  | enter hwait _ =>
    have hover : s.wait.isOver = false := by rw [hwait]; rfl
    exact (h.bare hover (by rw [hwait]; rfl)).works_enter hover
  | equip hwait _ _ =>
    have hover : s.wait.isOver = false := by rw [hwait]; rfl
    have hbare := h.bare hover (by rw [hwait]; rfl)
    exact works_goOn hbare.process (hbare.works_equip hover) _
  | build hwait _ _ =>
    have hover : s.wait.isOver = false := by rw [hwait]; rfl
    have hbare := h.bare hover (by rw [hwait]; rfl)
    exact works_goOn hbare.process (works_build hbare.process hover _) _
  | connect hwait _ =>
    rw [hwait] at hprocess
    exact works_connect hprocess _
  | withdraw hwait _ =>
    rw [hwait] at hprocess
    exact works_withdraw hprocess _
  | report hwait _ => exact works_finish (h.ne_running (by rw [hwait]; rfl)) _
  | hurry hwait _ =>
    rw [hwait] at hprocess
    exact works_hold hprocess rfl rfl rfl rfl
  | terminate sequel hwait =>
    have hstarted : s.process ≠ .absent := by
      rcases hwait with hwait | ⟨isCancelled, hwait⟩
      · rwa [hwait] at hprocess
      · rwa [hwait] at hprocess
    exact works_terminate hstarted _ sequel
  | conclude hwait _ => exact works_conclude (h.ne_running (by rw [hwait]; rfl)) _ _ _

/-! ## A worker that has been cancelled -/

theorem isClearing_conclude (s : Errand) (a : Attempt) (status : Int) (sequel : Sequel) :
    (s.conclude p a status sequel).wait.isClearing = true := by
  cases sequel with
  | _ => rfl

theorem isClearing_terminate (s : Errand) (a : Attempt) (sequel : Sequel) :
    (s.terminate p a sequel).wait.isClearing = true := by
  unfold terminate
  split
  · exact isClearing_conclude s a _ sequel
  · rfl

/-- A worker that has been cancelled clears up, and does nothing else any more. -/
theorem Turn.isClearing
    (hturn : s.Turn p refusal t) (h : s.isCancelled = true ∨ s.wait.isClearing = true) :
    t.wait.isClearing = true := by
  cases hturn with
  | enter hwait hfree | equip hwait hfree _ | build hwait hfree _ | connect hwait hfree =>
    simp [hwait, hfree, Wait.isClearing] at h
  | terminate sequel _ => exact isClearing_terminate s _ sequel
  | conclude _ _ => exact isClearing_conclude s _ _ _
  | _ => rfl

theorem Turn.not_isOver
    (hturn : s.Turn p refusal t) :
    s.wait.isOver = false := by
  cases hturn with
  | drop hover _ _ => exact hover
  | cutShort hlast _ =>
    cases hwait : s.wait with
    | absent | past =>
      rw [hwait] at hlast
      contradiction
    | _ => rfl
  | enter hwait _ | equip hwait _ _ | build hwait _ _ | connect hwait _ | withdraw hwait _
  | report hwait _ | hurry hwait _ | conclude hwait _ =>
    rw [hwait]
    rfl
  | terminate _ hwait =>
    rcases hwait with hwait | ⟨isCancelled, hwait⟩
    · rw [hwait]
      rfl
    · rw [hwait]
      rfl

/-! ## Cancelling a worker -/

theorem mem_of_mem_cons_cancel
    {κ ν : Type} {waiter : Nat} {moves : List (Flight.Move κ ν)} {move : Flight.Move κ ν}
    (h : move ∈ .cancel waiter :: moves) (hcancels : move.cancels = true) :
    move ∈ moves := by
  rcases List.mem_cons.mp h with rfl | h
  · contradiction
  · exact h

theorem wait_cancel (s : Errand) : s.cancel.wait = s.wait := by
  unfold cancel
  split
  · rfl
  · rfl
  · rfl

theorem isCancelled_cancel (s : Errand) : s.cancel.isCancelled = true := by
  unfold cancel
  split
  · rfl
  · rfl
  · rfl

/-- The workspace stays where it is when the worker is cancelled, and the process goes on. -/
theorem held_cancel (s : Errand) :
    s.cancel.workspace = s.workspace ∧ s.cancel.process = s.process ∧
      s.cancel.consumer = s.consumer := by
  unfold cancel
  split
  · exact ⟨rfl, rfl, rfl⟩
  · exact ⟨rfl, rfl, rfl⟩
  · exact ⟨rfl, rfl, rfl⟩

theorem mem_of_mem_loads_cancel
    {move : Flight.Move Unit Loaded} (h : move ∈ s.cancel.loads) (hcancels : move.cancels = true) :
    move ∈ s.loads := by
  unfold cancel at h
  split at h
  · exact mem_of_mem_cons_cancel h hcancels
  · exact h
  · exact h

theorem mem_of_mem_libraries_cancel
    {move : Flight.Move Library.Key Library.Files} (h : move ∈ s.cancel.libraries)
    (hcancels : move.cancels = true) :
    move ∈ s.libraries := by
  unfold cancel at h
  split at h
  · exact h
  · exact mem_of_mem_cons_cancel h hcancels
  · exact h

theorem isForsaken_cancel_iff {reason : String} :
    s.cancel.IsForsaken reason ↔ s.IsForsaken reason := by
  rw [IsForsaken, IsForsaken, wait_cancel, (held_cancel s).1]

/-- To cancel a worker takes nothing from others. -/
theorem Tidy.works_cancel
    (h : s.Tidy p) :
    s.Works p refusal s.cancel := by
  obtain ⟨hworkspace, hprocess, hconsumer⟩ := held_cancel s
  refine ⟨⟨?_, ?_⟩, hconsumer, fun _ => mem_of_mem_loads_cancel,
    fun _ => mem_of_mem_libraries_cancel, fun _ _ hforsaken => Or.inl ?_⟩
  · rw [wait_cancel, hprocess]
    exact h.process
  · simpa only [wait_cancel, hworkspace, isForsaken_cancel_iff] using h.workspace
  · exact isForsaken_cancel_iff.mp hforsaken

end Compile.Errand

end SolidWorkshop
