import SolidWorkshop.Proofs.Compile.Turn
import SolidWorkshop.Proofs.Flight.Fate

/-!
# Clearing up

However an errand comes to its end, and wherever it is cancelled, the worker ends, the process is
stopped, the workspace is given back if it could be made whole, and what others wait for too goes
on.  A consumer that leaves waits for no more than this.
-/

namespace SolidWorkshop

namespace Flight

variable {κ ν : Type}

/-- A population has been cancelled, or is to be in its next turn. -/
def Population.IsCancelled (population : Population κ ν) : Prop :=
  population.doomed = true ∨ population.answer = some .cancelled ∨
    population.outcome = some .cancelled

namespace State

variable [DecidableEq κ] {moves : List (Move κ ν)} {p : Nat}

/-- A move that comes after others cancels a population: it aborts it, or tells it that it is
cancelled. -/
inductive Strikes (p : Nat) (earlier : List (Move κ ν)) : Move κ ν → Prop
  | abort {key : κ} (h : (after earlier).inflight.lookup key = some p) :
    Strikes p earlier (.abort key)
  | finish {key : κ} (h : (after earlier).open? key = some p) :
    Strikes p earlier (.finish key .cancelled)

theorem Strikes.cancels
    {earlier : List (Move κ ν)} {move : Move κ ν} (h : Strikes p earlier move) :
    move.cancels = true := by
  cases h with
  | _ => rfl

theorem Told.exists_strikes
    (h : Told p .cancelled moves) :
    ∃ move earlier, move :: earlier <:+ moves ∧ Strikes p earlier move := by
  induction h with
  | now hopen => exact ⟨_, _, List.suffix_rfl, .finish hopen⟩
  | before _ ih =>
    obtain ⟨move, earlier, hsuffix, hstrikes⟩ := ih
    exact ⟨move, earlier, hsuffix.trans (List.suffix_cons _ _), hstrikes⟩

theorem Aborted.exists_strikes
    (h : Aborted p moves) :
    ∃ move earlier, move :: earlier <:+ moves ∧ Strikes p earlier move := by
  induction h with
  | now hflight => exact ⟨_, _, List.suffix_rfl, .abort hflight⟩
  | before _ ih =>
    obtain ⟨move, earlier, hsuffix, hstrikes⟩ := ih
    exact ⟨move, earlier, hsuffix.trans (List.suffix_cons _ _), hstrikes⟩

/-- A population is cancelled by a move that strikes it, and not by a waiter that goes. -/
theorem exists_strikes
    {population : Population κ ν} (hp : (after moves).populations[p]? = some population)
    (hcancelled : population.IsCancelled) :
    ∃ move earlier, move :: earlier <:+ moves ∧ Strikes p earlier move := by
  have haccounts := accounts_after moves hp
  have hanswered : population.answer = some .cancelled →
      ∃ move earlier, move :: earlier <:+ moves ∧ Strikes p earlier move := by
    intro hanswer
    rcases haccounts.answered _ hanswer with htold | ⟨-, haborted⟩
    · exact htold.exists_strikes
    · exact haborted.exists_strikes
  rcases hcancelled with hdoomed | hanswer | houtcome
  · exact (haccounts.doomed hdoomed).exists_strikes
  · exact hanswered hanswer
  · rcases haccounts.ended _ houtcome with ⟨hdoomed, -⟩ | ⟨-, hanswer⟩
    · exact (haccounts.doomed hdoomed).exists_strikes
    · exact hanswered hanswer

end State

end Flight

namespace Compile

open Engine
open Flight.State (Strikes after exists_strikes)

namespace Errand

variable {p : Purpose} {refusal : Option Refusal} {s t : Errand}

/-! ## What holds after all that happens -/

/-- What holds between any two things that happen. -/
structure Orderly (p : Purpose) (s : Errand) : Prop extends Tidy p s where
  idle : s.consumer = .idle → s.wait = .absent
  leaving : s.consumer = .leaving → s.isCancelled = true ∨ s.wait.isClearing = true
  gone : s.consumer = .gone → s.wait.isOver = true

/-- Populations are cancelled and workspaces are forsaken only by what has happened before or
happens now to them. -/
structure Spares (p : Purpose) (s : Errand) (e : Event) (t : Errand) : Prop where
  loads : ∀ move ∈ t.loads, move.cancels = true → move ∈ s.loads ∨ e = .load move
  libraries : ∀ move ∈ t.libraries, move.cancels = true → move ∈ s.libraries ∨ e = .resolve move
  forsaken : p.keepWorkspaces = false → ∀ reason, t.IsForsaken reason →
    s.IsForsaken reason ∨ e = .work (some (.libraries reason))

theorem Works.spares
    (h : s.Works p refusal t) {e : Event} (he : e = .work refusal ∨ refusal = none) :
    s.Spares p e t where
  loads move hmove hcancels := Or.inl (h.loads move hmove hcancels)
  libraries move hmove hcancels := Or.inl (h.libraries move hmove hcancels)
  forsaken hkeep reason hforsaken := by
    refine (h.forsaken hkeep reason hforsaken).imp_right fun hrefusal => ?_
    rcases he with rfl | hnone
    · rw [hrefusal]
    · rw [hnone] at hrefusal
      contradiction

/-- What happens besides spares all that it does not touch. -/
theorem spares_of_eq
    {e : Event} (hloads : t.loads = s.loads) (hlibraries : t.libraries = s.libraries)
    (hforsaken : ∀ reason, t.IsForsaken reason → s.IsForsaken reason) :
    s.Spares p e t := by
  refine ⟨fun move hmove _ => Or.inl ?_, fun move hmove _ => Or.inl ?_,
    fun _ reason h => Or.inl (hforsaken reason h)⟩
  · rwa [hloads] at hmove
  · rwa [hlibraries] at hmove

theorem Orderly.cancel
    (h : s.Orderly p) (hwait : s.wait.isOver = false) :
    s.cancel.Orderly p := by
  have hworks : s.Works p none s.cancel := h.works_cancel
  refine ⟨hworks.tidy, fun hidle => ?_, fun _ => Or.inl (isCancelled_cancel s), fun hgone => ?_⟩
  · rw [hworks.consumer] at hidle
    rw [h.idle hidle] at hwait
    contradiction
  · rw [hworks.consumer] at hgone
    rw [h.gone hgone] at hwait
    contradiction

theorem Orderly.work
    (h : s.Orderly p) (hturn : s.Turn p refusal t) :
    t.Orderly p := by
  have hworks := h.works hturn
  have hwait := hturn.not_isOver
  refine ⟨hworks.tidy, fun hidle => ?_, fun hleaving => Or.inr ?_, fun hgone => ?_⟩
  · rw [hworks.consumer] at hidle
    rw [h.idle hidle] at hwait
    contradiction
  · rw [hworks.consumer] at hleaving
    exact hturn.isClearing (h.leaving hleaving)
  · rw [hworks.consumer] at hgone
    rw [h.gone hgone] at hwait
    contradiction

/-- A process that has ended is admitted everywhere. -/
theorem admits_of_hasEnded
    {process : Process} (h : process.hasEnded = true) (wait : Wait) :
    wait.Admits process := by
  cases wait with
  | connection | run | watchers =>
    rintro rfl
    contradiction
  | withdrawal | exit => exact h
  | _ => exact ne_running_of_hasEnded h

/-- What happens besides does not move the worker. -/
theorem Orderly.beside
    (h : s.Orderly p) (htidy : t.Tidy p) (hconsumer : t.consumer = s.consumer)
    (hwait : t.wait = s.wait) (hcancelled : t.isCancelled = s.isCancelled) :
    t.Orderly p := by
  refine ⟨htidy, ?_, ?_, ?_⟩
  · rw [hconsumer, hwait]
    exact h.idle
  · rw [hconsumer, hwait, hcancelled]
    exact h.leaving
  · rw [hconsumer, hwait]
    exact h.gone

theorem Orderly.ask
    (h : s.Orderly p) (hidle : s.consumer = .idle) :
    Orderly p { s with consumer := .following, wait := .turn } := by
  have hbare : s.workspace = .removed ∨ p.keepWorkspaces = true := by
    cases hkeep : p.keepWorkspaces with
    | true => exact Or.inr rfl
    | false =>
      rcases h.workspace hkeep (by rw [h.idle hidle]; rfl) with hremoved | ⟨reason, hwait, -⟩
      · exact Or.inl hremoved
      · rw [h.idle hidle] at hwait
        contradiction
  have hprocess := h.process
  rw [h.idle hidle] at hprocess
  refine ⟨⟨hprocess, fun hkeep _ => Or.inl ?_⟩, nofun, nofun, nofun⟩
  exact hbare.resolve_right (by simp [hkeep])

theorem Orderly.part
    (h : s.Orderly p) (hover : s.wait.isOver = true) :
    Orderly p { s with consumer := .gone } :=
  ⟨⟨h.process, h.workspace⟩, nofun, nofun, fun _ => hover⟩

/-! ### One thing that happens -/

theorem Orderly.step_ask
    (h : s.Orderly p) (hstep : s.step? p .ask = some t) :
    t.Orderly p ∧ s.Spares p .ask t := by
  simp only [step?] at hstep
  split at hstep
  · next hidle =>
    obtain rfl := Option.some.inj hstep
    exact ⟨h.ask hidle, spares_of_eq rfl rfl fun _ hforsaken => absurd hforsaken.1 nofun⟩
  · contradiction

theorem Orderly.step_leave
    (h : s.Orderly p) (hstep : s.step? p .leave = some t) :
    t.Orderly p ∧ s.Spares p .leave t := by
  simp only [step?] at hstep
  split at hstep
  · next hidle =>
    obtain rfl := Option.some.inj hstep
    exact ⟨h.part (by rw [h.idle hidle]; rfl), spares_of_eq rfl rfl fun _ hforsaken => hforsaken⟩
  · split_ifs at hstep with hover
    · obtain rfl := Option.some.inj hstep
      exact ⟨h.part hover, spares_of_eq rfl rfl fun _ hforsaken => hforsaken⟩
    · obtain rfl := Option.some.inj hstep
      have hcancel := h.cancel (by simpa using hover)
      have hspares : s.Spares p .leave s.cancel := h.works_cancel.spares (Or.inr rfl)
      refine ⟨⟨⟨hcancel.process, hcancel.workspace⟩, nofun, fun _ => ?_, nofun⟩,
        ⟨hspares.loads, hspares.libraries, hspares.forsaken⟩⟩
      exact Or.inl (isCancelled_cancel s)
  · split_ifs at hstep with hover
    obtain rfl := Option.some.inj hstep
    exact ⟨h.cancel (by simpa using hover), h.works_cancel.spares (Or.inr rfl)⟩
  · contradiction

theorem Orderly.step_part
    (h : s.Orderly p) (hstep : s.step? p .part = some t) :
    t.Orderly p ∧ s.Spares p .part t := by
  simp only [step?] at hstep
  split at hstep
  · split_ifs at hstep with hover
    obtain rfl := Option.some.inj hstep
    exact ⟨h.part hover, spares_of_eq rfl rfl fun _ hforsaken => hforsaken⟩
  · contradiction

theorem Orderly.step_interrupt
    (h : s.Orderly p) (hstep : s.step? p .interrupt = some t) :
    t.Orderly p ∧ s.Spares p .interrupt t := by
  simp only [step?] at hstep
  split_ifs at hstep with hover
  obtain rfl := Option.some.inj hstep
  exact ⟨h.cancel (by simpa using hover), h.works_cancel.spares (Or.inr rfl)⟩

theorem Orderly.step_work
    (h : s.Orderly p) (hstep : s.step? p (.work refusal) = some t) :
    t.Orderly p ∧ s.Spares p (.work refusal) t := by
  have hturn := turn_of_work hstep
  exact ⟨h.work hturn, (h.works hturn).spares (Or.inl rfl)⟩

theorem Orderly.step_load
    (h : s.Orderly p) {move : Flight.Move Unit Loaded} (hstep : s.step? p (.load move) = some t) :
    t.Orderly p ∧ s.Spares p (.load move) t := by
  obtain rfl := Option.some.inj hstep
  refine ⟨h.beside ⟨h.process, h.workspace⟩ rfl rfl rfl, fun other hother _ => ?_,
    fun _ hmove _ => Or.inl hmove, fun _ _ hforsaken => Or.inl hforsaken⟩
  rcases List.mem_cons.mp hother with rfl | hother
  · exact Or.inr rfl
  · exact Or.inl hother

theorem Orderly.step_resolve
    (h : s.Orderly p) {move : Flight.Move Library.Key Library.Files}
    (hstep : s.step? p (.resolve move) = some t) :
    t.Orderly p ∧ s.Spares p (.resolve move) t := by
  obtain rfl := Option.some.inj hstep
  refine ⟨h.beside ⟨h.process, h.workspace⟩ rfl rfl rfl, fun _ hmove _ => Or.inl hmove,
    fun other hother _ => ?_, fun _ _ hforsaken => Or.inl hforsaken⟩
  rcases List.mem_cons.mp hother with rfl | hother
  · exact Or.inr rfl
  · exact Or.inl hother

theorem Orderly.step_write
    (h : s.Orderly p) {entries : List (Place × Entry)}
    (hstep : s.step? p (.write entries) = some t) :
    t.Orderly p ∧ s.Spares p (.write entries) t := by
  simp only [step?] at hstep
  split at hstep
  · next hrunning =>
    obtain rfl := Option.some.inj hstep
    have hprocess := h.process
    rw [hrunning] at hprocess
    have hhold := hasWorkspace_of_running hprocess
    refine ⟨h.beside ⟨h.process, fun _ hnone => ?_⟩ rfl rfl rfl,
      spares_of_eq rfl rfl fun _ hforsaken => ?_⟩
    · exact absurd (hnone.symm.trans hhold) nofun
    · have hpast := hforsaken.1
      dsimp only at hpast
      rw [hpast] at hhold
      contradiction
  · contradiction

/-- The process has come to its end, or this has been noted. -/
theorem Orderly.ended
    (h : s.Orderly p) {process : Process} (hended : process.hasEnded = true) (e : Event) :
    Orderly p { s with process } ∧ s.Spares p e { s with process } :=
  ⟨h.beside ⟨admits_of_hasEnded hended _, h.workspace⟩ rfl rfl rfl,
    spares_of_eq rfl rfl fun _ hforsaken => hforsaken⟩

theorem Orderly.step_exit
    (h : s.Orderly p) (hstep : s.step? p .exit = some t) :
    t.Orderly p ∧ s.Spares p .exit t := by
  simp only [step?] at hstep
  split at hstep
  · obtain rfl := Option.some.inj hstep
    exact h.ended rfl _
  · contradiction

theorem Orderly.step_note
    (h : s.Orderly p) {status : Int} (hstep : s.step? p (.note status) = some t) :
    t.Orderly p ∧ s.Spares p (.note status) t := by
  simp only [step?] at hstep
  split at hstep
  · obtain rfl := Option.some.inj hstep
    exact h.ended rfl _
  · contradiction

/-- What those who watch the run find is nobody else's. -/
theorem Orderly.watches
    (h : s.Orderly p) (isClosed isLate : Bool) (watched : Option Sequel) (clock : Binary64)
    (e : Event) :
    Orderly p { s with isClosed, isLate, watched, clock } ∧
      s.Spares p e { s with isClosed, isLate, watched, clock } :=
  ⟨h.beside ⟨h.process, h.workspace⟩ rfl rfl rfl,
    spares_of_eq rfl rfl fun _ hforsaken => hforsaken⟩

theorem Orderly.step_close
    (h : s.Orderly p) (hstep : s.step? p .close = some t) :
    t.Orderly p ∧ s.Spares p .close t := by
  simp only [step?] at hstep
  split at hstep
  · contradiction
  · obtain rfl := Option.some.inj hstep
    exact h.watches true s.isLate s.watched s.clock _

theorem Orderly.step_watch
    (h : s.Orderly p) {sequel : Sequel} (hstep : s.step? p (.watch sequel) = some t) :
    t.Orderly p ∧ s.Spares p (.watch sequel) t := by
  simp only [step?] at hstep
  split at hstep
  · obtain rfl := Option.some.inj hstep
    exact h.watches s.isClosed s.isLate (some sequel) s.clock _
  · obtain rfl := Option.some.inj hstep
    exact h.watches s.isClosed s.isLate (some sequel) s.clock _
  · contradiction

theorem Orderly.step_limit
    (h : s.Orderly p) (hstep : s.step? p .limit = some t) :
    t.Orderly p ∧ s.Spares p .limit t := by
  simp only [step?] at hstep
  split at hstep
  · obtain rfl := Option.some.inj hstep
    exact h.watches s.isClosed true s.watched s.clock _
  · contradiction

theorem Orderly.step_pass
    (h : s.Orderly p) {seconds : Binary64} (hstep : s.step? p (.pass seconds) = some t) :
    t.Orderly p ∧ s.Spares p (.pass seconds) t := by
  obtain rfl := Option.some.inj hstep
  exact h.watches s.isClosed s.isLate s.watched _ _

theorem Orderly.step
    (h : s.Orderly p) {e : Event} (hstep : s.step? p e = some t) :
    t.Orderly p ∧ s.Spares p e t := by
  cases e with
  | ask => exact h.step_ask hstep
  | leave => exact h.step_leave hstep
  | part => exact h.step_part hstep
  | interrupt => exact h.step_interrupt hstep
  | work refusal => exact h.step_work hstep
  | load move => exact h.step_load hstep
  | resolve move => exact h.step_resolve hstep
  | write entries => exact h.step_write hstep
  | exit => exact h.step_exit hstep
  | note status => exact h.step_note hstep
  | close => exact h.step_close hstep
  | watch sequel => exact h.step_watch hstep
  | limit => exact h.step_limit hstep
  | pass seconds => exact h.step_pass hstep

/-! ### All that happens -/

/-- Populations are cancelled and workspaces are forsaken only by what has happened before or
happens to them meanwhile. -/
structure SparesAll (p : Purpose) (s : Errand) (events : List Event) (t : Errand) : Prop where
  loads : ∀ move ∈ t.loads, move.cancels = true → move ∈ s.loads ∨ .load move ∈ events
  libraries : ∀ move ∈ t.libraries, move.cancels = true →
    move ∈ s.libraries ∨ .resolve move ∈ events
  forsaken : p.keepWorkspaces = false → ∀ reason, t.IsForsaken reason →
    s.IsForsaken reason ∨ .work (some (.libraries reason)) ∈ events

theorem sparesAll_nil (p : Purpose) (s : Errand) : s.SparesAll p [] s :=
  ⟨fun _ hmove _ => Or.inl hmove, fun _ hmove _ => Or.inl hmove, fun _ _ h => Or.inl h⟩

theorem Spares.cons
    {later : Errand} {e : Event} {events : List Event} (h : s.Spares p e later)
    (hrest : later.SparesAll p events t) :
    s.SparesAll p (e :: events) t where
  loads move hmove hcancels := by
    rcases hrest.loads move hmove hcancels with hearlier | hevent
    · exact (h.loads move hearlier hcancels).imp_right fun he => by simp [he]
    · exact Or.inr (List.mem_cons_of_mem _ hevent)
  libraries move hmove hcancels := by
    rcases hrest.libraries move hmove hcancels with hearlier | hevent
    · exact (h.libraries move hearlier hcancels).imp_right fun he => by simp [he]
    · exact Or.inr (List.mem_cons_of_mem _ hevent)
  forsaken hkeep reason hforsaken := by
    rcases hrest.forsaken hkeep reason hforsaken with hearlier | hevent
    · exact (h.forsaken hkeep reason hearlier).imp_right fun he => by simp [he]
    · exact Or.inr (List.mem_cons_of_mem _ hevent)

theorem Orderly.run
    (h : s.Orderly p) {events : List Event} (hrun : s.run? p events = some t) :
    t.Orderly p ∧ s.SparesAll p events t := by
  induction events generalizing s with
  | nil =>
    obtain rfl := Option.some.inj hrun
    exact ⟨h, sparesAll_nil p s⟩
  | cons e events ih =>
    rw [run?, List.foldlM_cons] at hrun
    obtain ⟨later, hstep, hrest⟩ := Option.bind_eq_some_iff.mp hrun
    obtain ⟨hlater, hspares⟩ := h.step hstep
    obtain ⟨hend, hall⟩ := ih hlater hrest
    exact ⟨hend, hspares.cons hall⟩

theorem IsIdle.orderly
    (h : s.IsIdle) :
    s.Orderly p := by
  rw [h]
  exact ⟨⟨nofun, fun _ _ => Or.inl rfl⟩, fun _ => rfl, nofun, nofun⟩

/-- An errand that began as `s` is over, and nothing is left behind: the worker has ended, no
process is running, and unless workspaces are kept the workspace is given back, or could not be
made whole.  A population that is cancelled was struck by others. -/
structure Cleared (p : Purpose) (s : Errand) (events : List Event) (t : Errand) : Prop where
  isOver : t.wait.isOver = true
  process : t.process ≠ .running
  workspace : p.keepWorkspaces = false → t.workspace = .removed ∨
    ∃ reason, .work (some (.libraries reason)) ∈ events ∧ t.IsForsaken reason
  loads : ∀ (i : Nat) population, (after t.loads).populations[i]? = some population →
    population.IsCancelled → ∃ move earlier, move :: earlier <:+ t.loads ∧
      Strikes i earlier move ∧ (move ∈ s.loads ∨ .load move ∈ events)
  libraries : ∀ (i : Nat) population, (after t.libraries).populations[i]? = some population →
    population.IsCancelled → ∃ move earlier, move :: earlier <:+ t.libraries ∧
      Strikes i earlier move ∧ (move ∈ s.libraries ∨ .resolve move ∈ events)

/-- Unless workspaces are kept, one is left exactly if it could not be made whole. -/
theorem Cleared.workspace_eq_removed_iff
    {events : List Event} (h : s.Cleared p events t) (hkeep : p.keepWorkspaces = false) :
    t.workspace = .removed ↔ ∀ reason, ¬t.IsForsaken reason := by
  constructor
  · rintro hremoved reason ⟨-, hbare⟩
    have hsame : Workspace.removed = .bare := hremoved.symm.trans hbare
    exact absurd (congrArg Workspace.isPresent hsame) Bool.false_ne_true
  · intro hnone
    refine (h.workspace hkeep).resolve_right ?_
    rintro ⟨reason, -, hforsaken⟩
    exact hnone reason hforsaken

theorem IsIdle.cleared
    {events : List Event} (hs : s.IsIdle) (hrun : s.run? p events = some t)
    (hgone : t.consumer = .gone) :
    s.Cleared p events t := by
  obtain ⟨horderly, hspares⟩ := hs.orderly.run hrun
  have hover := horderly.gone hgone
  have hnone := hasWorkspace_of_isOver hover
  refine ⟨hover, horderly.ne_running_of_none hnone, fun hkeep => ?_,
    fun i population hp hcancelled => ?_, fun i population hp hcancelled => ?_⟩
  · refine (horderly.workspace hkeep hnone).imp_right ?_
    rintro ⟨reason, hforsaken⟩
    refine ⟨reason, (hspares.forsaken hkeep reason hforsaken).resolve_left ?_, hforsaken⟩
    rw [hs]
    exact fun hidle => absurd hidle.1 nofun
  · obtain ⟨move, earlier, hsuffix, hstrikes⟩ := exists_strikes hp hcancelled
    have hmove := hspares.loads move (hsuffix.mem List.mem_cons_self) hstrikes.cancels
    exact ⟨move, earlier, hsuffix, hstrikes, hmove⟩
  · obtain ⟨move, earlier, hsuffix, hstrikes⟩ := exists_strikes hp hcancelled
    have hmove := hspares.libraries move (hsuffix.mem List.mem_cons_self) hstrikes.cancels
    exact ⟨move, earlier, hsuffix, hstrikes, hmove⟩

/-! ## A consumer that leaves is let go -/

/-- What brings an errand to its end once the consumer is leaving: turns of the worker, and that
the end of the process is noted and its streams are closed. -/
def Event.isClearing : Event → Bool
  | .work _ | .note _ | .close | .part => true
  | _ => false

/-- The consumer is gone once nothing but this has happened. -/
def LetsGo (p : Purpose) (s : Errand) : Prop :=
  ∃ events t, (∀ e ∈ events, e.isClearing = true) ∧ s.run? p events = some t ∧ t.consumer = .gone

theorem LetsGo.step
    {e : Event} (ht : t.LetsGo p) (hclearing : e.isClearing = true) (hstep : s.step? p e = some t) :
    s.LetsGo p := by
  obtain ⟨events, u, hevents, hrun, hgone⟩ := ht
  refine ⟨e :: events, u, List.forall_mem_cons.mpr ⟨hclearing, hevents⟩, ?_, hgone⟩
  rw [run?, List.foldlM_cons, hstep]
  exact hrun

theorem letsGo_of_isOver
    (hleaving : s.consumer = .leaving) (hover : s.wait.isOver = true) :
    s.LetsGo p := by
  refine ⟨[.part], { s with consumer := .gone }, by simp [Event.isClearing], ?_, rfl⟩
  simp [run?, step?, hleaving, hover]

theorem letsGo_of_work
    (ht : t.LetsGo p) (hwork : s.work p none = some t) :
    s.LetsGo p :=
  ht.step (e := .work none) rfl hwork

theorem letsGo_finish
    (hleaving : s.consumer = .leaving) (outcome : Ended) :
    (s.finish p outcome).LetsGo p :=
  letsGo_of_isOver hleaving rfl

theorem letsGo_conclude
    (hleaving : s.consumer = .leaving) (a : Attempt) (status : Int) (sequel : Sequel) :
    (s.conclude p a status sequel).LetsGo p := by
  cases sequel with
  | collect => exact letsGo_finish hleaving _
  | fail failure => exact letsGo_finish hleaving _

/-- Once the process has ended, its streams are closed and this has been noted, the worker ends. -/
theorem letsGo_of_noted
    {status : Int} (hleaving : s.consumer = .leaving) (hprocess : s.process = .noted status)
    (hclosed : s.isClosed = true)
    (hwait : (∃ failure, s.wait = .withdrawal failure) ∨ ∃ a sequel, s.wait = .exit a sequel) :
    s.LetsGo p := by
  rcases hwait with ⟨failure, hwait⟩ | ⟨a, sequel, hwait⟩
  · cases hcancelled : s.isCancelled with
    | true =>
      refine letsGo_of_work (letsGo_finish hleaving (.error .cancelled)) ?_
      simp [work, hwait, hcancelled]
    | false =>
      refine letsGo_of_work (letsGo_finish hleaving (.error failure)) ?_
      simp [work, hwait, hcancelled, hprocess]
  · cases hcancelled : s.isCancelled with
    | true =>
      refine letsGo_of_work (letsGo_finish hleaving (.error .cancelled)) ?_
      simp [work, hwait, hcancelled]
    | false =>
      refine letsGo_of_work (letsGo_conclude hleaving a status sequel) ?_
      simp [work, hwait, hcancelled, hprocess, hclosed]

/-- A worker that waits for the end of a process gets there once the process has ended. -/
theorem letsGo_of_hasEnded
    (hleaving : s.consumer = .leaving) (hended : s.process.hasEnded = true)
    (hwait : (∃ failure, s.wait = .withdrawal failure) ∨ ∃ a sequel, s.wait = .exit a sequel) :
    s.LetsGo p := by
  have hclose : ∀ u : Errand, u.consumer = .leaving → u.wait = s.wait →
      (∃ status, u.process = .noted status) → u.LetsGo p := by
    rintro u hconsumer hsame ⟨status, hnoted⟩
    rw [← hsame] at hwait
    have hclosed : LetsGo p { u with isClosed := true } :=
      letsGo_of_noted hconsumer hnoted rfl hwait
    refine hclosed.step (e := .close) rfl ?_
    simp [step?, hnoted]
  cases hprocess : s.process with
  | absent | running =>
    rw [hprocess] at hended
    contradiction
  | ended =>
    have hnoted : LetsGo p { s with process := .noted 0 } := hclose _ hleaving rfl ⟨0, rfl⟩
    refine hnoted.step (e := .note 0) rfl ?_
    simp [step?, hprocess]
  | noted status => exact hclose s hleaving rfl ⟨status, hprocess⟩

theorem letsGo_terminate
    (hleaving : s.consumer = .leaving) (hprocess : s.process ≠ .absent) (a : Attempt)
    (sequel : Sequel) :
    (s.terminate p a sequel).LetsGo p := by
  unfold terminate
  split
  · exact letsGo_conclude hleaving a _ sequel
  · exact letsGo_of_hasEnded hleaving (hasEnded_stop hprocess) (Or.inr ⟨a, sequel, rfl⟩)

theorem letsGo_of_watchers
    {a : Attempt} {isCancelled : Bool} (hleaving : s.consumer = .leaving)
    (hprocess : s.process ≠ .absent) (hwait : s.wait = .watchers a isCancelled) :
    s.LetsGo p := by
  have hnext := letsGo_terminate (p := p) hleaving hprocess a
  cases hcancelled : s.isCancelled || isCancelled with
  | true => exact letsGo_of_work (hnext (.fail .cancelled)) (by simp [work, hwait, hcancelled])
  | false =>
    exact letsGo_of_work (hnext (s.watched.getD .collect)) (by simp [work, hwait, hcancelled])

/-- A consumer that is leaving is not kept waiting: the worker clears up, and waits for nothing but
the end of a process that has been stopped, and of those who hold its streams open. -/
theorem Orderly.letsGo
    (h : s.Orderly p) (hleaving : s.consumer = .leaving) :
    s.LetsGo p := by
  have hprocess := h.process
  have hclears := h.leaving hleaving
  cases hwait : s.wait with
  | absent | past => exact letsGo_of_isOver hleaving (by simp [hwait, Wait.isOver])
  | turn | engine | library =>
    have hcancelled : s.isCancelled = true :=
      hclears.resolve_right (by simp [hwait, Wait.isClearing])
    refine letsGo_of_work (letsGo_finish hleaving (.error .cancelled)) ?_
    simp [Errand.work, hwait, hcancelled]
  | connection a =>
    rw [hwait] at hprocess
    have hcancelled : s.isCancelled = true :=
      hclears.resolve_right (by simp [hwait, Wait.isClearing])
    have hnext : (s.withdraw .cancelled).LetsGo p :=
      letsGo_of_hasEnded hleaving (hasEnded_stop hprocess) (Or.inl ⟨_, rfl⟩)
    exact letsGo_of_work hnext (by simp [Errand.work, hwait, hcancelled])
  | run a =>
    rw [hwait] at hprocess
    have hcancelled : s.isCancelled = true :=
      hclears.resolve_right (by simp [hwait, Wait.isClearing])
    cases hwatched : s.watched with
    | some sequel =>
      refine letsGo_of_work (letsGo_terminate hleaving hprocess a sequel) ?_
      simp [Errand.work, hwait, hwatched]
    | none =>
      have hnext : LetsGo p { s with wait := .watchers a true, isCancelled := false } :=
        letsGo_of_watchers hleaving hprocess rfl
      refine letsGo_of_work hnext ?_
      simp [Errand.work, hwait, hwatched, hcancelled]
  | watchers a isCancelled =>
    rw [hwait] at hprocess
    exact letsGo_of_watchers hleaving hprocess hwait
  | withdrawal failure =>
    rw [hwait] at hprocess
    exact letsGo_of_hasEnded hleaving hprocess (Or.inl ⟨failure, hwait⟩)
  | exit a sequel =>
    rw [hwait] at hprocess
    exact letsGo_of_hasEnded hleaving hprocess (Or.inr ⟨a, sequel, hwait⟩)

/-- A consumer that goes away is let go, whatever has happened. -/
theorem letsGo_of_leaving
    {events : List Event} (hs : s.IsIdle) (hrun : s.run? p events = some t)
    (hleaving : t.consumer = .leaving) :
    t.LetsGo p :=
  (hs.orderly.run hrun).1.letsGo hleaving

end Errand

end Compile

end SolidWorkshop
