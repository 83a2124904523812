import SolidWorkshop.Proofs.Compile.Clearing
import SolidWorkshop.Proofs.Compile.Course
import SolidWorkshop.Proofs.Compile.Verdict

/-!
# What a compile leaves behind

Whatever happens to an errand, nothing is left behind when its consumer is gone, but for a workspace
that could be made and not be given its directory for libraries.  Every compile that comes to an
end, or is stopped on its way, is the course of such an errand.
-/

namespace SolidWorkshop.Compile.Errand

open Engine

/-- What a compile of a message is for on a bench. -/
def purposeOn (b : Bench) (message : CompileMessage) : Purpose where
  message
  library := b.library
  keepWorkspaces := b.limits.keepWorkspaces

/-- How far a compile has come after some waits. -/
def reached (b : Bench) (message : CompileMessage) (waits : Nat) : Progress :=
  finishWithin message waits (Compile.enter b message)

/-- Some errand on a bench goes through the stages of a compile, and has come as far. -/
theorem exists_keepsPace (b : Bench) (message : CompileMessage) (waits : Nat) :
    ∃ s t, IsIdle s ∧ Leads (purposeOn b message) s t ∧
      t.KeepsPace (purposeOn b message) b.kept (reached b message waits).bench
        (reached b message waits).stage := by
  obtain ⟨loads, hloads⟩ := exists_shows () b.loaded?
  obtain ⟨libraries, hlibraries⟩ :=
    exists_shows b.library.key (b.libraries.peek? b.library.key)
  let s : Errand := { clock := b.clock, loads, libraries }
  have hidle : s.IsIdle := rfl
  obtain ⟨t, hleads, hpace⟩ := hidle.exists_run (p := purposeOn b message) rfl rfl rfl
    ⟨hloads, hlibraries⟩ waits
  exact ⟨s, t, hidle, hleads, hpace⟩

/-- A compile that comes to an end is the course of an errand whose consumer is gone in the end, and
leaves the workspaces that this leaves. -/
theorem exists_course
    {b : Bench} {message : CompileMessage} {outcome : Ended}
    (hended : (run b message).stage = .ended outcome) :
    ∃ s events t, IsIdle s ∧ s.run? (purposeOn b message) events = some t ∧ t.consumer = .gone ∧
      t.wait = .past outcome ∧
      (run b message).bench.kept = b.kept + t.workspace.isPresent.toNat := by
  obtain ⟨s, t, hidle, hleads, hattends, -, hstands⟩ := exists_keepsPace b message maxWaits
  have hrun : reached b message maxWaits = run b message := rfl
  rw [hrun, hended] at hstands
  obtain ⟨hwait, hkept⟩ := hstands
  have hleave : t.step? (purposeOn b message) .leave = some { t with consumer := .gone } := by
    simp [step?, hattends.consumer, hwait, Wait.isOver]
  obtain ⟨events, hcourse⟩ : Leads (purposeOn b message) s { t with consumer := .gone } :=
    hleads.trans (.step hleave (.refl _ _))
  exact ⟨s, events, _, hidle, hcourse, rfl, hwait, hkept⟩

/-- A compile that is stopped at one of its waits is the course of an errand whose consumer leaves
there.  It leaves the workspaces that this leaves, once nobody holds the streams of its run open. -/
theorem exists_course_of_stop (b : Bench) (message : CompileMessage) (waits : Nat) :
    let p := reached b message waits
    ∃ s events t, IsIdle s ∧ s.run? (purposeOn b message) events = some t ∧
      (t.consumer = .gone ∧
          (stop p.bench p.stage).1.kept = b.kept + t.workspace.isPresent.toNat ∨
        t.consumer = .leaving ∧ t.Lingers ∧
          (stop p.bench p.stage).1.kept = b.kept) := by
  intro p
  obtain ⟨s, t, hidle, hleads, hpace⟩ := exists_keepsPace b message waits
  obtain ⟨u, hleaves, hleft⟩ := hpace.stop
  obtain ⟨events, hrun⟩ := hleads.trans hleaves
  exact ⟨s, events, u, hidle, hrun, hleft⟩

/-- A compile leaves no workspace behind, unless workspaces are kept or its own is refused. -/
theorem kept_of_ended
    {b : Bench} {message : CompileMessage} {outcome : Ended}
    (hended : (run b message).stage = .ended outcome) (hkeep : b.limits.keepWorkspaces = false) :
    (run b message).bench.kept = b.kept ∨ ∃ reason,
      outcome = .error (.workspaceRefused reason) ∧ (run b message).bench.kept = b.kept + 1 := by
  obtain ⟨s, events, t, hidle, hrun, hgone, hwait, hkept⟩ := exists_course hended
  rcases (hidle.cleared hrun hgone).workspace hkeep with hremoved | ⟨reason, -, hforsaken⟩
  · rw [hremoved] at hkept
    exact Or.inl hkept
  · rw [hforsaken.2] at hkept
    exact Or.inr ⟨reason, Wait.past.inj (hwait.symm.trans hforsaken.1), hkept⟩

/-- When the consumer of an errand is gone, the worker has ended, no process is running, and unless
workspaces are kept the workspace is given back, exactly if it could be made whole.  A population
that is cancelled was struck by others.  Every compile that comes to an end is the course of an
errand, and so is every compile that is stopped at one of its waits. -/
theorem nothing_left_behind (b : Bench) (message : CompileMessage) :
    (∀ (s t : Errand) (events : List Event), s.IsIdle →
      s.run? (purposeOn b message) events = some t → t.consumer = .gone →
      s.Cleared (purposeOn b message) events t ∧
        (b.limits.keepWorkspaces = false →
          (t.workspace = .removed ↔ ∀ reason, ¬t.IsForsaken reason))) ∧
    (∀ outcome, (run b message).stage = .ended outcome →
      ∃ s events t, IsIdle s ∧ s.run? (purposeOn b message) events = some t ∧ t.consumer = .gone ∧
        t.wait = .past outcome ∧
        (run b message).bench.kept = b.kept + t.workspace.isPresent.toNat) ∧
    ∀ waits,
      let p := reached b message waits
      ∃ s events t, IsIdle s ∧ s.run? (purposeOn b message) events = some t ∧
        (t.consumer = .gone ∧
            (stop p.bench p.stage).1.kept = b.kept + t.workspace.isPresent.toNat ∨
          t.consumer = .leaving ∧ t.Lingers ∧
            (stop p.bench p.stage).1.kept = b.kept) := by
  refine ⟨fun s t events hs hrun hgone => ?_, fun _ => exists_course,
    exists_course_of_stop b message⟩
  have hcleared := hs.cleared hrun hgone
  exact ⟨hcleared, hcleared.workspace_eq_removed_iff⟩

/-- An errand for a cube. -/
def forCube : Purpose :=
  purposeOn (Bench.repeating {}) cube

/-- Somebody asks for an errand, and the engine is loaded. -/
def loadingEngine : List Event :=
  [.ask, .work none, .load (.turn 0), .load (.finish () (.value ⟨"2021.01", .int 300⟩)),
    .load (.turn 0), .load (.turn 0), .load (.turn 0), .load (.turn 0)]

/-- The consumer leaves while the engine is running: those who watch the run are cancelled, the
process is stopped, and the end of both is waited for. -/
def leavingEarly : List Event :=
  loadingEngine ++ [.work none, .work none, .leave, .work none, .work none, .note stoppedStatus,
    .close, .work none, .part]

theorem nothing_left_behind_of_leavingEarly :
    ∃ t, run? forCube {} leavingEarly = some t ∧ t.consumer = .gone ∧
      t.process = .noted stoppedStatus ∧ t.wait.isOver = true ∧ t.workspace = .removed := by
  have hends : (run? forCube {} leavingEarly).any (fun t => decide
      (t.consumer = .gone ∧ t.process = .noted stoppedStatus ∧ t.workspace.isPresent = false)) =
      true := by
    decide +kernel
  obtain ⟨t, hrun, hend⟩ := (Option.any_eq_true _ _).mp hends
  obtain ⟨hgone, hnoted, habsent⟩ := of_decide_eq_true hend
  have hidle : IsIdle {} := rfl
  obtain ⟨hcleared, hremoved⟩ :=
    (nothing_left_behind (Bench.repeating {}) cube).1 {} t leavingEarly hidle hrun hgone
  refine ⟨t, hrun, hgone, hnoted, hcleared.isOver, (hremoved rfl).mpr ?_⟩
  rintro reason ⟨-, hbare⟩
  rw [hbare] at habsent
  contradiction

/-- The workspace is made, and refused its directory for libraries. -/
def refusedLibraries : List Event :=
  loadingEngine ++ [.work (some (.libraries "File name too long")), .leave]

/-- A workspace that could not be made whole is left behind. -/
theorem not_forall_removed :
    ¬∀ (p : Purpose) (s t : Errand) (events : List Event), s.IsIdle → s.run? p events = some t →
      t.consumer = .gone → p.keepWorkspaces = false → t.workspace = .removed := by
  intro hall
  have hends : (run? forCube {} refusedLibraries).any (fun t => decide
      (t.consumer = .gone ∧ t.workspace.isPresent = true)) = true := by
    decide +kernel
  obtain ⟨t, hrun, hend⟩ := (Option.any_eq_true _ _).mp hends
  obtain ⟨hgone, hpresent⟩ := of_decide_eq_true hend
  rw [hall forCube {} t refusedLibraries rfl hrun hgone rfl] at hpresent
  contradiction

end SolidWorkshop.Compile.Errand
