import SolidWorkshop.Job.Floor
import SolidWorkshop.Proofs.Job.Finality

/-!
# The floor's schedule

The floor goes on with its compiles and has its workers take ids in an order of its own.  With a
compiler that puts out its last message at its end only, whatever it does to its board is a run of
moves, none of which accepts a job.
-/

namespace SolidWorkshop

open Relation

namespace Compile

variable {σ π : Type}

/-- The messages of a stretch are lines of the log, and one more if the compile is over then. -/
def Stretch.IsOrderly (s : Stretch σ π) : Prop :=
  ∃ lines : List LogLine, match s.next with
    | .over => ∃ reply, s.replies = lines.map .log ++ [reply]
    | _ => s.replies = lines.map .log

/-- All stretches of a compiler are orderly. -/
structure Compiler.IsOrderly (c : Compiler σ π) : Prop where
  start : ∀ shared message, (c.start shared message).IsOrderly
  resume : ∀ shared work s, c.resume shared work = some s → s.IsOrderly

theorem untilHold_fst (acts : List Act) :
    ∃ lines : List LogLine, (untilHold acts).1 = lines.map .log := by
  induction acts with
  | nil => exact ⟨[], rfl⟩
  | cons act acts ih =>
    obtain ⟨lines, hlines⟩ := ih
    cases act with
    | log line =>
      refine ⟨line :: lines, ?_⟩
      rw [List.map_cons, ← hlines]
      rfl
    | pause => exact ⟨lines, hlines⟩
    | hold => exact ⟨[], rfl⟩

theorem isOrderly_work (s : Script) (call : Nat) (b : Behaviour) :
    (s.work call b).IsOrderly := by
  obtain ⟨lines, hlines⟩ := untilHold_fst b.acts
  refine ⟨lines, ?_⟩
  unfold Script.work
  generalize untilHold b.acts = logged at hlines
  obtain ⟨logged, held⟩ := logged
  obtain rfl : logged = lines.map .log := hlines
  cases held with
  | some acts => rfl
  | none =>
    cases b.outcome.reply? with
    | some reply => exact ⟨reply, rfl⟩
    | none => rfl

theorem isOrderly_withScript : withScript.IsOrderly where
  start _ _ := isOrderly_work _ _ _
  resume shared work s h := by
    dsimp only [withScript] at h
    split_ifs at h
    obtain rfl := Option.some.inj h
    exact isOrderly_work _ _ _

theorem isOrderly_stretch (p : Progress) (message : CompileMessage) :
    (p.stretch message).IsOrderly := by
  refine ⟨p.log, ?_⟩
  unfold Progress.stretch
  cases p.stage with
  | ended outcome =>
    dsimp only
    cases outcome.reply? with
    | some reply => exact ⟨reply, rfl⟩
    | none => rfl
  | _ => rfl

theorem isOrderly_withEngine : withEngine.IsOrderly where
  start _ _ := isOrderly_stretch _ _
  resume shared work s h := by
    dsimp only [withEngine] at h
    split_ifs at h
    obtain rfl := Option.some.inj h
    exact isOrderly_stretch _ _

end Compile

namespace Job.Floor

open Compile Board

variable {σ π : Type} {c : Compiler σ π}

theorem freshRun_lines (lines : List LogLine) (worker : Nat) (b : Board) :
    FreshRun b ((lines.map Reply.log).foldl (fun b reply => b.receive worker reply) b) := by
  induction lines generalizing b with
  | nil => exact .refl
  | cons line lines ih =>
    exact .head ⟨.log worker line, trivial, rfl⟩ (ih (b.receive worker (.log line)))

/-- Messages are received one after another; the last one and the end of the compile are one
move. -/
theorem freshRun_settleWork
    (f : Floor σ π) (worker : Nat) {s : Stretch σ π} (hs : s.IsOrderly) :
    FreshRun f.board (f.settleWork worker s).board := by
  obtain ⟨lines, hlines⟩ := hs
  have hrun := freshRun_lines lines worker f.board
  unfold settleWork
  match hnext : s.next with
  | .waits work =>
    rw [hnext] at hlines
    rw [hlines]
    exact hrun
  | .over =>
    rw [hnext] at hlines
    obtain ⟨reply, hlines⟩ := hlines
    rw [hlines, List.foldl_append]
    exact hrun.tail ⟨.conclude worker reply, trivial, rfl⟩
  | .deserted =>
    rw [hnext] at hlines
    rw [hlines]
    exact hrun.tail ⟨.desert worker, trivial, rfl⟩

theorem freshRun_take
    (hc : c.IsOrderly) (f : Floor σ π) {worker : Nat}
    (hidle : f.board.workers[worker]? = some .idle) :
    FreshRun f.board (f.take c worker).board := by
  have hfirst : FreshRun f.board (f.board.take worker).1 := by
    refine .single ⟨.take worker, trivial, ?_⟩
    rw [perform, hidle]
  unfold take
  generalize f.board.take worker = taken at hfirst
  obtain ⟨board, message⟩ := taken
  cases message with
  | none => exact hfirst
  | some message =>
    exact hfirst.trans (freshRun_settleWork { f with board } worker (hc.start _ _))

theorem getElem?_of_idle?
    {b : Board} {worker : Nat} (h : b.idle? = some worker) :
    b.workers[worker]? = some .idle := by
  obtain ⟨hlt, hidle, -⟩ := List.findIdx?_eq_some_iff_getElem.mp h
  rw [List.getElem?_eq_getElem hlt]
  generalize b.workers[worker] = work at hidle
  cases work with
  | idle => rfl
  | busy place overrides => contradiction

theorem freshRun_step?
    (hc : c.IsOrderly) {f g : Floor σ π} (h : f.step? c = some g) :
    FreshRun f.board g.board := by
  unfold step? at h
  split at h
  · next worker s hready =>
    obtain rfl := Option.some.inj h
    obtain ⟨⟨own, work⟩, -, hresume⟩ := List.exists_of_findSome?_eq_some hready
    obtain ⟨s', hs', hpair⟩ := Option.map_eq_some_iff.mp hresume
    obtain ⟨rfl, rfl⟩ := Prod.mk.inj hpair
    exact freshRun_settleWork f own (hc.resume _ _ _ hs')
  · split at h
    · next worker _ _ hidle _ =>
      obtain rfl := Option.some.inj h
      exact freshRun_take hc f (getElem?_of_idle? hidle)
    · contradiction

theorem freshRun_settleWithin
    (hc : c.IsOrderly) (fuel : Nat) (f : Floor σ π) :
    FreshRun f.board (settleWithin c fuel f).board := by
  induction fuel generalizing f with
  | zero => exact .refl
  | succ fuel ih =>
    unfold settleWithin
    cases hstep : f.step? c with
    | some g => exact (freshRun_step? hc hstep).trans (ih g)
    | none => exact .refl

/-- Whatever the floor does until nothing is left to do is a run of moves. -/
theorem freshRun_settle
    (hc : c.IsOrderly) (f : Floor σ π) :
    FreshRun f.board (f.settle c).board := by
  unfold settle
  generalize maxSteps * (f.board.queue.length + f.works.length + 1) = fuel
  have hrun := freshRun_settleWithin hc fuel f
  dsimp only
  split_ifs
  · exact hrun.tail ⟨.prune, trivial, rfl⟩
  · exact hrun

end Job.Floor

end SolidWorkshop
