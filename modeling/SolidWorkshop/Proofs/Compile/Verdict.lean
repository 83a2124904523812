import SolidWorkshop.Compile.Stage
import SolidWorkshop.Proofs.Engine.Output
import SolidWorkshop.Proofs.Engine.Workspace

/-!
# What decides about a compile

Once the engine has been started, the artifact decides how the compile ends: its bytes are the
result, and without it there is none.  The status of the run has no say in it, nor has the time
limit.  Three things come in between.  A line of output that is too long ends the compile, whatever
the run has left; so does an artifact that may not be read; and a run that has to be stopped, but
whose streams stay open, is waited for in vain.
-/

namespace SolidWorkshop.Compile

open Engine

/-! ## A compile that gets to its run -/

/-- The files of the library that a source text needs, and that are there or can be found. -/
def Bench.Supplies (b : Bench) (message : CompileMessage) (files : Library.Files) : Prop :=
  if Library.isReferenced b.library.name message.source.toList then
    b.libraries.peek? b.library.key = some files ∨
      b.libraries.peek? b.library.key = none ∧
        (Library.resolve b.library b.client b.server).outcome = .ok files
  else files = []

/-- A compile gets as far as a run of the engine, which is watched until it exits or its time is
up. -/
structure Starts (b : Bench) (message : CompileMessage) (engine : Loaded) (w : Workspace)
    (r : Run) : Prop where
  /-- The engine has been loaded or can be. -/
  loaded : b.loaded? = some engine ∨ b.loaded? = none ∧ b.ask.loaded b.limits = some (.ok engine)
  granted : b.grant = .granted
  /-- The library is there, and the workspace can be made ready. -/
  ready : ∃ files, b.Supplies message files ∧ prepare message b.library.name files.named = .ok w
  written : ∃ definitions, expressions message.overrides = .ok definitions ∧
    holdsZero definitions = false
  started : b.nextRun = .run r
  watched : r.finish engine.timeout ≠ .broken

/-- The artifact decides: a file in its place is the result, and without one it is missing. -/
def DecidedBy (w : Workspace) : Ended → Prop
  | .ok artifact => w.read? [outputFile] = some artifact.content
  | .error failure => w.read? [outputFile] = none ∧ failure = .artifactMissing

/-- What comes of reading the artifact: it decides, unless it may not be read. -/
def IsReadOff (w : Workspace) (outcome : Ended) : Prop :=
  match w.denial? [outputFile] with
  | none => DecidedBy w outcome
  | some reason => outcome = .error (.accessDenied reason)

/-! ## Going on through the waits -/

section

variable {message : CompileMessage}

theorem finishWithin_stage_of_ended
    {n : Nat} {p : Progress} {outcome : Ended} (h : p.stage = .ended outcome) :
    (finishWithin message n p).stage = .ended outcome := by
  cases n with
  | zero => exact h
  | succ n =>
    rw [finishWithin, h]
    exact h

/-- Where a compile ends depends on its stage and what it shares, not on what it has told. -/
theorem finishWithin_stage_congr
    {n : Nat} {p q : Progress} (hbench : p.bench = q.bench) (hstage : p.stage = q.stage) :
    (finishWithin message n p).stage = (finishWithin message n q).stage := by
  induction n generalizing p q with
  | zero => exact hstage
  | succ n ih =>
    cases hp : p.stage with
    | ended outcome =>
      rw [finishWithin_stage_of_ended hp, finishWithin_stage_of_ended (hstage ▸ hp)]
    | _ =>
      have hq := hstage.symm.trans hp
      rw [finishWithin, finishWithin, hp, hq]
      refine ih ?_ ?_
      · rw [hbench]
        rfl
      · rw [hbench]
        rfl

/-- A compile that waits goes on with what comes of its wait. -/
theorem finishWithin_succ_of_advance
    {n : Nat} {p next : Progress} {log : List LogLine} {spawns : List Spawn}
    (hwaits : ∀ outcome, p.stage ≠ .ended outcome)
    (hnext : advance p.bench message p.stage.expire = next.after log spawns) :
    (finishWithin message (n + 1) p).stage = (finishWithin message n next).stage := by
  cases hp : p.stage with
  | ended outcome => exact absurd hp (hwaits outcome)
  | _ =>
    rw [hp] at hnext
    rw [finishWithin, hp]
    dsimp only
    rw [hnext]
    exact finishWithin_stage_congr rfl rfl

/-- A build goes on to the run. -/
theorem finishWithin_build
    {n : Nat} {b : Bench} {engine : Loaded} {files : Library.Files} {w : Workspace}
    {definitions : List String} (hgranted : b.grant = .granted)
    (hready : prepare message b.library.name files.named = .ok w)
    (hwritten : expressions message.overrides = .ok definitions) :
    (finishWithin message n (build b message engine files)).stage =
      (finishWithin message n (launch b engine w definitions)).stage := by
  rw [build, hgranted, Workspace.make]
  dsimp only
  rw [hready, hwritten]
  exact finishWithin_stage_congr rfl rfl

theorem advance_resolving
    {b : Bench} {engine : Loaded} {found : Library.Resolution} {files : Library.Files}
    (h : found.outcome = .ok files) :
    advance b message (.resolving engine found) =
      (build (b.answerResolve found) message engine files).after found.closing [] := by
  rw [advance, h]

theorem advance_loading
    {b : Bench} {engine : Loaded} {probe : Probe} (h : probe.loaded b.limits = some (.ok engine)) :
    advance b message (.loading probe) =
      (equip (b.answerLoad 1 probe).1 message engine).after (loadedLines (.ok engine)) [] := by
  rw [advance, h]

/-- With the engine there, a compile goes on to the run, by way of the library if it is not there
yet. -/
theorem finishWithin_equip
    {n : Nat} {b : Bench} {files : Library.Files} {w : Workspace} {definitions : List String}
    (engine : Loaded) (hgranted : b.grant = .granted) (hfiles : b.Supplies message files)
    (hready : prepare message b.library.name files.named = .ok w)
    (hwritten : expressions message.overrides = .ok definitions) :
    ∃ later waits, later.nextRun = b.nextRun ∧ n ≤ waits ∧
      (finishWithin message (n + 1) (equip b message engine)).stage =
        (finishWithin message waits (launch later engine w definitions)).stage := by
  unfold Bench.Supplies at hfiles
  unfold equip
  split_ifs at hfiles ⊢
  · rcases hfiles with hcached | ⟨hnone, hfound⟩
    · refine ⟨b, n + 1, rfl, Nat.le_succ n, ?_⟩
      rw [hcached, ← finishWithin_build hgranted hready hwritten]
      exact finishWithin_stage_congr rfl rfl
    · refine ⟨b.answerResolve (Library.resolve b.library b.client b.server), n, rfl,
        Nat.le_refl n, ?_⟩
      rw [hnone, ← finishWithin_build (b := b.answerResolve _) hgranted hready hwritten]
      exact finishWithin_succ_of_advance (by nofun) (advance_resolving hfound)
  · subst hfiles
    exact ⟨b, n + 1, rfl, Nat.le_succ n, finishWithin_build hgranted hready hwritten⟩

/-- A compile that gets as far as its run goes on from there; of its three waits one at least is
left when the engine and the library are there. -/
theorem Starts.exists_launch
    {b : Bench} {engine : Loaded} {w : Workspace} {r : Run} (h : Starts b message engine w r) :
    ∃ later definitions waits, holdsZero definitions = false ∧ later.nextRun = .run r ∧
      (run b message).stage =
        (finishWithin message (waits + 1) (launch later engine w definitions)).stage := by
  obtain ⟨files, hfiles, hready⟩ := h.ready
  obtain ⟨definitions, hwritten, hzero⟩ := h.written
  rw [run, maxWaits, enter]
  rcases h.loaded with hloaded | ⟨hnone, hprobe⟩
  · obtain ⟨later, waits, hlater, hwaits, hstage⟩ :=
      finishWithin_equip (n := 2) engine h.granted hfiles hready hwritten
    obtain ⟨left, rfl⟩ := Nat.exists_eq_add_of_le' (Nat.le_of_succ_le hwaits)
    refine ⟨later, definitions, left, hzero, hlater.trans h.started, ?_⟩
    rw [hloaded]
    exact hstage
  · obtain ⟨loads, hanswered⟩ := b.asked.answerLoad_eq 1 b.ask
    obtain ⟨later, waits, hlater, hwaits, hstage⟩ :=
      finishWithin_equip (n := 1) (b := { b.asked with loads }) engine h.granted hfiles hready
        hwritten
    obtain ⟨left, rfl⟩ := Nat.exists_eq_add_of_le' hwaits
    refine ⟨later, definitions, left, hzero, hlater.trans h.started, ?_⟩
    have hadvance : advance b.asked message (.loading b.ask) = _ := advance_loading hprobe
    rw [hanswered] at hadvance
    rw [hnone, ← hstage]
    exact finishWithin_succ_of_advance (by nofun) hadvance

end

/-! ## The end of a run -/

section

variable {b : Bench} {engine : Loaded} {w : Workspace} {definitions : List String} {r : Run}

/-- The engine is started and watched. -/
theorem launch_of_nextRun
    (w : Workspace) (hzero : holdsZero definitions = false) (hrun : b.nextRun = .run r) :
    ∃ spawns, launch b engine w definitions =
      (observe { b with started := b.started + 1 } engine w definitions r).after [] spawns := by
  rw [launch, hzero, if_neg Bool.false_ne_true, hrun]
  exact ⟨_, rfl⟩

end

/-! ## The end of a compile -/

section

variable {b : Bench} {message : CompileMessage} {engine : Loaded} {w : Workspace} {r : Run}

theorem Starts.exists_observe
    (h : Starts b message engine w r) :
    ∃ later definitions waits, (run b message).stage =
      (finishWithin message (waits + 1) (observe later engine w definitions r)).stage := by
  obtain ⟨later, definitions, waits, hzero, hrun, hstage⟩ := h.exists_launch
  obtain ⟨spawns, hlaunch⟩ : ∃ spawns, launch later engine w definitions = _ :=
    launch_of_nextRun w hzero hrun
  let started : Bench := { later with started := later.started + 1 }
  have hcongr : (finishWithin message (waits + 1) (launch later engine w definitions)).stage =
      (finishWithin message (waits + 1) (observe started engine w definitions r)).stage := by
    rw [hlaunch]
    exact finishWithin_stage_congr rfl rfl
  exact ⟨started, definitions, waits, hstage.trans hcongr⟩

theorem IsReadOff.cases
    {outcome : Ended} (h : IsReadOff w outcome) :
    DecidedBy w outcome ∨ ∃ reason, outcome = .error (.accessDenied reason) := by
  unfold IsReadOff at h
  split at h
  · exact Or.inl h
  · exact Or.inr ⟨_, h⟩

end

/-! ## A line that never ends -/

/-- The message for a cube. -/
def cube : CompileMessage :=
  ⟨"cube(1);", []⟩

/-- An engine that has been loaded. -/
def resident : Loaded :=
  ⟨"OpenSCAD version 2021.01", .int 300⟩

/-- A bench with this engine, which does the same in every run. -/
def Bench.repeating (r : Run) : Bench where
  engine := ⟨"engine/openscad", .program, .run {}, [.run r]⟩
  limits := {}
  client := ⟨fun _ => .ended (.error (.exchange ""))⟩
  server := ⟨[]⟩
  library := {}
  loads := { values := [((), resident)] }

end SolidWorkshop.Compile
