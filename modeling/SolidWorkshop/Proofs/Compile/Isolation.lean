import Mathlib.Logic.Function.Basic
import SolidWorkshop.Proofs.Engine.Disk
import SolidWorkshop.Proofs.Engine.Staging

/-!
# Compiles beside each other

Any number of compiles take their steps on one disk, in any order, and each of them may be closed
at any time.  Every file operation stays in the directory of its own compile, so what a compile
finds and reads there is what it would find and read in a file area of its own.
-/

namespace SolidWorkshop.Compile

open Engine

/-! ## One compile and its file area -/

/-- How a compile gets at its file area, where `σ` is what there is of files. -/
structure Access (σ : Type) where
  handOut : σ → σ
  writeAt : σ → String → ByteArray → σ × Option Failure
  /-- What the engine finds. -/
  contents : σ → Workspace
  /-- What the engine leaves takes the place of what it has found. -/
  leave : σ → Workspace → σ
  artifact? : σ → Option ByteArray
  remove : σ → σ

namespace Access

/-- A file area of one's own. -/
def own : Access Workspace where
  handOut _ := .fresh
  writeAt := Workspace.writeAt
  contents w := w
  leave _ w := w
  artifact? w := w.read? [outputFile]
  remove _ := .removed

/-- A directory of a disk. -/
def onDisk (dir : String) : Access Workspace where
  handOut disk := disk.handOut dir
  writeAt disk := disk.writeIn dir
  contents disk := disk.below dir
  leave disk := disk.leaveIn dir
  artifact? disk := disk.read? (Workspace.located dir [outputFile])
  remove disk := disk.cleared dir

variable {σ τ : Type}

/-- Write the files of a library, from a count on. -/
def stageFrom (a : Access σ) (count : Nat) (s : σ) (library : String) :
    List (String × ByteArray) → σ × Except Failure Nat
  | [] => (s, .ok count)
  | (relative, content) :: rest =>
    match a.writeAt s (Workspace.libraryPath library relative) content with
    | (s, none) => a.stageFrom (count + 1) s library rest
    | (s, some failure) =>
      if failure.area = .value then a.stageFrom count s library rest else (s, .error failure)

/-- Stage the files of a library, if there are any. -/
def stock (a : Access σ) (s : σ) (library : String) (files : List (String × ByteArray)) :
    σ × Except Failure Nat :=
  if files.isEmpty then (s, .ok 0) else a.stageFrom 0 s library files

theorem own_stageFrom
    (count : Nat) (w : Workspace) (library : String) (files : List (String × ByteArray)) :
    own.stageFrom count w library files = w.stageFrom count library files := by
  induction files generalizing count w with
  | nil => rfl
  | cons file files ih =>
    obtain ⟨relative, content⟩ := file
    have hown : own.writeAt w (Workspace.libraryPath library relative) content =
        w.writeAt (Workspace.libraryPath library relative) content := rfl
    rw [stageFrom, Workspace.stageFrom, hown]
    cases w.writeAt (Workspace.libraryPath library relative) content with
    | mk later refusal =>
      cases refusal with
      | none => exact ih (count + 1) later
      | some failure =>
        dsimp only
        rw [ih]

theorem own_stock (library : String) (files : List (String × ByteArray)) :
    own.stock .fresh library files = stocked library files := by
  rw [stock, own_stageFrom]
  rfl

end Access

/-- What a compile is given. -/
structure Order where
  message : CompileMessage
  library : String
  /-- The files of the library; none if the source does not use it. -/
  files : List (String × ByteArray)

/-- What the engine leaves in a workspace when it is called there. -/
abbrev Tool := List String → Workspace → List (Place × Entry)

/-- The workspace after a call of the engine; its directory stays. -/
def Tool.run (tool : Tool) (arguments : List String) (w : Workspace) : Workspace :=
  { w with entries := (tool arguments w).filter fun e => !e.1.isEmpty }

/-- The steps of a compile. -/
inductive Step where
  | create
  | stage
  | write
  | run
  | read
  | close
  deriving DecidableEq

/-- How far a compile has come. -/
inductive Phase where
  | idle
  | created
  | staged
  | written
  | ran
  | finished
  | failed (failure : Failure)
  | closed

namespace Phase

/-- The compile has a workspace. -/
def isOpen : Phase → Bool
  | .idle | .closed => false
  | _ => true

/-- The compile may still get to reading an artifact. -/
def isUnread : Phase → Bool
  | .finished | .failed _ | .closed => false
  | _ => true

end Phase

/-- The course of a compile. -/
structure Course where
  phase : Phase := .idle
  /-- What the engine has found in its workspace. -/
  found : Option Workspace := none
  /-- What has been read in the place of the artifact. -/
  artifact : Option (Option ByteArray) := none

namespace Course

/-- Take a step, if it is the next one; a compile that has a workspace can be closed at any
time. -/
def act {σ : Type} (a : Access σ) (tool : Tool) (keep : Bool) (order : Order) (c : Course) (s : σ)
    (step : Step) : Option (Course × σ) :=
  match step, c.phase with
  | .create, .idle => some ({ c with phase := .created }, a.handOut s)
  | .stage, .created =>
    match a.stock s order.library order.files with
    | (s, .ok _) => some ({ c with phase := .staged }, s)
    | (s, .error failure) => some ({ c with phase := .failed failure }, s)
  | .write, .staged =>
    match a.writeAt s inputFile order.message.source.toUTF8 with
    | (s, none) => some ({ c with phase := .written }, s)
    | (s, some failure) => some ({ c with phase := .failed failure }, s)
  | .run, .written =>
    match arguments order.message.overrides with
    | .ok arguments =>
      some ({ c with phase := .ran, found := some (a.contents s) },
        a.leave s (tool.run arguments (a.contents s)))
    | .error failure => some ({ c with phase := .failed failure }, s)
  | .read, .ran => some ({ c with phase := .finished, artifact := some (a.artifact? s) }, s)
  | .close, phase =>
    if phase.isOpen then some ({ c with phase := .closed }, if keep then s else a.remove s)
    else none
  | _, _ => none

/-- What a step does. -/
inductive Acts {σ : Type} (a : Access σ) (tool : Tool) (keep : Bool) (order : Order) (c : Course)
    (s : σ) : Step → Course → σ → Prop
  | create (hphase : c.phase = .idle) :
      Acts a tool keep order c s .create { c with phase := .created } (a.handOut s)
  | stage {s' : σ} {count : Nat} (hphase : c.phase = .created)
      (hstock : a.stock s order.library order.files = (s', .ok count)) :
      Acts a tool keep order c s .stage { c with phase := .staged } s'
  | notStaged {s' : σ} {failure : Failure} (hphase : c.phase = .created)
      (hstock : a.stock s order.library order.files = (s', .error failure)) :
      Acts a tool keep order c s .stage { c with phase := .failed failure } s'
  | write {s' : σ} (hphase : c.phase = .staged)
      (hwrite : a.writeAt s inputFile order.message.source.toUTF8 = (s', none)) :
      Acts a tool keep order c s .write { c with phase := .written } s'
  | notWritten {s' : σ} {failure : Failure} (hphase : c.phase = .staged)
      (hwrite : a.writeAt s inputFile order.message.source.toUTF8 = (s', some failure)) :
      Acts a tool keep order c s .write { c with phase := .failed failure } s'
  | run {args : List String} (hphase : c.phase = .written)
      (hargs : arguments order.message.overrides = .ok args) :
      Acts a tool keep order c s .run
        { c with phase := .ran, found := some (a.contents s) }
        (a.leave s (tool.run args (a.contents s)))
  | notRun {failure : Failure} (hphase : c.phase = .written)
      (hargs : arguments order.message.overrides = .error failure) :
      Acts a tool keep order c s .run { c with phase := .failed failure } s
  | read (hphase : c.phase = .ran) :
      Acts a tool keep order c s .read
        { c with phase := .finished, artifact := some (a.artifact? s) } s
  | close (hopen : c.phase.isOpen = true) :
      Acts a tool keep order c s .close { c with phase := .closed }
        (if keep then s else a.remove s)

theorem acts_of_act
    {σ : Type} {a : Access σ} {tool : Tool} {keep : Bool} {order : Order} {c c' : Course}
    {s s' : σ} {step : Step} (h : c.act a tool keep order s step = some (c', s')) :
    Acts a tool keep order c s step c' s' := by
  unfold act at h
  split at h
  · next hphase =>
    obtain ⟨⟩ := h
    exact .create hphase
  · next hphase =>
    split at h
    · next hstock =>
      obtain ⟨⟩ := h
      exact .stage hphase hstock
    · next hstock =>
      obtain ⟨⟩ := h
      exact .notStaged hphase hstock
  · next hphase =>
    split at h
    · next hwrite =>
      obtain ⟨⟩ := h
      exact .write hphase hwrite
    · next hwrite =>
      obtain ⟨⟩ := h
      exact .notWritten hphase hwrite
  · next hphase =>
    split at h
    · next hargs =>
      obtain ⟨⟩ := h
      exact .run hphase hargs
    · next hargs =>
      obtain ⟨⟩ := h
      exact .notRun hphase hargs
  · next hphase =>
    obtain ⟨⟩ := h
    exact .read hphase
  · cases hopen : c.phase.isOpen with
    | false => simp [hopen] at h
    | true =>
      rw [if_pos hopen] at h
      obtain ⟨⟩ := h
      exact .close hopen
  · contradiction

theorem act_of_acts
    {σ : Type} {a : Access σ} {tool : Tool} {keep : Bool} {order : Order} {c c' : Course}
    {s s' : σ} {step : Step} (h : Acts a tool keep order c s step c' s') :
    c.act a tool keep order s step = some (c', s') := by
  cases h with
  | create hphase => simp only [act, hphase]
  | stage hphase hstock => simp only [act, hphase, hstock]
  | notStaged hphase hstock => simp only [act, hphase, hstock]
  | write hphase hwrite => simp only [act, hphase, hwrite]
  | notWritten hphase hwrite => simp only [act, hphase, hwrite]
  | run hphase hargs => simp only [act, hphase, hargs]
  | notRun hphase hargs => simp only [act, hphase, hargs]
  | read hphase => simp only [act, hphase]
  | close hopen => simp only [act, hopen, if_true]

end Course

/-- The course of a compile in a file area of its own. -/
def alone (tool : Tool) (keep : Bool) (order : Order) (steps : List Step) :
    Option (Course × Workspace) :=
  steps.foldlM (fun (c, w) step => c.act .own tool keep order w step) ({}, .removed)

theorem alone_append_singleton
    (tool : Tool) (keep : Bool) (order : Order) (steps : List Step) (step : Step) :
    alone tool keep order (steps ++ [step]) =
      (alone tool keep order steps).bind fun (c, w) => c.act .own tool keep order w step := by
  simp [alone, List.foldlM_append]

/-! ## What a compile alone finds and reads -/

/-- The engine has found what was prepared for it, and in the place of the artifact has been read
what the engine had left there. -/
structure Course.Tells (tool : Tool) (order : Order) (c : Course) : Prop where
  found : ∀ w, c.found = some w → prepare order.message order.library order.files = .ok w
  artifact : ∀ artifact, c.artifact = some artifact → ∃ w args, c.found = some w ∧
    arguments order.message.overrides = .ok args ∧ artifact = (tool.run args w).read? [outputFile]

/-- A compile alone, and its file area. -/
structure Course.Stands (tool : Tool) (order : Order) (c : Course) (w : Workspace) : Prop where
  tells : c.Tells tool order
  present : c.phase.isOpen = true → w.isPresent = true
  unread : c.phase.isUnread = true → c.artifact = none
  created : c.phase = .created → w = .fresh
  staged : c.phase = .staged → ∃ count, stocked order.library order.files = (w, .ok count)
  written : c.phase = .written → prepare order.message order.library order.files = .ok w
  ran : c.phase = .ran → ∃ found args, c.found = some found ∧
    arguments order.message.overrides = .ok args ∧ w = tool.run args found

theorem Course.Stands.acts
    {tool : Tool} {keep : Bool} {order : Order} {c c' : Course} {w w' : Workspace} {step : Step}
    (h : c.Stands tool order w) (hacts : c.Acts .own tool keep order w step c' w') :
    c'.Stands tool order w' := by
  have htells : ∀ phase, Course.Tells tool order { c with phase } :=
    fun _ => ⟨h.tells.found, h.tells.artifact⟩
  have hpresent := fun hphase : c.phase.isOpen = true =>
    Workspace.isPresent_writeAt (h.present hphase) inputFile order.message.source.toUTF8
  cases hacts with
  | create hphase =>
    have hunread := h.unread (by rw [hphase]; rfl)
    exact ⟨htells _, fun _ => rfl, fun _ => hunread, fun _ => rfl, nofun, nofun, nofun⟩
  | stage hphase hstock =>
    have hunread := h.unread (by rw [hphase]; rfl)
    rw [h.created hphase, Access.own_stock] at hstock
    have hthere := isPresent_stocked order.library order.files
    rw [hstock] at hthere
    exact ⟨htells _, fun _ => hthere, fun _ => hunread, nofun, fun _ => ⟨_, hstock⟩, nofun, nofun⟩
  | notStaged hphase hstock =>
    rw [h.created hphase, Access.own_stock] at hstock
    have hthere := isPresent_stocked order.library order.files
    rw [hstock] at hthere
    exact ⟨htells _, fun _ => hthere, nofun, nofun, nofun, nofun, nofun⟩
  | write hphase hwrite =>
    have hunread := h.unread (by rw [hphase]; rfl)
    have hthere := hpresent (by rw [hphase]; rfl)
    have hwritten : w.writeAt inputFile order.message.source.toUTF8 = _ := hwrite
    obtain ⟨count, hstock⟩ := h.staged hphase
    rw [hwritten] at hthere
    exact ⟨htells _, fun _ => hthere, fun _ => hunread, nofun, nofun,
      fun _ => prepare_eq_ok_iff.mpr ⟨w, count, hstock, hwritten⟩, nofun⟩
  | notWritten hphase hwrite =>
    have hthere := hpresent (by rw [hphase]; rfl)
    have hwritten : w.writeAt inputFile order.message.source.toUTF8 = _ := hwrite
    rw [hwritten] at hthere
    exact ⟨htells _, fun _ => hthere, nofun, nofun, nofun, nofun, nofun⟩
  | run hphase hargs =>
    have hthere := h.present (by rw [hphase]; rfl)
    have hunread := h.unread (by rw [hphase]; rfl)
    refine ⟨⟨?_, fun artifact hartifact => ?_⟩, fun _ => hthere, fun _ => hunread, nofun, nofun,
      nofun, fun _ => ⟨w, _, rfl, hargs, rfl⟩⟩
    · rintro found ⟨⟩
      exact h.written hphase
    · exact absurd (hunread.symm.trans hartifact) nofun
  | notRun hphase hargs =>
    have hthere := h.present (by rw [hphase]; rfl)
    exact ⟨htells _, fun _ => hthere, nofun, nofun, nofun, nofun, nofun⟩
  | read hphase =>
    have hthere := h.present (by rw [hphase]; rfl)
    obtain ⟨found, args, hfound, hargs, rfl⟩ := h.ran hphase
    refine ⟨⟨h.tells.found, ?_⟩, fun _ => hthere, nofun, nofun, nofun, nofun, nofun⟩
    rintro artifact ⟨⟩
    exact ⟨found, args, hfound, hargs, rfl⟩
  | close hopen => exact ⟨htells _, nofun, nofun, nofun, nofun, nofun, nofun⟩

theorem stands_of_alone
    {tool : Tool} {keep : Bool} {order : Order} {steps : List Step} {c : Course} {w : Workspace}
    (h : alone tool keep order steps = some (c, w)) :
    c.Stands tool order w := by
  induction steps using List.reverseRecOn generalizing c w with
  | nil =>
    obtain ⟨⟩ := h
    exact ⟨⟨nofun, nofun⟩, nofun, fun _ => rfl, nofun, nofun, nofun, nofun⟩
  | append_singleton steps step ih =>
    rw [alone_append_singleton] at h
    obtain ⟨⟨before, v⟩, hbefore, hact⟩ := Option.bind_eq_some_iff.mp h
    exact (ih hbefore).acts (Course.acts_of_act hact)

/-! ## Two ways to the same files -/

namespace Access

/-- Through the first access everything is as through the second, on related files. -/
structure Refines {σ τ : Type} (a : Access σ) (b : Access τ) (R : σ → τ → Prop) : Prop where
  writeAt : ∀ {s t}, R s t → ∀ relative content,
    (a.writeAt s relative content).2 = (b.writeAt t relative content).2 ∧
      R (a.writeAt s relative content).1 (b.writeAt t relative content).1
  contents : ∀ {s t}, R s t → a.contents s = b.contents t
  leave : ∀ {s t}, R s t → ∀ {w : Workspace}, (∀ e ∈ w.entries, e.1 ≠ []) →
    R (a.leave s w) (b.leave t w)
  artifact? : ∀ {s t}, R s t → a.artifact? s = b.artifact? t
  remove : ∀ {s t}, R s t → R (a.remove s) (b.remove t)

variable {σ τ : Type} {a : Access σ} {b : Access τ} {R : σ → τ → Prop} {s : σ} {t : τ}

theorem Refines.stageFrom
    (h : a.Refines b R) (hR : R s t) (count : Nat) (library : String)
    (files : List (String × ByteArray)) :
    (a.stageFrom count s library files).2 = (b.stageFrom count t library files).2 ∧
      R (a.stageFrom count s library files).1 (b.stageFrom count t library files).1 := by
  induction files generalizing count s t with
  | nil => exact ⟨rfl, hR⟩
  | cons file files ih =>
    obtain ⟨relative, content⟩ := file
    obtain ⟨hsame, hnext⟩ := h.writeAt hR (Workspace.libraryPath library relative) content
    unfold Access.stageFrom
    cases ha : a.writeAt s (Workspace.libraryPath library relative) content with
    | mk s' refusal =>
      cases hb : b.writeAt t (Workspace.libraryPath library relative) content with
      | mk t' refusal' =>
        rw [ha, hb] at hsame hnext
        dsimp only at hsame hnext
        subst hsame
        cases refusal with
        | none => exact ih hnext (count + 1)
        | some failure =>
          dsimp only
          split_ifs
          · exact ih hnext count
          · exact ⟨rfl, hnext⟩

theorem Refines.stock
    (h : a.Refines b R) (hR : R s t) (library : String) (files : List (String × ByteArray)) :
    (a.stock s library files).2 = (b.stock t library files).2 ∧
      R (a.stock s library files).1 (b.stock t library files).1 := by
  unfold Access.stock
  split_ifs
  · exact ⟨rfl, hR⟩
  · exact h.stageFrom hR 0 library files

theorem nonempty_of_mem_run
    (tool : Tool) (arguments : List String) (w : Workspace) :
    ∀ e ∈ (tool.run arguments w).entries, e.1 ≠ [] := by
  intro e he
  simpa using (List.mem_filter.mp he).2

/-- A step behind the first one leads to the same course through both, and to related files. -/
theorem Refines.acts
    (h : a.Refines b R) (hR : R s t) {tool : Tool} {keep : Bool} {order : Order} {c c' : Course}
    {s' : σ} {step : Step} (hstep : step ≠ .create)
    (hacts : c.Acts a tool keep order s step c' s') :
    ∃ t', c.Acts b tool keep order t step c' t' ∧ R s' t' := by
  have hstock := h.stock hR order.library order.files
  have hwrite := h.writeAt hR inputFile order.message.source.toUTF8
  cases hacts with
  | create hphase => contradiction
  | stage hphase hdone =>
    rw [hdone] at hstock
    exact ⟨_, .stage hphase (Prod.ext rfl hstock.1.symm), hstock.2⟩
  | notStaged hphase hdone =>
    rw [hdone] at hstock
    exact ⟨_, .notStaged hphase (Prod.ext rfl hstock.1.symm), hstock.2⟩
  | write hphase hdone =>
    rw [hdone] at hwrite
    exact ⟨_, .write hphase (Prod.ext rfl hwrite.1.symm), hwrite.2⟩
  | notWritten hphase hdone =>
    rw [hdone] at hwrite
    exact ⟨_, .notWritten hphase (Prod.ext rfl hwrite.1.symm), hwrite.2⟩
  | run hphase hargs =>
    rw [h.contents hR]
    exact ⟨_, .run hphase hargs, h.leave hR (nonempty_of_mem_run tool _ _)⟩
  | notRun hphase hargs => exact ⟨t, .notRun hphase hargs, hR⟩
  | read hphase =>
    rw [h.artifact? hR]
    exact ⟨t, .read hphase, hR⟩
  | close hopen =>
    refine ⟨_, .close hopen, ?_⟩
    split_ifs
    · exact hR
    · exact h.remove hR

end Access

/-- In the directory of a compile a disk is as good as a file area of one's own, and beside it
nothing changes. -/
theorem onDisk_refines_own
    {dir : String} (hzero : '\x00' ∉ dir.toList) (hdir : dir ≠ "..") (before : Workspace) :
    (Access.onDisk dir).Refines .own fun disk w =>
      disk.Holds dir w ∧ Workspace.SameBeside dir before disk where
  writeAt := by
    rintro disk w ⟨hholds, hbeside⟩ relative content
    have hfollows := hholds.writeIn hzero hdir relative content
    exact ⟨hfollows.refusal, hfollows.holds, hbeside.trans hfollows.beside⟩
  contents hR := hR.1.below_eq
  leave := by
    rintro disk - ⟨-, hbeside⟩ w hplaces
    exact ⟨Workspace.holds_leaveIn disk dir hplaces,
      hbeside.trans (Workspace.sameBeside_leaveIn disk dir w)⟩
  artifact? := by
    rintro disk w ⟨hholds, -⟩
    have hlocated : Workspace.located dir [outputFile] = [dir, outputFile] :=
      Workspace.located_eq_cons hdir (by decide)
    change disk.read? (Workspace.located dir [outputFile]) = w.read? [outputFile]
    rw [hlocated, hholds.read?_cons]
  remove := by
    rintro disk w ⟨-, hbeside⟩
    exact ⟨Workspace.holds_removed (Workspace.isFree_cleared disk dir),
      hbeside.trans (Workspace.sameBeside_cleared disk dir)⟩

/-! ## All compiles on one disk -/

/-- The disk, and for every compile its course and the name of its directory. -/
structure Workshop (ι : Type) where
  disk : Workspace
  course : ι → Course
  dir : ι → String

/-- A step of a compile.  For the first one the system completes the name of a directory. -/
structure Move (ι : Type) where
  compile : ι
  step : Step
  suffix : String := ""

namespace Workshop

variable {ι : Type} [DecidableEq ι]

/-- A name that the system hands out: nothing stands under it. -/
def isFresh (disk : Workspace) (dir : String) : Bool :=
  disk.isFree dir && !dir.toList.contains '\x00'

/-- The directory that a compile takes a step in. -/
def directory? (s : Workshop ι) (m : Move ι) : Option String :=
  match m.step with
  | .create =>
    let dir := "scad_" ++ m.suffix
    if isFresh s.disk dir then some dir else none
  | _ => some (s.dir m.compile)

/-- A compile takes a step. -/
def move? (tool : Tool) (keep : Bool) (orders : ι → Order) (s : Workshop ι) (m : Move ι) :
    Option (Workshop ι) := do
  let dir ← s.directory? m
  let (c, disk) ← (s.course m.compile).act (.onDisk dir) tool keep (orders m.compile) s.disk m.step
  return ⟨disk, Function.update s.course m.compile c, Function.update s.dir m.compile dir⟩

/-- Compiles take steps, one after another. -/
def run? (tool : Tool) (keep : Bool) (orders : ι → Order) (s : Workshop ι) (moves : List (Move ι)) :
    Option (Workshop ι) :=
  moves.foldlM (move? tool keep orders) s

/-- The steps of one compile among all. -/
def stepsOf (i : ι) (moves : List (Move ι)) : List Step :=
  (moves.filter fun m => m.compile = i).map (·.step)

/-- No compile has begun; whatever else may stand on the disk. -/
def IsIdle (s : Workshop ι) : Prop :=
  ∀ i, s.course i = {}

variable {tool : Tool} {keep : Bool} {orders : ι → Order} {s t : Workshop ι} {m : Move ι}
  {moves : List (Move ι)}

theorem stepsOf_concat_self (moves : List (Move ι)) (m : Move ι) :
    stepsOf m.compile (moves ++ [m]) = stepsOf m.compile moves ++ [m.step] := by
  simp [stepsOf]

theorem stepsOf_concat_of_ne
    {i : ι} (hne : i ≠ m.compile) (moves : List (Move ι)) :
    stepsOf i (moves ++ [m]) = stepsOf i moves := by
  simp [stepsOf, hne.symm]

/-- What holds of all compiles after some moves: each has come as far as it would have alone, and
while it has a workspace, this stands on the disk in a directory of its own. -/
structure Kept (tool : Tool) (keep : Bool) (orders : ι → Order) (moves : List (Move ι))
    (s : Workshop ι) : Prop where
  own : ∀ i, ∃ w, alone tool keep (orders i) (stepsOf i moves) = some (s.course i, w) ∧
    ((s.course i).phase.isOpen = true →
      s.disk.Holds (s.dir i) w ∧ '\x00' ∉ (s.dir i).toList ∧ s.dir i ≠ "..")
  apart : ∀ i j, i ≠ j → (s.course i).phase.isOpen = true → (s.course j).phase.isOpen = true →
    s.dir i ≠ s.dir j

/-- While a compile has a workspace, the name of its directory is not handed out again. -/
theorem Kept.dir_ne_of_isFree
    (h : s.Kept tool keep orders moves) {i : ι} (hopen : (s.course i).phase.isOpen = true)
    {dir : String} (hfree : s.disk.isFree dir = true) :
    s.dir i ≠ dir := by
  rintro rfl
  obtain ⟨w, halone, hdisk⟩ := h.own i
  have hthere := (hdisk hopen).1.directory
  rw [(stands_of_alone halone).present hopen, (Workspace.holds_removed hfree).directory] at hthere
  contradiction

theorem isOpen_of_acts
    {σ : Type} {a : Access σ} {order : Order} {c c' : Course} {x x' : σ} {step : Step}
    (hstep : step ≠ .create) (h : c.Acts a tool keep order x step c' x') :
    c.phase.isOpen = true := by
  cases h with
  | create hphase => contradiction
  | close hopen => exact hopen
  | stage hphase _ | notStaged hphase _ | write hphase _ | notWritten hphase _ | run hphase _
  | notRun hphase _ | read hphase =>
    rw [hphase]
    rfl

/-- A step on the disk is the step that the compile would take alone, in a directory that no other
compile has, and nothing happens beside this directory. -/
theorem Kept.exists_own
    (h : s.Kept tool keep orders moves) {dir : String} (hdir : s.directory? m = some dir)
    {c : Course} {disk : Workspace}
    (hact : (s.course m.compile).act (.onDisk dir) tool keep (orders m.compile) s.disk m.step =
      some (c, disk)) :
    (∃ w, alone tool keep (orders m.compile) (stepsOf m.compile (moves ++ [m])) = some (c, w) ∧
      disk.Holds dir w) ∧
    Workspace.SameBeside dir s.disk disk ∧ ('\x00' ∉ dir.toList ∧ dir ≠ "..") ∧
    (∀ i, i ≠ m.compile → (s.course i).phase.isOpen = true → s.dir i ≠ dir) := by
  obtain ⟨w, halone, hdisk⟩ := h.own m.compile
  have hacts := Course.acts_of_act hact
  rw [stepsOf_concat_self, alone_append_singleton, halone]
  unfold directory? at hdir
  by_cases hstep : m.step = .create
  · rw [hstep] at hdir hacts ⊢
    dsimp only at hdir
    split_ifs at hdir with hfresh
    obtain rfl := Option.some.inj hdir
    rw [isFresh, Bool.and_eq_true] at hfresh
    obtain ⟨hfree, hzero⟩ := hfresh
    cases hacts with
    | create hphase =>
      refine ⟨⟨.fresh, ?_, Workspace.holds_handOut hfree⟩, Workspace.sameBeside_handOut _ _,
        ⟨by simpa using hzero, ?_⟩, fun i _ hopen => h.dir_ne_of_isFree hopen hfree⟩
      · exact Course.act_of_acts (.create hphase)
      · intro hback
        simpa using congrArg String.toList hback
  · have hsame : dir = s.dir m.compile := by
      cases hm : m.step with
      | create => contradiction
      | _ =>
        rw [hm] at hdir
        exact (Option.some.inj hdir).symm
    subst hsame
    have hopen := isOpen_of_acts hstep hacts
    obtain ⟨hholds, hzero, hback⟩ := hdisk hopen
    obtain ⟨w', howns, hholds', hbeside⟩ :=
      (onDisk_refines_own hzero hback s.disk).acts ⟨hholds, .refl _ _⟩ hstep hacts
    exact ⟨⟨w', Course.act_of_acts howns, hholds'⟩, hbeside, ⟨hzero, hback⟩,
      fun i hne hopen' => h.apart i m.compile hne hopen' hopen⟩

/-- A step of one compile leaves all compiles as they would be alone. -/
theorem Kept.move
    (h : s.Kept tool keep orders moves) (hmove : s.move? tool keep orders m = some t) :
    t.Kept tool keep orders (moves ++ [m]) := by
  obtain ⟨dir, hdir, hrest⟩ := Option.bind_eq_some_iff.mp hmove
  obtain ⟨⟨c, disk⟩, hact, hdone⟩ := Option.bind_eq_some_iff.mp hrest
  obtain rfl := Option.some.inj hdone
  obtain ⟨⟨w, halone, hholds⟩, hbeside, hname, hothers⟩ := h.exists_own hdir hact
  refine ⟨fun i => ?_, fun i j hne => ?_⟩
  · by_cases hi : i = m.compile
    · subst hi
      simp only [Function.update_self]
      exact ⟨w, halone, fun _ => ⟨hholds, hname⟩⟩
    · obtain ⟨v, halone', hdisk⟩ := h.own i
      simp only [Function.update_of_ne hi, stepsOf_concat_of_ne hi]
      refine ⟨v, halone', fun hopen => ?_⟩
      obtain ⟨hholds', hname'⟩ := hdisk hopen
      exact ⟨hbeside.holds (hothers i hi hopen) hholds', hname'⟩
  · by_cases hi : i = m.compile
    · subst hi
      simp only [Function.update_self, Function.update_of_ne hne.symm]
      exact fun _ hopen => (hothers j hne.symm hopen).symm
    · by_cases hj : j = m.compile
      · subst hj
        simp only [Function.update_self, Function.update_of_ne hi]
        exact fun hopen _ => hothers i hi hopen
      · simp only [Function.update_of_ne hi, Function.update_of_ne hj]
        exact h.apart i j hne

theorem kept_of_isIdle
    (hs : s.IsIdle) :
    s.Kept tool keep orders [] := by
  refine ⟨fun i => ⟨.removed, ?_, ?_⟩, fun i _ _ hopen => ?_⟩
  · rw [hs i]
    rfl
  · rw [hs i]
    nofun
  · rw [hs i] at hopen
    contradiction

theorem kept_of_run
    (hs : s.IsIdle) (h : s.run? tool keep orders moves = some t) :
    t.Kept tool keep orders moves := by
  induction moves using List.reverseRecOn generalizing t with
  | nil =>
    obtain rfl := Option.some.inj h
    exact kept_of_isIdle hs
  | append_singleton moves m ih =>
    rw [run?, List.foldlM_append] at h
    obtain ⟨before, hbefore, hlast⟩ := Option.bind_eq_some_iff.mp h
    rw [List.foldlM_cons] at hlast
    obtain ⟨after, hmove, hafter⟩ := Option.bind_eq_some_iff.mp hlast
    obtain rfl := Option.some.inj hafter
    exact (ih hbefore).move hmove

/-- Whatever steps other compiles take in between, the course of a compile is the one it has alone:
its engine finds its own source and the files of its own library, and in the place of the artifact
is read what the engine leaves when it has found this. -/
theorem course_eq_alone
    (hs : s.IsIdle) (h : s.run? tool keep orders moves = some t) (i : ι) :
    (∃ w, alone tool keep (orders i) (stepsOf i moves) = some (t.course i, w)) ∧
    (∀ found, (t.course i).found = some found →
      HoldsOnly (orders i).message.source (orders i).library (orders i).files found) ∧
    (∀ artifact, (t.course i).artifact = some artifact → ∃ found args,
      (t.course i).found = some found ∧ arguments (orders i).message.overrides = .ok args ∧
      artifact = (tool.run args found).read? [outputFile]) := by
  obtain ⟨w, halone, -⟩ := (kept_of_run hs h).own i
  have htells := (stands_of_alone halone).tells
  exact ⟨⟨w, halone⟩, fun found hfound => holdsOnly_of_prepare (htells.found found hfound),
    htells.artifact⟩

/-- An engine that leaves what it finds of a part in the library, next to the source. -/
def listing : Tool := fun _ w =>
  let part := (w.read? [libraryRoot, "parts", "a.scad"]).getD .empty
  ([outputFile], .file ((w.read? [inputFile]).getD .empty ++ part)) :: w.entries

/-- Two orders with one name of a library: the files of the one are none of the other's. -/
def pair : Bool → Order
  | true => ⟨⟨"use <parts/a.scad>", []⟩, "parts", [("a.scad", "module a();".toUTF8)]⟩
  | false => ⟨⟨"cube(1);", []⟩, "parts", []⟩

/-- Two compiles in turns; the second is closed while the first has still to run. -/
def turns : List (Move Bool) :=
  [⟨true, .create, "x"⟩, ⟨false, .create, "y"⟩, ⟨false, .stage, ""⟩, ⟨true, .stage, ""⟩,
    ⟨true, .write, ""⟩, ⟨false, .write, ""⟩, ⟨false, .run, ""⟩, ⟨false, .read, ""⟩,
    ⟨false, .close, ""⟩, ⟨true, .run, ""⟩, ⟨true, .read, ""⟩, ⟨true, .close, ""⟩]

/-- Two compiles that have yet to begin, on a disk with nothing on it. -/
def waitingPair : Workshop Bool :=
  ⟨⟨true, []⟩, fun _ => {}, fun _ => ""⟩

theorem course_eq_alone_of_turns :
    ∃ t, waitingPair.run? listing false pair turns = some t ∧
      ((t.course true).artifact = some (some "use <parts/a.scad>module a();".toUTF8) ∧
        (t.course false).artifact = some (some "cube(1);".toUTF8)) ∧
      ∀ i, ∃ w, alone listing false (pair i) (stepsOf i turns) = some (t.course i, w) := by
  have hidle : waitingPair.IsIdle := fun _ => rfl
  have hturns : (waitingPair.run? listing false pair turns).any (fun t => decide
      ((t.course true).artifact = some (some "use <parts/a.scad>module a();".toUTF8) ∧
        (t.course false).artifact = some (some "cube(1);".toUTF8))) = true := by
    decide +kernel
  obtain ⟨t, hrun, hread⟩ := (Option.any_eq_true _ _).mp hturns
  exact ⟨t, hrun, of_decide_eq_true hread, fun i => (course_eq_alone hidle hrun i).1⟩

end Workshop

end SolidWorkshop.Compile
