import Mathlib.Tactic.SplitIfs
import SolidWorkshop.Flight
import SolidWorkshop.Proofs.Lookup

/-!
# Moves of a single flight

Everything that happens to a single flight is one of a few moves: a caller asks, a caller is
cancelled, a population is told its answer or is aborted, and whatever is on the agenda has its
turn.  Nothing is assumed about their order, not even that the agenda is worked off from its
front.

What a move does is said once, for states in which the agenda, the store and the waiters agree
with the populations.
-/

namespace SolidWorkshop.Flight

/-- One thing that happens to a single flight. -/
inductive Move (κ ν : Type) where
  | get (key : κ)
  | cancel (waiter : Nat)
  | finish (key : κ) (answer : Outcome ν)
  | abort (key : κ)
  /-- The entry at a place of the agenda has its turn. -/
  | turn (place : Nat)

variable {κ ν : Type} [DecidableEq κ]

/-- The value that an outcome brings. -/
def value? : Option (Outcome ν) → Option ν
  | some (.value v) => some v
  | _ => none

namespace State

/-- The state after a move.  A move for which nobody is there changes nothing. -/
def move (s : State κ ν) : Move κ ν → State κ ν
  | .get key => (s.ask key).1
  | .cancel w => (s.cancel w).1
  | .finish key answer => (s.answer? key answer).getD s
  | .abort key => (s.abort? key).getD s
  | .turn place =>
    match s.agenda[place]? with
    | none => s
    | some event => { s with agenda := s.agenda.eraseIdx place }.perform event

/-- The state after some moves, the latest of them first, that begin with nothing. -/
def after : List (Move κ ν) → State κ ν
  | [] => {}
  | m :: earlier => (after earlier).move m

/-- A turn is a move. -/
theorem turn_eq_move (s : State κ ν) :
    s.turn = s.move (.turn 0) := by
  unfold turn move
  cases s.agenda with
  | nil => rfl
  | cons event later => rfl

/-! ## What holds between moves -/

/-- A population of a key, and how it ended. -/
def Ends (s : State κ ν) (p : Nat) (key : κ) (outcome : Option (Outcome ν)) : Prop :=
  ∃ population, s.populations[p]? = some population ∧ population.key = key ∧
    population.outcome = outcome

/-- The entries that are to be on the agenda exactly once. -/
def due (s : State κ ν) : Event → Bool
  | .ask w => (s.waiters[w]?).any fun waiter => waiter.outcome.isNone && waiter.joined.isNone
  | .wake w => (s.waiters[w]?).any fun waiter =>
      waiter.outcome.isNone && waiter.joined.isSome && waiter.answer.isSome
  | .populate p => (s.populations[p]?).any fun population =>
      population.outcome.isNone && !population.started
  | .resume p => (s.populations[p]?).any fun population =>
      population.outcome.isNone && population.started && population.answer.isSome
  | .settle p => (s.populations[p]?).any fun population =>
      population.outcome.isSome && s.inflight.contains (population.key, p)
  | .tell .. => false

section Due

variable (s : State κ ν) (w p : Nat)

@[simp] theorem due_ask :
    s.due (.ask w) =
      (s.waiters[w]?).any fun waiter => waiter.outcome.isNone && waiter.joined.isNone := rfl

@[simp] theorem due_wake :
    s.due (.wake w) = (s.waiters[w]?).any fun waiter =>
      waiter.outcome.isNone && waiter.joined.isSome && waiter.answer.isSome := rfl

@[simp] theorem due_populate :
    s.due (.populate p) = (s.populations[p]?).any fun population =>
      population.outcome.isNone && !population.started := rfl

@[simp] theorem due_resume :
    s.due (.resume p) = (s.populations[p]?).any fun population =>
      population.outcome.isNone && population.started && population.answer.isSome := rfl

@[simp] theorem due_settle :
    s.due (.settle p) = (s.populations[p]?).any fun population =>
      population.outcome.isSome && s.inflight.contains (population.key, p) := rfl

@[simp] theorem due_tell : s.due (.tell p w) = false := rfl

end Due

/-- The agenda holds what is due. -/
structure Timely (s : State κ ν) : Prop where
  count : ∀ event, (∀ p w, event ≠ .tell p w) → s.agenda.count event = (s.due event).toNat
  tell_of_mem : ∀ p w, .tell p w ∈ s.agenda →
    (∃ key outcome, s.Ends p key (some outcome)) ∧
      ∃ waiter, s.waiters[w]? = some waiter ∧ waiter.joined = some p
  mem_tell : ∀ p w waiter key outcome, s.Ends p key (some outcome) →
    s.waiters[w]? = some waiter → waiter.joined = some p → waiter.outcome = none →
      waiter.answer = none → .tell p w ∈ s.agenda

/-- Waiters and populations know of each other. -/
structure Linked (s : State κ ν) : Prop where
  unstarted : ∀ (p : Nat) (population : Population κ ν), s.populations[p]? = some population →
    population.started = false → population.answer = none
  unjoined : ∀ (w : Nat) (waiter : Waiter κ ν), s.waiters[w]? = some waiter →
    waiter.joined = none → waiter.answer = none
  waits : ∀ (w : Nat) (waiter : Waiter κ ν) (p : Nat), s.waiters[w]? = some waiter →
    waiter.joined = some p → waiter.answer = none → waiter.outcome = none
  joined : ∀ (w : Nat) (waiter : Waiter κ ν) (p : Nat), s.waiters[w]? = some waiter →
    waiter.joined = some p → ∃ population, s.populations[p]? = some population ∧
      population.key = waiter.key ∧ (population.outcome = none → w ∈ population.watchers)
  watched : ∀ (p : Nat) (population : Population κ ν) (w : Nat),
    s.populations[p]? = some population → w ∈ population.watchers →
      ∃ waiter, s.waiters[w]? = some waiter ∧ waiter.joined = some p
  watchers : ∀ (p : Nat) (population : Population κ ν), s.populations[p]? = some population →
    population.watchers.Nodup

/-- The store and the flights in progress agree with how the populations ended. -/
structure Ledger (s : State κ ν) : Prop where
  keys : (s.inflight.map (·.1)).Nodup
  entry : ∀ key p, (key, p) ∈ s.inflight → ∃ outcome, s.Ends p key outcome
  running : ∀ key p, s.Ends p key none → (key, p) ∈ s.inflight
  apart : ∀ key p, (key, p) ∈ s.inflight → s.peek? key = none
  kept : ∀ key p v, s.Ends p key (some (.value v)) →
    (key, p) ∈ s.inflight ∨ s.peek? key = some v
  found : ∀ key v, s.peek? key = some v → ∃ p, s.Ends p key (some (.value v))
  latest : ∀ key q, (key, q) ∈ s.inflight → ∀ p outcome, s.Ends p key outcome → p ≤ q
  last : ∀ key q v, s.Ends q key (some (.value v)) → ∀ p outcome, s.Ends p key outcome → p ≤ q

/-- What holds between any two moves. -/
structure Sound (s : State κ ν) : Prop where
  timely : s.Timely
  linked : s.Linked
  ledger : s.Ledger

/-! ## What a move can do -/

/-- Why a caller who asks has its outcome at once. -/
inductive Answers (s : State κ ν) (waiter : Waiter κ ν) : Outcome ν → Prop
  | cancelled (h : waiter.doomed = true) : Answers s waiter .cancelled
  | stored {v : ν} (hfree : waiter.doomed = false) (h : s.peek? waiter.key = some v) :
    Answers s waiter (.value v)
  | ended {p : Nat} {outcome : Outcome ν} (hfree : waiter.doomed = false)
    (h : (waiter.key, p) ∈ s.inflight) (hend : s.Ends p waiter.key (some outcome)) :
    Answers s waiter outcome

/-- Why a population ends, and which entry of the agenda ends it. -/
inductive Concludes (p : Nat) (population : Population κ ν) : Event → Outcome ν → Prop
  | unstarted (hstarted : population.started = false) (h : population.doomed = true) :
    Concludes p population (.populate p) .cancelled
  | doomed {answer : Outcome ν} (hstarted : population.started = true)
    (hanswer : population.answer = some answer) (h : population.doomed = true) :
    Concludes p population (.resume p) .cancelled
  | told {answer : Outcome ν} (hstarted : population.started = true)
    (hanswer : population.answer = some answer) (h : population.doomed = false) :
    Concludes p population (.resume p) answer

/-- All that moves can do. -/
inductive Step (s : State κ ν) : Move κ ν → State κ ν → Prop
  | idle {m : Move κ ν} (hcancel : ∀ w, m = .cancel w → (s.cancel w).2 = false)
    (hturn : ∀ place, m = .turn place → s.agenda[place]? = none) : Step s m s
  | get (key : κ) :
    Step s (.get key) { s with
      waiters := s.waiters.push { key }, agenda := s.agenda ++ [.ask s.waiters.size] }
  | withdraw {w p : Nat} {waiter : Waiter κ ν} (hw : s.waiters[w]? = some waiter)
    (hopen : waiter.outcome = none) (hjoined : waiter.joined = some p)
    (hanswer : waiter.answer = none) :
    Step s (.cancel w)
      ((s.setWaiter w { waiter with answer := some .cancelled }).plan [.wake w])
  | doomWaiter {w : Nat} {waiter : Waiter κ ν} (hw : s.waiters[w]? = some waiter)
    (hopen : waiter.outcome = none) :
    Step s (.cancel w) (s.setWaiter w { waiter with doomed := true })
  | answer {m : Move κ ν} {p : Nat} {population : Population κ ν} {answer : Outcome ν}
    (hp : s.populations[p]? = some population) (hrunning : population.outcome = none)
    (hstarted : population.started = true) (hfree : population.answer = none)
    (hm : m = .finish population.key answer ∧ s.open? population.key = some p ∨
      m = .abort population.key ∧ s.inflight.lookup population.key = some p ∧
        answer = .cancelled) :
    Step s m
      ((s.setPopulation p { population with answer := some answer }).plan [.resume p])
  | doomPopulation {p : Nat} {population : Population κ ν}
    (hp : s.populations[p]? = some population) (hrunning : population.outcome = none)
    (hflight : s.inflight.lookup population.key = some p) :
    Step s (.abort population.key) (s.setPopulation p { population with doomed := true })
  | serve {w : Nat} {waiter : Waiter κ ν} {outcome : Outcome ν} {before later : List Event}
    (hagenda : s.agenda = before ++ .ask w :: later) (hw : s.waiters[w]? = some waiter)
    (hopen : waiter.outcome = none) (hunjoined : waiter.joined = none)
    (hanswers : s.Answers waiter outcome) :
    Step s (.turn before.length)
      ({ s with agenda := before ++ later }.setWaiter w { waiter with outcome := some outcome })
  | join {w p : Nat} {waiter : Waiter κ ν} {population : Population κ ν}
    {before later : List Event} (hagenda : s.agenda = before ++ .ask w :: later)
    (hw : s.waiters[w]? = some waiter) (hopen : waiter.outcome = none)
    (hunjoined : waiter.joined = none) (hfree : waiter.doomed = false)
    (hflight : (waiter.key, p) ∈ s.inflight) (hp : s.populations[p]? = some population)
    (hrunning : population.outcome = none) :
    Step s (.turn before.length)
      (({ s with agenda := before ++ later }.setWaiter w
        { waiter with joined := some p }).setPopulation p { population with watchers := population.watchers ++ [w] })
  | start {w : Nat} {waiter : Waiter κ ν} {before later : List Event}
    (hagenda : s.agenda = before ++ .ask w :: later) (hw : s.waiters[w]? = some waiter)
    (hopen : waiter.outcome = none) (hunjoined : waiter.joined = none)
    (hfree : waiter.doomed = false) (hpeek : s.peek? waiter.key = none)
    (hflight : s.inflight.lookup waiter.key = none) :
    Step s (.turn before.length)
      { s.setWaiter w { waiter with joined := some s.populations.size } with
        inflight := s.inflight ++ [(waiter.key, s.populations.size)]
        populations := s.populations.push { key := waiter.key, watchers := [w] }
        agenda := before ++ later ++ [.populate s.populations.size] }
  | populate {p : Nat} {population : Population κ ν} {before later : List Event}
    (hagenda : s.agenda = before ++ .populate p :: later)
    (hp : s.populations[p]? = some population) (hrunning : population.outcome = none)
    (hstarted : population.started = false) :
    Step s (.turn before.length)
      ({ s with agenda := before ++ later }.setPopulation p { population with started := true })
  | conclude {p : Nat} {population : Population κ ν} {event : Event} {outcome : Outcome ν}
    {before later : List Event} (hagenda : s.agenda = before ++ event :: later)
    (hp : s.populations[p]? = some population) (hrunning : population.outcome = none)
    (hend : Concludes p population event outcome) :
    Step s (.turn before.length)
      ({ s with agenda := before ++ later }.endPopulation p population outcome)
  | settle {p : Nat} {population : Population κ ν} {outcome : Outcome ν}
    {before later : List Event} (hagenda : s.agenda = before ++ .settle p :: later)
    (hp : s.populations[p]? = some population) (hended : population.outcome = some outcome)
    (hflight : (population.key, p) ∈ s.inflight) :
    Step s (.turn before.length) ({ s with agenda := before ++ later }.settleTurn p population)
  | tell {p w : Nat} {waiter : Waiter κ ν} {key : κ} {outcome : Outcome ν}
    {before later : List Event} (hagenda : s.agenda = before ++ .tell p w :: later)
    (hend : s.Ends p key (some outcome)) (hw : s.waiters[w]? = some waiter)
    (hjoined : waiter.joined = some p) (hanswer : waiter.answer = none) :
    Step s (.turn before.length)
      (({ s with agenda := before ++ later }.setWaiter w
        { waiter with answer := some outcome }).plan [.wake w])
  | passBy {p w : Nat} {waiter : Waiter κ ν} {before later : List Event}
    (hagenda : s.agenda = before ++ .tell p w :: later) (hw : s.waiters[w]? = some waiter)
    (hanswer : waiter.answer.isSome) :
    Step s (.turn before.length) { s with agenda := before ++ later }
  | wake {w : Nat} {waiter : Waiter κ ν} {answer : Outcome ν} {before later : List Event}
    (hagenda : s.agenda = before ++ .wake w :: later) (hw : s.waiters[w]? = some waiter)
    (hopen : waiter.outcome = none) (hanswer : waiter.answer = some answer) :
    Step s (.turn before.length)
      ({ s with agenda := before ++ later }.setWaiter w
        { waiter with outcome := some (if waiter.doomed then .cancelled else answer) })

/-! ## Entries of the agenda -/

section Timely

variable {s : State κ ν} {w p : Nat}

theorem due_ask_iff :
    s.due (.ask w) = true ↔
      ∃ waiter, s.waiters[w]? = some waiter ∧ waiter.outcome = none ∧ waiter.joined = none := by
  simp [Option.any_eq_true]

theorem due_wake_iff :
    s.due (.wake w) = true ↔
      ∃ waiter, s.waiters[w]? = some waiter ∧ waiter.outcome = none ∧
        waiter.joined.isSome = true ∧ waiter.answer.isSome = true := by
  simp [Option.any_eq_true, and_assoc]

theorem due_populate_iff :
    s.due (.populate p) = true ↔
      ∃ population, s.populations[p]? = some population ∧ population.outcome = none ∧
        population.started = false := by
  simp [Option.any_eq_true]

theorem due_resume_iff :
    s.due (.resume p) = true ↔
      ∃ population, s.populations[p]? = some population ∧ population.outcome = none ∧
        population.started = true ∧ population.answer.isSome = true := by
  simp [Option.any_eq_true, and_assoc]

theorem due_settle_iff :
    s.due (.settle p) = true ↔
      ∃ population, s.populations[p]? = some population ∧ population.outcome.isSome = true ∧
        (population.key, p) ∈ s.inflight := by
  simp [Option.any_eq_true]

theorem Timely.due_of_mem
    (hs : s.Timely) {event : Event} (hmem : event ∈ s.agenda)
    (hevent : ∀ p w, event ≠ .tell p w) :
    s.due event = true := by
  have hpos := List.count_pos_iff.mpr hmem
  rw [hs.count event hevent] at hpos
  cases hdue : s.due event with
  | true => rfl
  | false => simp [hdue] at hpos

theorem Timely.mem_of_due
    (hs : s.Timely) {event : Event} (hdue : s.due event = true)
    (hevent : ∀ p w, event ≠ .tell p w) :
    event ∈ s.agenda := by
  apply List.count_pos_iff.mp
  rw [hs.count event hevent, hdue]
  exact Nat.one_pos

end Timely

theorem exists_split_of_getElem?
    {α : Type} {xs : List α} {place : Nat} {x : α} (h : xs[place]? = some x) :
    ∃ before later, xs = before ++ x :: later ∧ before.length = place ∧
      xs.eraseIdx place = before ++ later := by
  obtain ⟨hlt, rfl⟩ := List.getElem?_eq_some_iff.mp h
  refine ⟨xs.take place, xs.drop (place + 1), ?_, ?_, List.eraseIdx_eq_take_drop_succ xs place⟩
  · rw [List.getElem_cons_drop, List.take_append_drop]
  · exact List.length_take_of_le (Nat.le_of_lt hlt)

/-! ## Every move is a step -/

section Step

variable {s : State κ ν} {before later : List Event}

/-- A caller's first turn. -/
theorem step_ask
    (hs : s.Sound) {w : Nat} (hagenda : s.agenda = before ++ .ask w :: later) :
    Step s (.turn before.length) ({ s with agenda := before ++ later }.perform (.ask w)) := by
  have hmem : .ask w ∈ s.agenda := by rw [hagenda]; simp
  obtain ⟨waiter, hw, hopen, hunjoined⟩ := due_ask_iff.mp (hs.timely.due_of_mem hmem nofun)
  simp only [perform, hw, Option.elim_some, askTurn]
  split_ifs with hdoomed
  · exact .serve hagenda hw hopen hunjoined (.cancelled hdoomed)
  · have hfree : waiter.doomed = false := Bool.not_eq_true _ ▸ hdoomed
    split
    · next v hpeek => exact .serve hagenda hw hopen hunjoined (.stored hfree hpeek)
    · next hpeek =>
      split
      · next p hflight =>
        have hentry := mem_of_lookup hflight
        obtain ⟨outcome, population, hp, hkey, houtcome⟩ := hs.ledger.entry _ _ hentry
        simp only [hp]
        split
        · next outcome' hended =>
          exact .serve hagenda hw hopen hunjoined
            (.ended hfree hentry ⟨population, hp, hkey, hended⟩)
        · next hrunning =>
          exact .join hagenda hw hopen hunjoined hfree hentry hp hrunning
      · next hflight => exact .start hagenda hw hopen hunjoined hfree hpeek hflight

theorem step_populate
    (hs : s.Sound) {p : Nat} (hagenda : s.agenda = before ++ .populate p :: later) :
    Step s (.turn before.length) ({ s with agenda := before ++ later }.perform (.populate p)) := by
  have hmem : .populate p ∈ s.agenda := by rw [hagenda]; simp
  obtain ⟨population, hp, hrunning, hstarted⟩ :=
    due_populate_iff.mp (hs.timely.due_of_mem hmem nofun)
  simp only [perform, hp, Option.elim_some, populateTurn]
  split_ifs with hdoomed
  · exact .conclude hagenda hp hrunning (.unstarted hstarted hdoomed)
  · exact .populate hagenda hp hrunning hstarted

theorem step_resume
    (hs : s.Sound) {p : Nat} (hagenda : s.agenda = before ++ .resume p :: later) :
    Step s (.turn before.length) ({ s with agenda := before ++ later }.perform (.resume p)) := by
  have hmem : .resume p ∈ s.agenda := by rw [hagenda]; simp
  obtain ⟨population, hp, hrunning, hstarted, hanswered⟩ :=
    due_resume_iff.mp (hs.timely.due_of_mem hmem nofun)
  obtain ⟨answer, hanswer⟩ := Option.isSome_iff_exists.mp hanswered
  simp only [perform, hp, Option.elim_some, resumeTurn, hanswer]
  split_ifs with hdoomed
  · exact .conclude hagenda hp hrunning (.doomed hstarted hanswer hdoomed)
  · exact .conclude hagenda hp hrunning
      (.told hstarted hanswer (Bool.not_eq_true _ ▸ hdoomed))

theorem step_settle
    (hs : s.Sound) {p : Nat} (hagenda : s.agenda = before ++ .settle p :: later) :
    Step s (.turn before.length) ({ s with agenda := before ++ later }.perform (.settle p)) := by
  have hmem : .settle p ∈ s.agenda := by rw [hagenda]; simp
  obtain ⟨population, hp, hended, hflight⟩ :=
    due_settle_iff.mp (hs.timely.due_of_mem hmem nofun)
  obtain ⟨outcome, houtcome⟩ := Option.isSome_iff_exists.mp hended
  simp only [perform, hp, Option.elim_some]
  exact .settle hagenda hp houtcome hflight

theorem step_tell
    (hs : s.Sound) {p w : Nat} (hagenda : s.agenda = before ++ .tell p w :: later) :
    Step s (.turn before.length) ({ s with agenda := before ++ later }.perform (.tell p w)) := by
  have hmem : .tell p w ∈ s.agenda := by rw [hagenda]; simp
  obtain ⟨⟨key, outcome, hend⟩, waiter, hw, hjoined⟩ := hs.timely.tell_of_mem p w hmem
  have hend' := hend
  obtain ⟨population, hp, -, houtcome⟩ := hend'
  simp only [perform, hw, hp, Option.elim_some, Option.bind_some, tellTurn, houtcome]
  split_ifs with hanswer
  · exact .passBy hagenda hw hanswer
  · exact .tell hagenda hend hw hjoined (Option.not_isSome_iff_eq_none.mp hanswer)

theorem step_wake
    (hs : s.Sound) {w : Nat} (hagenda : s.agenda = before ++ .wake w :: later) :
    Step s (.turn before.length) ({ s with agenda := before ++ later }.perform (.wake w)) := by
  have hmem : .wake w ∈ s.agenda := by rw [hagenda]; simp
  obtain ⟨waiter, hw, hopen, -, hanswered⟩ := due_wake_iff.mp (hs.timely.due_of_mem hmem nofun)
  obtain ⟨answer, hanswer⟩ := Option.isSome_iff_exists.mp hanswered
  have houtcome : (if waiter.doomed then some .cancelled else waiter.answer) =
      some (if waiter.doomed then .cancelled else answer) := by
    rw [hanswer]
    split_ifs
    · rfl
    · rfl
  simp only [perform, hw, Option.elim_some, wakeTurn]
  rw [houtcome]
  exact .wake hagenda hw hopen hanswer

theorem step_perform
    (hs : s.Sound) {event : Event} (hagenda : s.agenda = before ++ event :: later) :
    Step s (.turn before.length) ({ s with agenda := before ++ later }.perform event) := by
  cases event with
  | ask w => exact step_ask hs hagenda
  | populate p => exact step_populate hs hagenda
  | resume p => exact step_resume hs hagenda
  | settle p => exact step_settle hs hagenda
  | tell p w => exact step_tell hs hagenda
  | wake w => exact step_wake hs hagenda

theorem step_cancel (s : State κ ν) (w : Nat) :
    Step s (.cancel w) (s.cancel w).1 := by
  have hidle : (s.cancel w).2 = false → (s.cancel w).1 = s → Step s (.cancel w) (s.cancel w).1 := by
    intro hlate hsame
    rw [hsame]
    refine .idle ?_ nofun
    rintro w' ⟨⟩
    exact hlate
  unfold cancel at hidle ⊢
  cases hw : s.waiters[w]? with
  | none =>
    rw [hw] at hidle
    exact hidle rfl rfl
  | some waiter =>
    simp only [hw] at hidle ⊢
    split_ifs at hidle ⊢ with hended hwaits
    · exact hidle rfl rfl
    · have hopen := Option.not_isSome_iff_eq_none.mp hended
      simp only [Bool.and_eq_true, Option.isNone_iff_eq_none] at hwaits
      obtain ⟨p, hjoined⟩ := Option.isSome_iff_exists.mp hwaits.1
      exact .withdraw hw hopen hjoined hwaits.2
    · exact .doomWaiter hw (Option.not_isSome_iff_eq_none.mp hended)

theorem exists_of_open?
    {key : κ} {p : Nat} (h : s.open? key = some p) :
    ∃ population, s.populations[p]? = some population ∧ population.key = key ∧
      population.outcome = none ∧ population.started = true ∧ population.answer = none := by
  obtain ⟨hlt, hopen, -⟩ := Array.findIdx?_eq_some_iff_getElem.mp h
  simp only [Bool.and_eq_true, decide_eq_true_eq, Option.isNone_iff_eq_none] at hopen
  obtain ⟨⟨⟨hkey, hstarted⟩, hanswer⟩, houtcome⟩ := hopen
  exact ⟨_, Array.getElem?_eq_getElem hlt, hkey, houtcome, hstarted, hanswer⟩

theorem step_finish (s : State κ ν) (key : κ) (answer : Outcome ν) :
    Step s (.finish key answer) ((s.answer? key answer).getD s) := by
  unfold answer?
  cases hopen : s.open? key with
  | none => exact .idle nofun nofun
  | some p =>
    obtain ⟨population, hp, rfl, hrunning, hstarted, hfree⟩ := exists_of_open? hopen
    simp only [hp, Option.bind_eq_bind, Option.bind_some]
    exact .answer hp hrunning hstarted hfree (Or.inl ⟨rfl, hopen⟩)

theorem step_abort
    (hs : s.Sound) (key : κ) :
    Step s (.abort key) ((s.abort? key).getD s) := by
  unfold abort?
  cases hflight : s.inflight.lookup key with
  | none => exact .idle nofun nofun
  | some p =>
    obtain ⟨outcome, population, hp, rfl, houtcome⟩ :=
      hs.ledger.entry _ _ (mem_of_lookup hflight)
    simp only [hp, Option.bind_eq_bind, Option.bind_some]
    split_ifs with hended hwaits
    · exact .idle nofun nofun
    · have hrunning := Option.not_isSome_iff_eq_none.mp hended
      simp only [Bool.and_eq_true, Option.isNone_iff_eq_none] at hwaits
      exact .answer hp hrunning hwaits.1 hwaits.2 (Or.inr ⟨rfl, hflight, rfl⟩)
    · exact .doomPopulation hp (Option.not_isSome_iff_eq_none.mp hended) hflight

/-- Whatever happens between two states is one of the steps. -/
theorem step_move
    (hs : s.Sound) (m : Move κ ν) :
    Step s m (s.move m) := by
  cases m with
  | get key => exact .get key
  | cancel w => exact step_cancel s w
  | finish key answer => exact step_finish s key answer
  | abort key => exact step_abort hs key
  | turn place =>
    simp only [move]
    cases hevent : s.agenda[place]? with
    | none =>
      refine .idle nofun ?_
      rintro place' ⟨⟩
      exact hevent
    | some event =>
      obtain ⟨before, later, hagenda, rfl, herase⟩ := exists_split_of_getElem? hevent
      dsimp only
      rw [herase]
      exact step_perform hs hagenda

end Step

end State

end SolidWorkshop.Flight
