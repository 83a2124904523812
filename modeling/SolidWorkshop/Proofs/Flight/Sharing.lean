import SolidWorkshop.Proofs.Flight.Fate
import SolidWorkshop.Proofs.Flight.Quiescence

/-!
# Sharing a population

Whatever callers ask for, whoever of them is cancelled and however the populations end, a single
flight finds the value of a key once: its callers share one population, a value that has been
found stays, and what failed is tried again.
-/

namespace SolidWorkshop.Flight.State

variable {κ ν : Type} [DecidableEq κ] {s t : State κ ν}

/-! ## Stored values -/

/-- A stored value comes with a turn in which the store takes up that a population has ended with
it; the key was not stored before. -/
theorem Step.peek?_cases
    (hs : s.Sound) {m : Move κ ν} (h : Step s m t) (key : κ) :
    t.peek? key = s.peek? key ∨ s.peek? key = none ∧ ∃ place p v, m = .turn place ∧
      s.agenda[place]? = some (.settle p) ∧ s.Ends p key (some (.value v)) ∧
      t.peek? key = some v := by
  cases h with
  | @settle p population outcome before later hagenda hp hended hflight =>
    have hnone := hs.ledger.apart _ _ hflight
    have hpeek := peek?_settleTurn (s := { s with agenda := before ++ later }) p hnone key
    rw [hpeek]
    split_ifs with hkey
    · obtain rfl := hkey
      cases hvalue : value? population.outcome with
      | none => exact Or.inl hnone.symm
      | some v =>
        refine Or.inr ⟨hnone, before.length, p, v, rfl, by simp [hagenda], ?_, rfl⟩
        exact ⟨population, hp, rfl, value?_eq_some_iff.mp hvalue⟩
    · exact Or.inl rfl
  | _ => exact Or.inl rfl

/-- No population of a stored key is running. -/
theorem Ledger.not_running
    (hs : s.Ledger) {key : κ} {v : ν} (hstored : s.peek? key = some v) (p : Nat) :
    ¬s.Ends p key none := by
  intro hrunning
  rw [hs.apart key p (hs.running key p hrunning)] at hstored
  contradiction

/-- A stored value stays, and its key has no further population. -/
theorem Step.stored
    (hs : s.Sound) {m : Move κ ν} (h : Step s m t) {key : κ} {v : ν}
    (hstored : s.peek? key = some v) :
    t.peek? key = some v ∧ ∀ p outcome, t.Ends p key outcome ↔ s.Ends p key outcome := by
  have hfinal : ∀ p outcome, s.Ends p key outcome → t.Ends p key outcome := by
    intro p outcome hend
    cases outcome with
    | none => exact absurd hend (hs.ledger.not_running hstored p)
    | some o => exact h.ends hend
  constructor
  · rcases h.peek?_cases hs key with hsame | ⟨hnone, -⟩
    · exact hsame.trans hstored
    · rw [hnone] at hstored
      contradiction
  · intro p outcome
    refine ⟨?_, hfinal p outcome⟩
    rintro ⟨new, hnew, rfl, rfl⟩
    cases hold : s.populations[p]? with
    | none =>
      rw [(h.born hnew hold).1] at hstored
      contradiction
    | some old =>
      obtain ⟨new', hnew', hchange⟩ := h.population hold
      obtain rfl : new' = new := Option.some.inj (hnew'.symm.trans hnew)
      have hkey : old.key = new'.key := by
        cases hchange with
        | _ => rfl
      have hbefore : s.Ends p new'.key old.outcome := ⟨old, hold, hkey, rfl⟩
      have hsame := (hfinal p _ hbefore).unique ⟨new', hnew, rfl, rfl⟩
      exact hsame.2 ▸ hbefore

theorem stored_after
    {moves : List (Move κ ν)} {key : κ} {v : ν} (hstored : (after moves).peek? key = some v)
    (later : List (Move κ ν)) :
    (after (later ++ moves)).peek? key = some v ∧ ∀ p outcome,
      (after (later ++ moves)).Ends p key outcome ↔ (after moves).Ends p key outcome := by
  induction later with
  | nil => exact ⟨hstored, fun _ _ => Iff.rfl⟩
  | cons m later ih =>
    have hs := sound_after (later ++ moves)
    obtain ⟨hkept, hends⟩ := (step_move hs m).stored hs ih.1
    exact ⟨hkept, fun p outcome => (hends p outcome).trans (ih.2 p outcome)⟩

/-! ## The end of a population is taken up -/

theorem Sound.settle_mem
    (hs : s.Sound) {key : κ} {p : Nat} {outcome : Outcome ν} (hend : s.Ends p key (some outcome))
    (hflight : (key, p) ∈ s.inflight) :
    .settle p ∈ s.agenda := by
  obtain ⟨population, hp, rfl, hended⟩ := hend
  have hdue : s.due (.settle p) = true := by simp [hp, hended, hflight]
  exact hs.timely.mem_of_due hdue (by simp)

/-- The first waiter that comes after a failure has been taken up starts a population. -/
theorem Step.retry
    (hs : s.Sound) {place w p : Nat} {waiter : Waiter κ ν} {outcome : Outcome ν}
    (h : Step s (.turn place) t) (hask : s.agenda[place]? = some (.ask w))
    (hw : s.waiters[w]? = some waiter) (hfree : waiter.doomed = false)
    (hend : s.Ends p waiter.key (some outcome)) (hfailed : value? (some outcome) = none)
    (hlatest : ∀ q o, s.Ends q waiter.key o → q ≤ p) (hsettled : .settle p ∉ s.agenda) :
    t.populations = s.populations.push { key := waiter.key, watchers := [w] } := by
  have hpeek : s.peek? waiter.key = none := by
    rw [Option.eq_none_iff_forall_ne_some]
    intro v hstored
    obtain ⟨q, hvalue⟩ := hs.ledger.found _ _ hstored
    obtain rfl := Nat.le_antisymm (hlatest q _ hvalue) (hs.ledger.last _ _ _ hvalue p _ hend)
    rw [(hend.unique hvalue).2] at hfailed
    contradiction
  have hflight : ∀ q, (waiter.key, q) ∉ s.inflight := by
    intro q hq
    obtain ⟨o, hend'⟩ := hs.ledger.entry _ _ hq
    obtain rfl := Nat.le_antisymm (hlatest q o hend') (hs.ledger.latest _ _ hq p _ hend)
    exact hsettled (hs.settle_mem hend hq)
  rcases h.ask hask hw with ⟨o, hanswers, -⟩ | ⟨q, hq, -⟩ | ⟨-, -, -, hpopulations, -⟩
  · cases hanswers with
    | cancelled hdoomed =>
      rw [hfree] at hdoomed
      contradiction
    | stored _ hstored =>
      rw [hpeek] at hstored
      contradiction
    | ended _ hq => exact absurd hq (hflight _)
  · exact absurd hq (hflight q)
  · exact hpopulations

/-! ## What waiters get -/

/-- With nothing left on the agenda, whoever waited for a population that has ended has an
outcome. -/
theorem Sound.not_waiting
    (hs : s.Sound) (hempty : s.agenda = []) {w p : Nat} {waiter : Waiter κ ν}
    (hw : s.waiters[w]? = some waiter) (hjoined : waiter.joined = some p) {key : κ}
    {outcome : Outcome ν} (hend : s.Ends p key (some outcome)) :
    waiter.outcome ≠ none := by
  intro hopen
  cases hanswer : waiter.answer with
  | none =>
    have htell := hs.timely.mem_tell p w waiter key outcome hend hw hjoined hopen hanswer
    rw [hempty] at htell
    contradiction
  | some answer =>
    have hdue : s.due (.wake w) = true := by simp [hw, hopen, hjoined, hanswer]
    have hwake := hs.timely.mem_of_due hdue (by simp)
    rw [hempty] at hwake
    contradiction

/-- A waiter that has come to a population and that nobody has cancelled gets what the population
ends with, and nothing else. -/
theorem Shares.outcome_eq
    {w p : Nat} {moves : List (Move κ ν)} (h : Shares w p moves) (hfree : ¬Cancelled w moves) :
    ∃ waiter outcome, (after moves).waiters[w]? = some waiter ∧
      (after moves).Ends p waiter.key outcome ∧
      (waiter.outcome = none ∨ waiter.outcome = outcome) ∧
      ((after moves).agenda = [] → waiter.outcome = outcome) := by
  obtain ⟨waiter, outcome, hw, hend, hgets⟩ := h.exists_waiter
  have hs := sound_after moves
  have hfair := fair_after moves hw hfree
  refine ⟨waiter, outcome, hw, hend, ?_⟩
  rcases hgets with hjoined | ⟨-, hgot⟩
  · cases houtcome : waiter.outcome with
    | some o =>
      obtain ⟨key, hend'⟩ := hfair.told p o hjoined (hfair.woken p o hjoined houtcome)
      have hsame := (hend'.unique hend).2
      exact ⟨Or.inr hsame, fun _ => hsame⟩
    | none =>
      refine ⟨Or.inl rfl, ?_⟩
      intro hempty
      cases outcome with
      | none => rfl
      | some o => exact absurd houtcome (hs.not_waiting hempty hw hjoined hend)
  · exact ⟨Or.inr hgot, fun _ => hgot⟩

/-! ## Cancelled waiters -/

omit [DecidableEq κ] in
/-- To cancel a waiter touches neither a population nor the store. -/
theorem cancel_frame (s : State κ ν) (w : Nat) :
    (s.cancel w).1.populations = s.populations ∧ (s.cancel w).1.values = s.values ∧
      (s.cancel w).1.inflight = s.inflight := by
  unfold cancel
  split
  · exact ⟨rfl, rfl, rfl⟩
  · split_ifs
    · exact ⟨rfl, rfl, rfl⟩
    · exact ⟨rfl, rfl, rfl⟩
    · exact ⟨rfl, rfl, rfl⟩

/-- A population ends with what it has been told, or because it has been aborted. -/
theorem Ends.cause
    {moves : List (Move κ ν)} {p : Nat} {key : κ} {outcome : Outcome ν}
    (hend : (after moves).Ends p key (some outcome)) :
    Told p outcome moves ∨ outcome = .cancelled ∧ Aborted p moves := by
  obtain ⟨population, hp, rfl, hended⟩ := hend
  have haccounts := accounts_after moves hp
  rcases haccounts.ended outcome hended with ⟨hdoomed, hcancelled⟩ | ⟨-, hanswer⟩
  · exact Or.inr ⟨hcancelled, haccounts.doomed hdoomed⟩
  · exact haccounts.answered outcome hanswer

/-- With nothing left on the agenda, whatever has been told its answer has ended. -/
theorem Sound.not_running
    (hs : s.Sound) (hempty : s.agenda = []) {p : Nat} {population : Population κ ν}
    (hp : s.populations[p]? = some population) {answer : Outcome ν}
    (hanswer : population.answer = some answer) :
    population.outcome ≠ none := by
  intro hrunning
  have hstarted : population.started = true := by
    by_contra hnot
    have hnone := hs.linked.unstarted p population hp (Bool.not_eq_true _ ▸ hnot)
    rw [hanswer] at hnone
    contradiction
  have hdue : s.due (.resume p) = true := by simp [hp, hrunning, hstarted, hanswer]
  have hresume := hs.timely.mem_of_due hdue (by simp)
  rw [hempty] at hresume
  contradiction

/-- With nothing left on the agenda, a value that a population has been told is stored. -/
theorem Told.stored
    {p : Nat} {v : ν} {moves : List (Move κ ν)} (h : Told p (.value v) moves)
    (hfree : ¬Aborted p moves) (hempty : (after moves).agenda = []) :
    ∃ key, (after moves).Ends p key (some (.value v)) ∧ (after moves).peek? key = some v := by
  obtain ⟨population, hp, hanswer⟩ := h.answer_eq
  have hs := sound_after moves
  have haccounts := accounts_after moves hp
  obtain ⟨outcome, houtcome⟩ :=
    Option.ne_none_iff_exists'.mp (hs.not_running hempty hp hanswer)
  have hvalue : population.outcome = some (.value v) := by
    rcases haccounts.ended outcome houtcome with ⟨hdoomed, -⟩ | ⟨-, hsame⟩
    · exact absurd (haccounts.doomed hdoomed) hfree
    · rw [houtcome, ← hsame, hanswer]
  have hend : (after moves).Ends p population.key (some (.value v)) := ⟨population, hp, rfl, hvalue⟩
  refine ⟨population.key, hend, ?_⟩
  rcases hs.ledger.kept _ p v hend with hflight | hstored
  · have hsettle := hs.settle_mem hend hflight
    rw [hempty] at hsettle
    contradiction
  · exact hstored

/-! ## Single flight -/

/-- What a single flight promises after some moves. -/
structure Coalesces (moves : List (Move κ ν)) : Prop where
  /-- At most one population of a key is running. -/
  alone : ∀ key p q, (after moves).Ends p key none → (after moves).Ends q key none → p = q
  /-- A key in flight is not stored. -/
  apart : ∀ key p, (key, p) ∈ (after moves).inflight → (after moves).peek? key = none
  /-- Nor is it in flight once the store has taken up how its population ended. -/
  landed : ∀ key p outcome, (after moves).Ends p key (some outcome) →
    .settle p ∉ (after moves).agenda → (key, p) ∉ (after moves).inflight
  /-- A stored value never changes, and no population starts for its key. -/
  final : ∀ key v, (after moves).peek? key = some v → ∀ later,
    (after (later ++ moves)).peek? key = some v ∧ ∀ p outcome,
      (after (later ++ moves)).Ends p key outcome ↔ (after moves).Ends p key outcome
  /-- Only what a population has ended with is stored, and only if it is a value. -/
  fruitful : ∀ m key, (after (m :: moves)).peek? key ≠ (after moves).peek? key →
    ∃ place p v, m = .turn place ∧ (after moves).agenda[place]? = some (.settle p) ∧
      (after moves).Ends p key (some (.value v)) ∧ (after (m :: moves)).peek? key = some v
  /-- The first caller after a failure or a cancellation has been taken up starts a population. -/
  retried : ∀ place w waiter p outcome, (after moves).agenda[place]? = some (.ask w) →
    (after moves).waiters[w]? = some waiter → waiter.doomed = false →
    (after moves).Ends p waiter.key (some outcome) → value? (some outcome) = none →
    (∀ q o, (after moves).Ends q waiter.key o → q ≤ p) → .settle p ∉ (after moves).agenda →
      (after (.turn place :: moves)).populations =
        (after moves).populations.push { key := waiter.key, watchers := [w] }
  /-- Who has come to a population and has not been cancelled gets what it ends with. -/
  shared : ∀ w p, Shares w p moves → ¬Cancelled w moves →
    ∃ waiter outcome, (after moves).waiters[w]? = some waiter ∧
      (after moves).Ends p waiter.key outcome ∧
      (waiter.outcome = none ∨ waiter.outcome = outcome) ∧
      ((after moves).agenda = [] → waiter.outcome = outcome)
  /-- To cancel a waiter touches neither a population nor the store. -/
  shielded : ∀ w, (after (.cancel w :: moves)).populations = (after moves).populations ∧
    (after (.cancel w :: moves)).values = (after moves).values ∧
    (after (.cancel w :: moves)).inflight = (after moves).inflight
  /-- A population ends with what it has been told, or because it has itself been aborted. -/
  caused : ∀ p key outcome, (after moves).Ends p key (some outcome) →
    Told p outcome moves ∨ outcome = .cancelled ∧ Aborted p moves
  /-- A value that a population has been told is stored, whoever has been cancelled. -/
  kept : ∀ p v, Told p (.value v) moves → ¬Aborted p moves → (after moves).agenda = [] →
    ∃ key, (after moves).Ends p key (some (.value v)) ∧ (after moves).peek? key = some v
  /-- The agenda is worked off by turns. -/
  drained : ∃ turns : List (Move κ ν), (∀ m ∈ turns, m = .turn 0) ∧
    (after moves).quiesce = after (turns ++ moves) ∧ (after (turns ++ moves)).agenda = []

/-- A single flight keeps its promises in every interleaving of callers, cancellations, answers
and turns. -/
theorem coalesces_after (moves : List (Move κ ν)) :
    Coalesces moves := by
  have hs := sound_after moves
  constructor
  case alone =>
    intro key p q hp hq
    exact hs.ledger.eq_of_mem_inflight (hs.ledger.running key p hp) (hs.ledger.running key q hq)
  case apart => exact hs.ledger.apart
  case landed =>
    intro key p outcome hend hsettled hflight
    exact hsettled (hs.settle_mem hend hflight)
  case final =>
    intro key v hstored later
    exact stored_after hstored later
  case fruitful =>
    intro m key hchanged
    rcases (step_move hs m).peek?_cases hs key with hsame | ⟨-, hstored⟩
    · exact absurd hsame hchanged
    · exact hstored
  case retried =>
    intro place w waiter p outcome hask hw hfree hend hfailed hlatest hsettled
    exact (step_move hs (.turn place)).retry hs hask hw hfree hend hfailed hlatest hsettled
  case shared =>
    intro w p hshares hfree
    exact hshares.outcome_eq hfree
  case shielded => exact cancel_frame (after moves)
  case caused =>
    intro p key outcome hend
    exact hend.cause
  case kept =>
    intro p v htold hfree hempty
    exact htold.stored hfree hempty
  case drained => exact quiesce_after moves

end SolidWorkshop.Flight.State
