import Mathlib.Algebra.GroupWithZero.Nat
import SolidWorkshop.Proofs.Flight.Agenda

/-!
# Working off the agenda

Every turn does some of the work that is left, and none makes more.  So the turns come to an end,
whatever has happened before, and within the number of them that `quiesce` takes.
-/

namespace SolidWorkshop.Flight

/-! ## Adding up an array -/

section Total

variable {α : Type}

/-- What the entries of an array amount to together. -/
def total (f : α → Nat) (xs : Array α) : Nat :=
  (xs.toList.map f).sum

theorem total_setIfInBounds
    (f : α → Nat) {xs : Array α} {i : Nat} {old : α} (hold : xs[i]? = some old) (new : α) :
    total f (xs.setIfInBounds i new) + f old = total f xs + f new := by
  obtain ⟨hlt, rfl⟩ := Array.getElem?_eq_some_iff.mp hold
  have hlt' : i < xs.toList.length := by simpa using hlt
  have hnew : (xs.setIfInBounds i new).toList =
      xs.toList.take i ++ new :: xs.toList.drop (i + 1) := by
    rw [Array.toList_setIfInBounds, List.set_eq_take_append_cons_drop, if_pos hlt']
  have hxs : xs.toList.take i ++ xs[i] :: xs.toList.drop (i + 1) = xs.toList := by
    rw [← Array.getElem_toList, List.getElem_cons_drop, List.take_append_drop]
  have hsum := congrArg (fun entries => (entries.map f).sum) hxs
  simp only [List.map_append, List.map_cons, List.sum_append, List.sum_cons] at hsum
  simp only [total, hnew, List.map_append, List.map_cons, List.sum_append, List.sum_cons]
  omega

theorem total_push (f : α → Nat) (xs : Array α) (x : α) :
    total f (xs.push x) = total f xs + f x := by
  simp [total]

theorem total_le_total_add
    {f g : α → Nat} {bound : Nat} (hbound : ∀ x, f x ≤ g x + bound) (xs : Array α) :
    total f xs ≤ total g xs + bound * xs.size := by
  rw [total, total, ← Array.length_toList]
  induction xs.toList with
  | nil => simp
  | cons x rest ih =>
    have hx := hbound x
    simp only [List.map_cons, List.sum_cons, List.length_cons, Nat.mul_succ]
    omega

theorem total_le
    {f : α → Nat} {bound : Nat} (hbound : ∀ x, f x ≤ bound) (xs : Array α) :
    total f xs ≤ bound * xs.size := by
  have hzero : total (fun _ => 0) xs = 0 := by simp [total]
  have hle := total_le_total_add (g := fun _ => 0) (fun x => by simpa using hbound x) xs
  rwa [hzero, Nat.zero_add] at hle

end Total

/-- The turns that are still to come because of a waiter, those on the agenda apart. -/
def Waiter.rest {κ ν : Type} (waiter : Waiter κ ν) : Nat :=
  if waiter.outcome.isSome then 0
  else if waiter.joined.isNone then 4
  else if waiter.answer.isNone then 1
  else 0

/-- The turns that are still to come because of a population, those on the agenda apart. -/
def Population.rest {κ ν : Type} (population : Population κ ν) : Nat :=
  if population.outcome.isSome then 0 else population.watchers.length + 1

namespace State

variable {κ ν : Type} {s t : State κ ν}

/-- The turns that are still to come. -/
def rest (s : State κ ν) : Nat :=
  s.agenda.length + total Waiter.rest s.waiters + total Population.rest s.populations

/-- There are as many watchers as waiters who have joined. -/
def IsBalanced (s : State κ ν) : Prop :=
  total (·.watchers.length) s.populations = total (·.joined.isSome.toNat) s.waiters

variable [DecidableEq κ]

omit [DecidableEq κ] in
theorem IsBalanced.of_waiter
    (hs : s.IsBalanced) {w : Nat} {old waiter : Waiter κ ν} (hw : s.waiters[w]? = some old)
    (hwaiters : t.waiters = (s.setWaiter w waiter).waiters)
    (hpopulations : t.populations = s.populations) (hjoined : waiter.joined = old.joined) :
    t.IsBalanced := by
  have htotal := total_setIfInBounds (fun waiter => waiter.joined.isSome.toNat) hw waiter
  rw [hjoined] at htotal
  rw [IsBalanced, hpopulations, hwaiters]
  exact hs.trans (Nat.add_right_cancel htotal).symm

omit [DecidableEq κ] in
theorem IsBalanced.of_population
    (hs : s.IsBalanced) {p : Nat} {old population : Population κ ν}
    (hp : s.populations[p]? = some old)
    (hpopulations : t.populations = (s.setPopulation p population).populations)
    (hwaiters : t.waiters = s.waiters) (hwatchers : population.watchers = old.watchers) :
    t.IsBalanced := by
  have htotal := total_setIfInBounds (fun population => population.watchers.length) hp population
  rw [hwatchers] at htotal
  rw [IsBalanced, hpopulations, hwaiters]
  exact (Nat.add_right_cancel htotal).trans hs

theorem IsBalanced.step
    (hs : s.IsBalanced) {m : Move κ ν} (h : Step s m t) :
    t.IsBalanced := by
  cases h with
  | idle => exact hs
  | get => simpa [IsBalanced, total_push] using hs
  | withdraw hw | doomWaiter hw | serve _ hw | tell _ _ hw | wake _ hw =>
    exact hs.of_waiter hw rfl rfl rfl
  | answer hp | doomPopulation hp | populate _ hp | conclude _ hp =>
    exact hs.of_population hp rfl rfl rfl
  | @join w p waiter population _ _ _ hw _ hunjoined _ _ hp =>
    have hwaiters := total_setIfInBounds (fun waiter => waiter.joined.isSome.toNat) hw
      { waiter with joined := some p }
    have hpopulations := total_setIfInBounds (fun population => population.watchers.length) hp
      { population with watchers := population.watchers ++ [w] }
    simp only [hunjoined, List.length_append, List.length_singleton,
      Option.isSome_none, Option.isSome_some, Bool.toNat_true,
      Bool.toNat_false] at hwaiters hpopulations
    simp only [IsBalanced, setWaiter, setPopulation] at hs ⊢
    omega
  | @start w waiter _ _ _ hw _ hunjoined =>
    have hwaiters := total_setIfInBounds (fun waiter => waiter.joined.isSome.toNat) hw
      { waiter with joined := some s.populations.size }
    simp only [hunjoined, Option.isSome_none, Option.isSome_some, Bool.toNat_true,
      Bool.toNat_false] at hwaiters
    simp only [IsBalanced, setWaiter, total_push, List.length_singleton] at hs ⊢
    omega
  | settle =>
    rw [settleTurn_eq]
    exact hs
  | passBy => exact hs

omit [DecidableEq κ] in
theorem length_agenda
    {before later : List Event} {event : Event} (hagenda : s.agenda = before ++ event :: later) :
    s.agenda.length = before.length + later.length + 1 := by
  rw [hagenda, List.length_append, List.length_cons, Nat.add_assoc]

section Turn

variable {before later : List Event}

omit [DecidableEq κ]

theorem rest_serve_lt
    {w : Nat} {waiter : Waiter κ ν} (hagenda : s.agenda = before ++ .ask w :: later)
    (hw : s.waiters[w]? = some waiter) (hopen : waiter.outcome = none)
    (hunjoined : waiter.joined = none) (outcome : Outcome ν) :
    ({ s with agenda := before ++ later }.setWaiter w
      { waiter with outcome := some outcome }).rest < s.rest := by
  have hlength := length_agenda hagenda
  have hwaiters := total_setIfInBounds Waiter.rest hw { waiter with outcome := some outcome }
  have hold : waiter.rest = 4 := by simp [Waiter.rest, hopen, hunjoined]
  have hnew : Waiter.rest { waiter with outcome := some outcome } = 0 := rfl
  simp only [rest, setWaiter, List.length_append]
  omega

theorem rest_join_lt
    {w p : Nat} {waiter : Waiter κ ν} {population : Population κ ν}
    (hagenda : s.agenda = before ++ .ask w :: later) (hw : s.waiters[w]? = some waiter)
    (hopen : waiter.outcome = none) (hunjoined : waiter.joined = none)
    (hanswer : waiter.answer = none) (hp : s.populations[p]? = some population)
    (hrunning : population.outcome = none) :
    (({ s with agenda := before ++ later }.setWaiter w
      { waiter with joined := some p }).setPopulation p { population with watchers := population.watchers ++ [w] }).rest < s.rest := by
  have hlength := length_agenda hagenda
  have hwaiters := total_setIfInBounds Waiter.rest hw { waiter with joined := some p }
  have hpopulations := total_setIfInBounds Population.rest hp
    { population with watchers := population.watchers ++ [w] }
  have hold : waiter.rest = 4 := by simp [Waiter.rest, hopen, hunjoined]
  have hnew : Waiter.rest { waiter with joined := some p } = 1 := by
    simp [Waiter.rest, hopen, hanswer]
  have hgrown : Population.rest { population with watchers := population.watchers ++ [w] } =
      population.rest + 1 := by
    simp [Population.rest, hrunning]
  simp only [rest, setWaiter, setPopulation, List.length_append]
  omega

theorem rest_start_lt
    {w : Nat} {waiter : Waiter κ ν} (hagenda : s.agenda = before ++ .ask w :: later)
    (hw : s.waiters[w]? = some waiter) (hopen : waiter.outcome = none)
    (hunjoined : waiter.joined = none) (hanswer : waiter.answer = none) :
    rest { s.setWaiter w { waiter with joined := some s.populations.size } with
      inflight := s.inflight ++ [(waiter.key, s.populations.size)]
      populations := s.populations.push { key := waiter.key, watchers := [w] }
      agenda := before ++ later ++ [.populate s.populations.size] } < s.rest := by
  have hlength := length_agenda hagenda
  have hwaiters := total_setIfInBounds Waiter.rest hw
    { waiter with joined := some s.populations.size }
  have hold : waiter.rest = 4 := by simp [Waiter.rest, hopen, hunjoined]
  have hnew : Waiter.rest { waiter with joined := some s.populations.size } = 1 := by
    simp [Waiter.rest, hopen, hanswer]
  have hborn : Population.rest ({ key := waiter.key, watchers := [w] } : Population κ ν) = 2 :=
    rfl
  simp only [rest, setWaiter, total_push, List.length_append, List.length_singleton]
  omega

theorem rest_populate_lt
    {p : Nat} {population : Population κ ν} (hagenda : s.agenda = before ++ .populate p :: later)
    (hp : s.populations[p]? = some population) :
    ({ s with agenda := before ++ later }.setPopulation p
      { population with started := true }).rest < s.rest := by
  have hlength := length_agenda hagenda
  have hpopulations := total_setIfInBounds Population.rest hp { population with started := true }
  have hsame : Population.rest { population with started := true } = population.rest := rfl
  simp only [rest, setPopulation, List.length_append]
  omega

theorem rest_conclude_lt
    {p : Nat} {population : Population κ ν} {event : Event}
    (hagenda : s.agenda = before ++ event :: later) (hp : s.populations[p]? = some population)
    (hrunning : population.outcome = none) (outcome : Outcome ν) :
    ({ s with agenda := before ++ later }.endPopulation p population outcome).rest < s.rest := by
  have hlength := length_agenda hagenda
  have hpopulations := total_setIfInBounds Population.rest hp
    { population with outcome := some outcome }
  have hold : population.rest = population.watchers.length + 1 := by
    simp [Population.rest, hrunning]
  have hnew : Population.rest { population with outcome := some outcome } = 0 := rfl
  simp only [rest, endPopulation, plan, setPopulation, List.length_append, List.length_cons,
    List.length_map]
  omega

theorem rest_settle_lt
    [DecidableEq κ] {p : Nat} (hagenda : s.agenda = before ++ .settle p :: later)
    (population : Population κ ν) :
    ({ s with agenda := before ++ later }.settleTurn p population).rest < s.rest := by
  have hlength := length_agenda hagenda
  simp only [settleTurn_eq, rest, List.length_append]
  omega

theorem rest_tell_lt
    {p w : Nat} {waiter : Waiter κ ν} (hagenda : s.agenda = before ++ .tell p w :: later)
    (hw : s.waiters[w]? = some waiter) (hopen : waiter.outcome = none)
    (hjoined : waiter.joined = some p) (hanswer : waiter.answer = none) (outcome : Outcome ν) :
    (({ s with agenda := before ++ later }.setWaiter w
      { waiter with answer := some outcome }).plan [.wake w]).rest < s.rest := by
  have hlength := length_agenda hagenda
  have hwaiters := total_setIfInBounds Waiter.rest hw { waiter with answer := some outcome }
  have hold : waiter.rest = 1 := by simp [Waiter.rest, hopen, hjoined, hanswer]
  have hnew : Waiter.rest { waiter with answer := some outcome } = 0 := by
    simp [Waiter.rest, hopen, hjoined]
  simp only [rest, setWaiter, plan, List.length_append, List.length_singleton]
  omega

theorem rest_passBy_lt
    {event : Event} (hagenda : s.agenda = before ++ event :: later) :
    rest { s with agenda := before ++ later } < s.rest := by
  have hlength := length_agenda hagenda
  simp only [rest, List.length_append]
  omega

theorem rest_wake_lt
    {w : Nat} {waiter : Waiter κ ν} (hagenda : s.agenda = before ++ .wake w :: later)
    (hw : s.waiters[w]? = some waiter) (outcome : Outcome ν) :
    ({ s with agenda := before ++ later }.setWaiter w
      { waiter with outcome := some outcome }).rest < s.rest := by
  have hlength := length_agenda hagenda
  have hwaiters := total_setIfInBounds Waiter.rest hw { waiter with outcome := some outcome }
  have hnew : Waiter.rest { waiter with outcome := some outcome } = 0 := rfl
  simp only [rest, setWaiter, List.length_append]
  omega

end Turn

/-- A turn lowers what is left to do: it takes one entry of the agenda, and the entries that come
are paid for by whom they come from. -/
theorem rest_lt
    (hs : s.Sound) {place : Nat} (hplace : place < s.agenda.length)
    (h : Step s (.turn place) t) :
    t.rest < s.rest := by
  cases h with
  | idle _ hturn =>
    have hnone := hturn place rfl
    rw [List.getElem?_eq_none_iff] at hnone
    exact absurd hplace (Nat.not_lt.mpr hnone)
  | answer _ _ _ _ hm =>
    rcases hm with ⟨hm, -⟩ | ⟨hm, -⟩
    · contradiction
    · contradiction
  | serve hagenda hw hopen hunjoined _ => exact rest_serve_lt hagenda hw hopen hunjoined _
  | join hagenda hw hopen hunjoined _ _ hp hrunning =>
    exact rest_join_lt hagenda hw hopen hunjoined (hs.linked.unjoined _ _ hw hunjoined) hp hrunning
  | start hagenda hw hopen hunjoined _ _ _ =>
    exact rest_start_lt hagenda hw hopen hunjoined (hs.linked.unjoined _ _ hw hunjoined)
  | populate hagenda hp _ _ => exact rest_populate_lt hagenda hp
  | conclude hagenda hp hrunning _ => exact rest_conclude_lt hagenda hp hrunning _
  | settle hagenda _ _ _ => exact rest_settle_lt hagenda _
  | tell hagenda _ hw hjoined hanswer =>
    exact rest_tell_lt hagenda hw (hs.linked.waits _ _ _ hw hjoined hanswer) hjoined hanswer _
  | passBy hagenda _ _ => exact rest_passBy_lt hagenda
  | wake hagenda hw _ _ => exact rest_wake_lt hagenda hw _

theorem isBalanced_after (moves : List (Move κ ν)) :
    (after moves).IsBalanced := by
  induction moves with
  | nil => rfl
  | cons m earlier ih => exact ih.step (step_move (sound_after earlier) m)

omit [DecidableEq κ] in
/-- What is left to do is within the number of turns that `quiesce` takes. -/
theorem rest_le
    (hs : s.IsBalanced) :
    s.rest ≤ s.agenda.length + 16 * (s.waiters.size + s.populations.size) + 16 := by
  have hwaiters : total Waiter.rest s.waiters ≤ 4 * s.waiters.size := by
    apply total_le
    intro waiter
    unfold Waiter.rest
    split_ifs <;> omega
  have hjoined : total (·.joined.isSome.toNat) s.waiters ≤ 1 * s.waiters.size := by
    apply total_le
    intro waiter
    exact Bool.toNat_le _
  have hpopulations : total Population.rest s.populations ≤
      total (·.watchers.length) s.populations + 1 * s.populations.size := by
    apply total_le_total_add
    intro population
    unfold Population.rest
    split_ifs <;> omega
  unfold IsBalanced at hs
  unfold rest
  omega

/-! ## Until nothing is left to do -/

theorem rest_turn_lt
    (hs : s.Sound) (hagenda : s.agenda ≠ []) :
    s.turn.rest < s.rest := by
  have hstep := step_move hs (.turn 0)
  rw [turn_eq_move]
  exact rest_lt hs (List.length_pos_iff.mpr hagenda) hstep

/-- Within the turns that are left to do the agenda is worked off. -/
theorem settleWithin_after
    (fuel : Nat) (moves : List (Move κ ν)) (hfuel : (after moves).rest ≤ fuel) :
    ∃ turns : List (Move κ ν), (∀ m ∈ turns, m = .turn 0) ∧
      settleWithin fuel (after moves) = after (turns ++ moves) ∧
      (after (turns ++ moves)).agenda = [] := by
  induction fuel generalizing moves with
  | zero =>
    have hempty : (after moves).agenda = [] := by
      apply List.eq_nil_of_length_eq_zero
      unfold rest at hfuel
      omega
    exact ⟨[], nofun, rfl, hempty⟩
  | succ fuel ih =>
    unfold settleWithin
    by_cases hempty : (after moves).agenda = []
    · exact ⟨[], nofun, by simp [hempty], hempty⟩
    · have hlower := rest_turn_lt (sound_after moves) hempty
      have hturn : (after moves).turn = after (.turn 0 :: moves) := turn_eq_move _
      rw [if_neg (by simpa using hempty), hturn]
      rw [hturn] at hlower
      obtain ⟨turns, hturns, hsame, hdone⟩ := ih (.turn 0 :: moves) (by omega)
      refine ⟨turns ++ [.turn 0], ?_, ?_, ?_⟩
      · intro m hm
        rcases List.mem_append.mp hm with hm | hm
        · exact hturns m hm
        · exact List.mem_singleton.mp hm
      · simpa using hsame
      · simpa using hdone

/-- The turns come to an end, and nothing is left on the agenda. -/
theorem quiesce_after (moves : List (Move κ ν)) :
    ∃ turns : List (Move κ ν), (∀ m ∈ turns, m = .turn 0) ∧
      (after moves).quiesce = after (turns ++ moves) ∧ (after (turns ++ moves)).agenda = [] := by
  exact settleWithin_after _ moves (rest_le (isBalanced_after moves))

end State

end SolidWorkshop.Flight
