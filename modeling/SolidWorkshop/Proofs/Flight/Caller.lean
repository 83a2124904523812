import Mathlib.Logic.Function.Iterate
import SolidWorkshop.Proofs.Flight.Ledger

/-!
# A single caller

When nobody is at work on a key and nothing is stored under it, a single caller starts a
population, which is told its answer; the caller gets this answer.  A value is stored, and after
any other answer the key is as free as it was.
-/

namespace SolidWorkshop.Flight.State

variable {κ ν : Type} [DecidableEq κ] {s : State κ ν} {key : κ}

/-- Nothing is left to do, no value is stored under the key, and no population of it is under
way. -/
structure IsVacant (s : State κ ν) (key : κ) : Prop where
  idle : s.agenda = []
  unknown : s.peek? key = none
  landed : s.inflight.lookup key = none
  ended : ∀ (p : Nat) (population : Population κ ν), s.populations[p]? = some population →
    population.key = key → population.outcome.isSome = true

theorem isVacant_empty (key : κ) : ({} : State κ ν).IsVacant key where
  idle := rfl
  unknown := rfl
  landed := rfl
  ended := fun p _ hp => absurd hp (by simp)

/-! ## Turns -/

theorem turn_cons
    {event : Event} {rest : List Event} (h : s.agenda = event :: rest) :
    s.turn = { s with agenda := rest }.perform event := by
  rw [turn, h]

theorem settleWithin_eq_iterate (fuel : Nat) (s : State κ ν) :
    settleWithin fuel s = turn^[fuel] s := by
  induction fuel generalizing s with
  | zero => rfl
  | succ fuel ih =>
    rw [settleWithin, Function.iterate_succ_apply]
    split_ifs with hempty
    · have hidle : s.turn = s := by rw [turn, List.isEmpty_iff.mp hempty]
      rw [hidle, Function.iterate_fixed hidle]
    · exact ih s.turn

/-- A few turns are enough if nothing is left to do after them. -/
theorem quiesce_eq_of_iterate
    {t : State κ ν} {n : Nat} (hn : n ≤ 16) (h : turn^[n] s = t) (hidle : t.agenda = []) :
    s.quiesce = t := by
  have hstays : t.turn = t := by rw [turn, hidle]
  obtain ⟨more, hmore⟩ := Nat.exists_eq_add_of_le (Nat.le_trans hn
    (Nat.le_add_left 16 (s.agenda.length + 16 * (s.waiters.size + s.populations.size))))
  rw [quiesce, settleWithin_eq_iterate, hmore, Nat.add_comm, Function.iterate_add_apply, h,
    Function.iterate_fixed hstays]

/-! ## One caller -/

/-- The state with one more waiter and one more population, which is in flight. -/
def withCaller (s : State κ ν) (waiter : Waiter κ ν) (population : Population κ ν)
    (agenda : List Event) : State κ ν :=
  { s with
    waiters := s.waiters.push waiter
    populations := s.populations.push population
    inflight := s.inflight ++ [(population.key, s.populations.size)]
    agenda }

theorem setIfInBounds_push_size {α : Type} (xs : Array α) (x y : α) :
    (xs.push x).setIfInBounds xs.size y = xs.push y := by
  apply Array.ext_getElem?
  intro i
  by_cases hi : i = xs.size
  · simp [hi]
  · rw [Array.getElem?_setIfInBounds, if_neg (Ne.symm hi), Array.getElem?_push,
      Array.getElem?_push, if_neg hi, if_neg hi]

section WithCaller

variable {waiter : Waiter κ ν} {population : Population κ ν} {agenda : List Event}

omit [DecidableEq κ] in
theorem setPopulation_withCaller
    {next : Population κ ν} (hkey : next.key = population.key) :
    (s.withCaller waiter population agenda).setPopulation s.populations.size next =
      s.withCaller waiter next agenda := by
  simp only [setPopulation, withCaller, setIfInBounds_push_size, hkey]

omit [DecidableEq κ] in
theorem getElem?_waiters_withCaller :
    (s.withCaller waiter population agenda).waiters[s.waiters.size]? = some waiter :=
  Array.getElem?_push_size

omit [DecidableEq κ] in
theorem getElem?_populations_withCaller :
    (s.withCaller waiter population agenda).populations[s.populations.size]? = some population :=
  Array.getElem?_push_size

theorem turn_withCaller (event : Event) :
    (s.withCaller waiter population (event :: agenda)).turn =
      (s.withCaller waiter population agenda).perform event := rfl

end WithCaller

/-- In its first turn the caller starts a population. -/
theorem IsVacant.turn_ask
    (h : s.IsVacant key) :
    (s.ask key).1.turn =
      s.withCaller { key, joined := some s.populations.size }
        { key, watchers := [s.waiters.size] } [.populate s.populations.size] := by
  have hagenda : (s.ask key).1.agenda = [.ask s.waiters.size] := by
    change s.agenda ++ _ = _
    rw [h.idle, List.nil_append]
  have hunknown := h.unknown
  have hlanded := h.landed
  rw [turn_cons hagenda]
  simp only [perform, ask, plan, Array.getElem?_push_size, Option.elim_some, askTurn, peek?,
    setWaiter, setIfInBounds_push_size] at hunknown ⊢
  rw [hunknown, hlanded]
  rfl

theorem turn_populate
    {waiter : Waiter κ ν} {population : Population κ ν} (hfree : population.doomed = false) :
    (s.withCaller waiter population [.populate s.populations.size]).turn =
      s.withCaller waiter { population with started := true } [] := by
  rw [turn_withCaller, perform, getElem?_populations_withCaller, Option.elim_some, populateTurn,
    hfree, if_neg Bool.false_ne_true]
  exact setPopulation_withCaller rfl

/-- The population is the only one that is open. -/
theorem IsVacant.open?_withCaller
    (h : s.IsVacant key) {waiter : Waiter κ ν} {population : Population κ ν} {agenda : List Event}
    (hkey : population.key = key) (hstarted : population.started = true)
    (hanswer : population.answer = none) (houtcome : population.outcome = none) :
    (s.withCaller waiter population agenda).open? key = some s.populations.size := by
  refine Array.findIdx?_eq_some_iff_getElem.mpr ⟨?_, ?_, ?_⟩
  · simp [withCaller]
  · simp [withCaller, hkey, hstarted, hanswer, houtcome]
  · intro p hp
    have hget : (s.withCaller waiter population agenda).populations[p]? =
        some s.populations[p] := by
      rw [withCaller, Array.getElem?_push_lt]
    obtain ⟨hlt, hsame⟩ := Array.getElem?_eq_some_iff.mp hget
    rw [hsame]
    by_cases hpkey : s.populations[p].key = key
    · have hended := h.ended p _ (Array.getElem?_eq_getElem hp) hpkey
      simp [Option.isSome_iff_ne_none.mp hended]
    · simp [hpkey]

theorem turn_resume
    {waiter : Waiter κ ν} {population : Population κ ν} {answer : Outcome ν}
    (hanswer : population.answer = some answer) (hfree : population.doomed = false) :
    (s.withCaller waiter population [.resume s.populations.size]).turn =
      s.withCaller waiter { population with outcome := some answer }
        (.settle s.populations.size :: population.watchers.map (.tell s.populations.size)) := by
  have hresume : (s.withCaller waiter population []).resumeTurn s.populations.size population =
      (s.withCaller waiter population []).endPopulation s.populations.size population answer := by
    rw [resumeTurn, hanswer]
    dsimp only
    rw [hfree, if_neg Bool.false_ne_true]
  have hset : (s.withCaller waiter population []).setPopulation s.populations.size
      { population with outcome := some answer } =
      s.withCaller waiter { population with outcome := some answer } [] :=
    setPopulation_withCaller rfl
  rw [turn_withCaller, perform, getElem?_populations_withCaller, Option.elim_some, hresume,
    endPopulation, hset]
  rfl

/-- The state after the store has taken up how the population ended. -/
def landed (s : State κ ν) (waiter : Waiter κ ν) (population : Population κ ν)
    (agenda : List Event) : State κ ν :=
  { s.withCaller waiter population agenda with
    values := (value? population.outcome).elim s.values fun v => store population.key v s.values
    inflight := (s.inflight ++ [(population.key, s.populations.size)]).filter fun entry =>
      entry != (population.key, s.populations.size) }

theorem turn_settle
    {waiter : Waiter κ ν} {population : Population κ ν} {rest : List Event} :
    (s.withCaller waiter population (.settle s.populations.size :: rest)).turn =
      s.landed waiter population rest := by
  rw [turn_withCaller, perform, getElem?_populations_withCaller, Option.elim_some, settleTurn,
    landed]
  cases hvalue : population.outcome with
  | none => rfl
  | some outcome =>
    cases outcome with
    | value v => rfl
    | failure cause => rfl
    | cancelled => rfl

theorem setWaiter_landed
    {waiter : Waiter κ ν} {population : Population κ ν} {agenda : List Event}
    (next : Waiter κ ν) :
    (s.landed waiter population agenda).setWaiter s.waiters.size next =
      s.landed next population agenda := by
  simp only [setWaiter, landed, withCaller, setIfInBounds_push_size]

theorem turn_tell
    {waiter : Waiter κ ν} {population : Population κ ν} {answer : Outcome ν}
    (houtcome : population.outcome = some answer) (hanswer : waiter.answer = none) :
    (s.landed waiter population [.tell s.populations.size s.waiters.size]).turn =
      s.landed { waiter with answer := some answer } population [.wake s.waiters.size] := by
  have hturn : (s.landed waiter population [.tell s.populations.size s.waiters.size]).turn =
      (s.landed waiter population []).perform (.tell s.populations.size s.waiters.size) := rfl
  have hwaiter : (s.landed waiter population []).waiters[s.waiters.size]? = some waiter :=
    Array.getElem?_push_size
  have hpopulation : (s.landed waiter population []).populations[s.populations.size]? =
      some population := Array.getElem?_push_size
  rw [hturn, perform, hwaiter, hpopulation, Option.elim_some, Option.bind_some, houtcome,
    tellTurn, hanswer, Option.isSome_none, if_neg Bool.false_ne_true, setWaiter_landed]
  rfl

theorem turn_wake
    {waiter : Waiter κ ν} {population : Population κ ν} (hfree : waiter.doomed = false) :
    (s.landed waiter population [.wake s.waiters.size]).turn =
      s.landed { waiter with outcome := waiter.answer } population [] := by
  have hturn : (s.landed waiter population [.wake s.waiters.size]).turn =
      (s.landed waiter population []).perform (.wake s.waiters.size) := rfl
  have hwaiter : (s.landed waiter population []).waiters[s.waiters.size]? = some waiter :=
    Array.getElem?_push_size
  rw [hturn, perform, hwaiter, Option.elim_some, wakeTurn, hfree, if_neg Bool.false_ne_true,
    setWaiter_landed]

/-! ## From the question to the answer -/

theorem IsVacant.iterate_turn_ask
    (h : s.IsVacant key) :
    turn^[2] (s.ask key).1 =
      s.withCaller { key, joined := some s.populations.size }
        { key, started := true, watchers := [s.waiters.size] } [] := by
  rw [Function.iterate_succ_apply, Function.iterate_one, h.turn_ask, turn_populate rfl]

/-- The caller's question is taken up until its population waits to be told. -/
theorem IsVacant.quiesce_ask
    (h : s.IsVacant key) :
    (s.ask key).1.quiesce =
      s.withCaller { key, joined := some s.populations.size }
        { key, started := true, watchers := [s.waiters.size] } [] :=
  quiesce_eq_of_iterate (by decide) h.iterate_turn_ask rfl

theorem iterate_turn_answer (s : State κ ν) (key : κ) (answer : Outcome ν) :
    turn^[4] (s.withCaller { key, joined := some s.populations.size }
      { key, started := true, answer := some answer, watchers := [s.waiters.size] }
      [.resume s.populations.size]) =
      s.landed
        { key, joined := some s.populations.size, answer := some answer, outcome := some answer }
        { key, started := true, answer := some answer, outcome := some answer,
          watchers := [s.waiters.size] } [] := by
  rw [Function.iterate_succ_apply, Function.iterate_succ_apply, Function.iterate_succ_apply,
    Function.iterate_one, turn_resume rfl rfl, turn_settle]
  exact (congrArg turn (turn_tell rfl rfl)).trans (turn_wake rfl)

/-- Once it is told its answer, the population ends with it, and so does the caller's wait. -/
theorem quiesce_answer (s : State κ ν) (key : κ) (answer : Outcome ν) :
    (s.withCaller { key, joined := some s.populations.size }
      { key, started := true, answer := some answer, watchers := [s.waiters.size] }
      [.resume s.populations.size]).quiesce =
      s.landed
        { key, joined := some s.populations.size, answer := some answer, outcome := some answer }
        { key, started := true, answer := some answer, outcome := some answer,
          watchers := [s.waiters.size] } [] :=
  quiesce_eq_of_iterate (by decide) (iterate_turn_answer s key answer) rfl

/-- The population that was started is the one that is told the answer. -/
theorem IsVacant.answer?_withCaller
    (h : s.IsVacant key) (waiter : Waiter κ ν) (watchers : List Nat) (answer : Outcome ν) :
    (s.withCaller waiter { key, started := true, watchers } []).answer? key answer =
      some (s.withCaller waiter { key, started := true, answer := some answer, watchers }
        [.resume s.populations.size]) := by
  have hset : (s.withCaller waiter { key, started := true, watchers } []).setPopulation
      s.populations.size { key, started := true, answer := some answer, watchers } =
      s.withCaller waiter { key, started := true, answer := some answer, watchers } [] :=
    setPopulation_withCaller rfl
  rw [answer?, h.open?_withCaller rfl rfl rfl rfl, Option.bind_eq_bind, Option.bind_some,
    getElem?_populations_withCaller, Option.bind_eq_bind, Option.bind_some, hset]
  rfl

/-- What is stored under the key is the value that its population ended with. -/
theorem IsVacant.peek?_landed
    (h : s.IsVacant key) {waiter : Waiter κ ν} {population : Population κ ν} {agenda : List Event}
    (hkey : population.key = key) :
    (s.landed waiter population agenda).peek? key = value? population.outcome := by
  rw [peek?, State.landed, hkey]
  cases value? population.outcome with
  | none => exact h.unknown
  | some v => exact (lookup_store s.values key v key).trans (if_pos rfl)

/-- If there is no value, the key is as vacant as before. -/
theorem IsVacant.isVacant_landed
    (h : s.IsVacant key) {waiter : Waiter κ ν} {population : Population κ ν}
    (hkey : population.key = key) (hended : population.outcome.isSome = true)
    (hvalue : value? population.outcome = none) :
    (s.landed waiter population []).IsVacant key where
  idle := rfl
  unknown := (h.peek?_landed hkey).trans hvalue
  landed := by
    rw [List.lookup_eq_none_iff]
    intro entry hentry
    obtain ⟨hmem, hother⟩ := List.mem_filter.mp hentry
    rcases List.mem_append.mp hmem with hmem | hmem
    · exact List.lookup_eq_none_iff.mp h.landed entry hmem
    · rw [List.mem_singleton.mp hmem, bne_self_eq_false] at hother
      contradiction
  ended := by
    intro p other hp hother
    rcases eq_or_ne p s.populations.size with rfl | hne
    · have hnew : (s.landed waiter population []).populations[s.populations.size]? =
          some population := Array.getElem?_push_size
      obtain rfl := Option.some.inj (hnew.symm.trans hp)
      exact hended
    · have hold : (s.landed waiter population []).populations[p]? = s.populations[p]? :=
        Array.getElem?_push.trans (if_neg hne)
      exact h.ended p other (hold.symm.trans hp) hother

/-- A single caller of a vacant key gets what its population is told.  A value is stored, and
after anything else the key is as vacant as before. -/
theorem IsVacant.share_cases
    (h : s.IsVacant key) (answer : Outcome ν) :
    ∃ t, s.share key 1 answer = (t, [some answer]) ∧ t.peek? key = value? (some answer) ∧
      (value? (some answer) = none → t.IsVacant key) := by
  have hasked : (Nat.repeat (fun s : State κ ν => (s.ask key).1) 1 s).quiesce =
      s.withCaller { key, joined := some s.populations.size }
        { key, started := true, watchers := [s.waiters.size] } [] := h.quiesce_ask
  refine ⟨s.landed
    { key, joined := some s.populations.size, answer := some answer, outcome := some answer }
    { key, started := true, answer := some answer, outcome := some answer,
      watchers := [s.waiters.size] } [], ?_, h.peek?_landed rfl,
    fun hvalue => h.isVacant_landed rfl rfl hvalue⟩
  rw [share, hasked, h.answer?_withCaller]
  dsimp only
  rw [quiesce_answer, List.range_one, List.map_singleton, Nat.add_zero, State.landed,
    getElem?_waiters_withCaller]
  rfl

/-! ## The same by moves -/

theorem after_turns (n : Nat) (moves : List (Move κ ν)) :
    after (List.replicate n (.turn 0) ++ moves) = turn^[n] (after moves) := by
  induction n with
  | zero => rfl
  | succ n ih =>
    rw [Function.iterate_succ_apply', ← ih, List.replicate_succ, List.cons_append, turn_eq_move]
    rfl

/-- What happens to a vacant key from the question of a caller to its answer, the latest first. -/
def answering (key : κ) (answer : Outcome ν) : List (Move κ ν) :=
  List.replicate 4 (.turn 0) ++ .finish key answer :: List.replicate 2 (.turn 0) ++ [.get key]

theorem IsVacant.after_answering
    {moves : List (Move κ ν)} (h : (after moves).IsVacant key) (answer : Outcome ν) :
    after (answering key answer ++ moves) = (after moves).landed
      { key, joined := some (after moves).populations.size, answer := some answer,
        outcome := some answer }
      { key, started := true, answer := some answer, outcome := some answer,
        watchers := [(after moves).waiters.size] } [] := by
  have hasked : after (List.replicate 2 (.turn 0) ++ .get key :: moves) = _ :=
    (after_turns 2 _).trans h.iterate_turn_ask
  have hanswered : after (.finish key answer :: (List.replicate 2 (.turn 0) ++ .get key :: moves)) =
      (after moves).withCaller { key, joined := some (after moves).populations.size }
        { key, started := true, answer := some answer, watchers := [(after moves).waiters.size] }
        [.resume (after moves).populations.size] := by
    rw [after, hasked, move, h.answer?_withCaller]
    rfl
  rw [← iterate_turn_answer, ← hanswered, ← after_turns]
  simp [answering]

end SolidWorkshop.Flight.State
