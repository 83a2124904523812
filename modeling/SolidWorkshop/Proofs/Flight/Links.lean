import SolidWorkshop.Proofs.Flight.Move

/-!
# Waiters and populations

A waiter that has joined a population is among its watchers as long as the population runs, and
every watcher has joined.  All moves keep it that way.
-/

namespace SolidWorkshop.Flight.State

variable {κ ν : Type} {s t : State κ ν}

/-! ## Changing one waiter or one population -/

theorem getElem?_setWaiter
    {w : Nat} {old : Waiter κ ν} (hw : s.waiters[w]? = some old) (waiter : Waiter κ ν) (v : Nat) :
    (s.setWaiter w waiter).waiters[v]? = if w = v then some waiter else s.waiters[v]? := by
  obtain ⟨hlt, -⟩ := Array.getElem?_eq_some_iff.mp hw
  simp only [setWaiter, Array.getElem?_setIfInBounds, hlt, if_true]

theorem getElem?_setPopulation
    {p : Nat} {old : Population κ ν} (hp : s.populations[p]? = some old)
    (population : Population κ ν) (q : Nat) :
    (s.setPopulation p population).populations[q]? =
      if p = q then some population else s.populations[q]? := by
  obtain ⟨hlt, -⟩ := Array.getElem?_eq_some_iff.mp hp
  simp only [setPopulation, Array.getElem?_setIfInBounds, hlt, if_true]

theorem getElem?_push_eq_some_iff
    {α : Type} {xs : Array α} {x y : α} {i : Nat} :
    (xs.push x)[i]? = some y ↔ xs[i]? = some y ∨ i = xs.size ∧ x = y := by
  rw [Array.getElem?_push]
  split_ifs with hi
  · simp [hi]
  · simp [hi]

@[simp] theorem setWaiter_agenda (s : State κ ν) (w : Nat) (waiter : Waiter κ ν) :
    (s.setWaiter w waiter).agenda = s.agenda := rfl

@[simp] theorem setPopulation_agenda (s : State κ ν) (p : Nat) (population : Population κ ν) :
    (s.setPopulation p population).agenda = s.agenda := rfl

@[simp] theorem plan_agenda (s : State κ ν) (events : List Event) :
    (s.plan events).agenda = s.agenda ++ events := rfl

/-! ## How populations ended -/

theorem ends_iff
    {p : Nat} {population : Population κ ν} (hp : s.populations[p]? = some population) {key : κ}
    {outcome : Option (Outcome ν)} :
    s.Ends p key outcome ↔ population.key = key ∧ population.outcome = outcome := by
  simp [Ends, hp]

theorem Ends.unique
    {p : Nat} {key key' : κ} {outcome outcome' : Option (Outcome ν)} (h : s.Ends p key outcome)
    (h' : s.Ends p key' outcome') :
    key = key' ∧ outcome = outcome' := by
  obtain ⟨population, hp, rfl, rfl⟩ := h
  exact (ends_iff hp).mp h'

theorem ends_setPopulation_iff
    {p : Nat} {old population : Population κ ν} (hp : s.populations[p]? = some old) {q : Nat}
    {key : κ} {outcome : Option (Outcome ν)} :
    (s.setPopulation p population).Ends q key outcome ↔
      if p = q then population.key = key ∧ population.outcome = outcome
      else s.Ends q key outcome := by
  unfold Ends
  rw [getElem?_setPopulation hp]
  split_ifs
  · simp
  · rfl

theorem ends_of_populations
    (h : t.populations = s.populations) (p : Nat) (key : κ) (outcome : Option (Outcome ν)) :
    t.Ends p key outcome ↔ s.Ends p key outcome := by
  rw [Ends, h, Ends]

/-! ## Links -/

/-- A waiter changes, but not whom it waits for. -/
theorem Linked.of_waiter
    (hs : s.Linked) {w : Nat} {old waiter : Waiter κ ν} (hw : s.waiters[w]? = some old)
    (hwaiters : t.waiters = (s.setWaiter w waiter).waiters)
    (hpopulations : t.populations = s.populations) (hkey : waiter.key = old.key)
    (hjoined : waiter.joined = old.joined) (hanswer : waiter.joined = none → waiter.answer = none)
    (hwaits : ∀ p, waiter.joined = some p → waiter.answer = none → waiter.outcome = none) :
    t.Linked := by
  have hget : ∀ v, t.waiters[v]? = if w = v then some waiter else s.waiters[v]? := by
    intro v
    rw [hwaiters, getElem?_setWaiter hw]
  constructor
  · rw [hpopulations]
    exact hs.unstarted
  · intro v other hv hnone
    rw [hget] at hv
    split_ifs at hv
    · obtain rfl := Option.some.inj hv
      exact hanswer hnone
    · exact hs.unjoined v other hv hnone
  · intro v other p hv
    rw [hget] at hv
    split_ifs at hv
    · obtain rfl := Option.some.inj hv
      exact hwaits p
    · exact hs.waits v other p hv
  · intro v other p hv hp
    rw [hpopulations]
    rw [hget] at hv
    split_ifs at hv with hsame
    · obtain rfl := hsame
      obtain rfl := Option.some.inj hv
      rw [hkey]
      exact hs.joined w old p hw (hjoined ▸ hp)
    · exact hs.joined v other p hv hp
  · intro p population v hp hv
    rw [hpopulations] at hp
    obtain ⟨other, hother, hwaits⟩ := hs.watched p population v hp hv
    rw [hget]
    split_ifs with hsame
    · obtain rfl := hsame
      obtain rfl : other = old := Option.some.inj (hother.symm.trans hw)
      exact ⟨waiter, rfl, hjoined.trans hwaits⟩
    · exact ⟨other, hother, hwaits⟩
  · rw [hpopulations]
    exact hs.watchers

/-- A population changes, but not who waits for it. -/
theorem Linked.of_population
    (hs : s.Linked) {p : Nat} {old population : Population κ ν}
    (hp : s.populations[p]? = some old)
    (hpopulations : t.populations = (s.setPopulation p population).populations)
    (hwaiters : t.waiters = s.waiters) (hkey : population.key = old.key)
    (hwatchers : population.watchers = old.watchers)
    (hrunning : population.outcome = none → old.outcome = none)
    (hanswer : population.started = false → population.answer = none) :
    t.Linked := by
  have hget : ∀ q, t.populations[q]? = if p = q then some population else s.populations[q]? := by
    intro q
    rw [hpopulations, getElem?_setPopulation hp]
  constructor
  · intro q other hq hnot
    rw [hget] at hq
    split_ifs at hq
    · obtain rfl := Option.some.inj hq
      exact hanswer hnot
    · exact hs.unstarted q other hq hnot
  · rw [hwaiters]
    exact hs.unjoined
  · rw [hwaiters]
    exact hs.waits
  · intro v waiter q hv hq
    rw [hwaiters] at hv
    obtain ⟨other, hother, hsame, hmem⟩ := hs.joined v waiter q hv hq
    rw [hget]
    split_ifs with hpq
    · obtain rfl := hpq
      obtain rfl : other = old := Option.some.inj (hother.symm.trans hp)
      exact ⟨population, rfl, hkey.trans hsame, fun h => hwatchers ▸ hmem (hrunning h)⟩
    · exact ⟨other, hother, hsame, hmem⟩
  · intro q other v hq hv
    rw [hwaiters]
    rw [hget] at hq
    split_ifs at hq with hpq
    · obtain rfl := hpq
      obtain rfl := Option.some.inj hq
      exact hs.watched p old v hp (hwatchers ▸ hv)
    · exact hs.watched q other v hq hv
  · intro q other hq
    rw [hget] at hq
    split_ifs at hq with hpq
    · obtain rfl := Option.some.inj hq
      rw [hwatchers]
      exact hs.watchers p old hp
    · exact hs.watchers q other hq

/-- A new waiter comes, who waits for nothing yet. -/
theorem Linked.get
    (hs : s.Linked) {waiter : Waiter κ ν} (hjoined : waiter.joined = none)
    (hanswer : waiter.answer = none) (hwaiters : t.waiters = s.waiters.push waiter)
    (hpopulations : t.populations = s.populations) :
    t.Linked := by
  constructor
  · rw [hpopulations]
    exact hs.unstarted
  · intro v other hv hnone
    rw [hwaiters, getElem?_push_eq_some_iff] at hv
    rcases hv with hv | ⟨-, rfl⟩
    · exact hs.unjoined v other hv hnone
    · exact hanswer
  · intro v other p hv hp
    rw [hwaiters, getElem?_push_eq_some_iff] at hv
    rcases hv with hv | ⟨-, rfl⟩
    · exact hs.waits v other p hv hp
    · rw [hjoined] at hp
      contradiction
  · intro v other p hv hp
    rw [hpopulations]
    rw [hwaiters, getElem?_push_eq_some_iff] at hv
    rcases hv with hv | ⟨-, rfl⟩
    · exact hs.joined v other p hv hp
    · rw [hjoined] at hp
      contradiction
  · intro p population v hp hv
    rw [hpopulations] at hp
    obtain ⟨other, hother, hwaits⟩ := hs.watched p population v hp hv
    exact ⟨other, by rw [hwaiters, getElem?_push_eq_some_iff]; exact Or.inl hother, hwaits⟩
  · rw [hpopulations]
    exact hs.watchers

/-- Nobody watches a population without having joined it. -/
theorem Linked.ne_of_watched
    (hs : s.Linked) {p v w : Nat} {population : Population κ ν} {waiter : Waiter κ ν}
    (hp : s.populations[p]? = some population) (hv : v ∈ population.watchers)
    (hw : s.waiters[w]? = some waiter) (hunjoined : waiter.joined = none) :
    w ≠ v := by
  rintro rfl
  obtain ⟨other, hother, hwaits⟩ := hs.watched p population w hp hv
  obtain rfl : other = waiter := Option.some.inj (hother.symm.trans hw)
  rw [hunjoined] at hwaits
  contradiction

/-- A waiter who waits for nothing joins a running population. -/
theorem Linked.join
    (hs : s.Linked) {w p : Nat} {waiter : Waiter κ ν} {population : Population κ ν}
    (hw : s.waiters[w]? = some waiter) (hp : s.populations[p]? = some population)
    (hopen : waiter.outcome = none) (hunjoined : waiter.joined = none)
    (hkey : population.key = waiter.key)
    (hwaiters : t.waiters = (s.setWaiter w { waiter with joined := some p }).waiters)
    (hpopulations : t.populations = (s.setPopulation p
      { population with watchers := population.watchers ++ [w] }).populations) :
    t.Linked := by
  have hgetw : ∀ v, t.waiters[v]? =
      if w = v then some { waiter with joined := some p } else s.waiters[v]? := by
    intro v
    rw [hwaiters, getElem?_setWaiter hw]
  have hgetp : ∀ q, t.populations[q]? =
      if p = q then some { population with watchers := population.watchers ++ [w] }
      else s.populations[q]? := by
    intro q
    rw [hpopulations, getElem?_setPopulation hp]
  constructor
  · intro q other hq hnot
    rw [hgetp] at hq
    split_ifs at hq
    · obtain rfl := Option.some.inj hq
      exact hs.unstarted p population hp hnot
    · exact hs.unstarted q other hq hnot
  · intro v other hv hnone
    rw [hgetw] at hv
    split_ifs at hv
    · obtain rfl := Option.some.inj hv
      contradiction
    · exact hs.unjoined v other hv hnone
  · intro v other q hv hq
    rw [hgetw] at hv
    split_ifs at hv
    · obtain rfl := Option.some.inj hv
      exact fun _ => hopen
    · exact hs.waits v other q hv hq
  · intro v other q hv hq
    rw [hgetw] at hv
    rw [hgetp]
    split_ifs at hv with hvw
    · obtain rfl := hvw
      obtain rfl := Option.some.inj hv
      obtain rfl : p = q := Option.some.inj hq
      exact ⟨_, if_pos rfl, hkey, fun _ => by simp⟩
    · obtain ⟨other', hother, hsame, hmem⟩ := hs.joined v other q hv hq
      split_ifs with hpq
      · obtain rfl := hpq
        obtain rfl : other' = population := Option.some.inj (hother.symm.trans hp)
        exact ⟨_, rfl, hsame, fun h => List.mem_append_left [w] (hmem h)⟩
      · exact ⟨other', hother, hsame, hmem⟩
  · intro q other v hq hv
    rw [hgetp] at hq
    rw [hgetw]
    split_ifs with hvw
    · obtain rfl := hvw
      split_ifs at hq with hpq
      · exact ⟨_, rfl, congrArg some hpq⟩
      · exact absurd rfl (hs.ne_of_watched hq hv hw hunjoined)
    · split_ifs at hq with hpq
      · obtain rfl := hpq
        obtain rfl := Option.some.inj hq
        rcases List.mem_append.mp hv with hv | hv
        · exact hs.watched p population v hp hv
        · exact absurd (List.mem_singleton.mp hv).symm hvw
      · exact hs.watched q other v hq hv
  · intro q other hq
    rw [hgetp] at hq
    split_ifs at hq
    · obtain rfl := Option.some.inj hq
      refine List.nodup_append.mpr ⟨hs.watchers p population hp, by simp, ?_⟩
      intro v hv v' hv' heq
      obtain rfl : v' = w := by simpa using hv'
      exact hs.ne_of_watched hp hv hw hunjoined heq.symm
    · exact hs.watchers q other hq

/-- A waiter who waits for nothing starts a population. -/
theorem Linked.start
    (hs : s.Linked) {w : Nat} {waiter : Waiter κ ν} (hw : s.waiters[w]? = some waiter)
    (hopen : waiter.outcome = none) (hunjoined : waiter.joined = none)
    (hwaiters : t.waiters =
      (s.setWaiter w { waiter with joined := some s.populations.size }).waiters)
    (hpopulations : t.populations =
      s.populations.push { key := waiter.key, watchers := [w] }) :
    t.Linked := by
  have hgetw : ∀ v, t.waiters[v]? =
      if w = v then some { waiter with joined := some s.populations.size }
      else s.waiters[v]? := by
    intro v
    rw [hwaiters, getElem?_setWaiter hw]
  constructor
  · intro q other hq hnot
    rw [hpopulations, getElem?_push_eq_some_iff] at hq
    rcases hq with hq | ⟨-, rfl⟩
    · exact hs.unstarted q other hq hnot
    · rfl
  · intro v other hv hnone
    rw [hgetw] at hv
    split_ifs at hv
    · obtain rfl := Option.some.inj hv
      contradiction
    · exact hs.unjoined v other hv hnone
  · intro v other q hv hq
    rw [hgetw] at hv
    split_ifs at hv
    · obtain rfl := Option.some.inj hv
      exact fun _ => hopen
    · exact hs.waits v other q hv hq
  · intro v other q hv hq
    simp only [hpopulations, getElem?_push_eq_some_iff]
    rw [hgetw] at hv
    split_ifs at hv with hvw
    · obtain rfl := hvw
      obtain rfl := Option.some.inj hv
      obtain rfl : s.populations.size = q := Option.some.inj hq
      exact ⟨_, Or.inr ⟨rfl, rfl⟩, rfl, fun _ => List.mem_singleton_self w⟩
    · obtain ⟨other', hother, hsame⟩ := hs.joined v other q hv hq
      exact ⟨other', Or.inl hother, hsame⟩
  · intro q other v hq hv
    rw [hpopulations, getElem?_push_eq_some_iff] at hq
    rw [hgetw]
    rcases hq with hq | ⟨rfl, rfl⟩
    · obtain ⟨other', hother, hwaits⟩ := hs.watched q other v hq hv
      rw [if_neg (hs.ne_of_watched hq hv hw hunjoined)]
      exact ⟨other', hother, hwaits⟩
    · obtain rfl : v = w := by simpa using hv
      exact ⟨_, if_pos rfl, rfl⟩
  · intro q other hq
    rw [hpopulations, getElem?_push_eq_some_iff] at hq
    rcases hq with hq | ⟨-, rfl⟩
    · exact hs.watchers q other hq
    · simp

variable [DecidableEq κ]

/-- Taking up how a population ended, without the case analysis. -/
theorem settleTurn_eq (s : State κ ν) (p : Nat) (population : Population κ ν) :
    s.settleTurn p population = { s with
      inflight := s.inflight.filter fun entry => entry != (population.key, p)
      values := (value? population.outcome).elim s.values fun v =>
        store population.key v s.values } := by
  unfold settleTurn value?
  cases population.outcome with
  | none => rfl
  | some outcome =>
    cases outcome with
    | _ => rfl

theorem Linked.step
    (hs : s.Sound) {m : Move κ ν} (h : Step s m t) :
    t.Linked := by
  have hl := hs.linked
  cases h with
  | idle => exact hl
  | get key => exact hl.get rfl rfl rfl rfl
  | withdraw hw _ hjoined =>
    refine hl.of_waiter hw rfl rfl rfl rfl ?_ nofun
    intro hnone
    rw [hjoined] at hnone
    contradiction
  | doomWaiter hw =>
    have hanswer := hl.unjoined _ _ hw
    have hwaits := fun p => hl.waits _ _ p hw
    exact hl.of_waiter hw rfl rfl rfl rfl hanswer hwaits
  | answer hp _ hstarted =>
    refine hl.of_population hp rfl rfl rfl rfl id ?_
    intro hnot
    rw [hstarted] at hnot
    contradiction
  | doomPopulation hp =>
    have hanswer := hl.unstarted _ _ hp
    exact hl.of_population hp rfl rfl rfl rfl id hanswer
  | serve _ hw _ hunjoined =>
    have hanswer := hl.unjoined _ _ hw
    refine hl.of_waiter hw rfl rfl rfl rfl hanswer ?_
    intro p hjoined
    rw [hunjoined] at hjoined
    contradiction
  | join _ hw hopen hunjoined _ hflight hp =>
    obtain ⟨_, hend⟩ := hs.ledger.entry _ _ hflight
    exact hl.join hw hp hopen hunjoined ((ends_iff hp).mp hend).1 rfl rfl
  | start _ hw hopen hunjoined => exact hl.start hw hopen hunjoined rfl rfl
  | populate _ hp => exact hl.of_population hp rfl rfl rfl rfl id nofun
  | conclude _ hp =>
    have hanswer := hl.unstarted _ _ hp
    exact hl.of_population hp rfl rfl rfl rfl nofun hanswer
  | settle =>
    rw [settleTurn_eq]
    exact { hl with }
  | tell _ _ hw hjoined =>
    refine hl.of_waiter hw rfl rfl rfl rfl ?_ nofun
    intro hnone
    rw [hjoined] at hnone
    contradiction
  | passBy => exact { hl with }
  | wake _ hw _ hanswer =>
    have hunjoined := hl.unjoined _ _ hw
    refine hl.of_waiter hw rfl rfl rfl rfl hunjoined ?_
    intro p _ hnone
    rw [hanswer] at hnone
    contradiction

end SolidWorkshop.Flight.State
