import SolidWorkshop.Proofs.Flight.Ledger

/-!
# The agenda of a single flight

What a move makes due goes on the agenda, and an entry is gone from it as soon as it is no longer
due.  With the links and the ledger this closes the induction over moves: what has been assumed
of the states between moves holds of all of them.
-/

namespace SolidWorkshop.Flight.State

variable {κ ν : Type} {s t : State κ ν}

/-! ## Taking one entry -/

section Entry

variable {before later : List Event} {event other : Event}

theorem count_eq_count_rest
    (hagenda : s.agenda = before ++ event :: later) (other : Event) :
    s.agenda.count other = (before ++ later).count other + if event = other then 1 else 0 := by
  simp only [hagenda, List.count_append, List.count_cons, beq_iff_eq, Nat.add_assoc]

theorem count_rest_of_ne
    (hagenda : s.agenda = before ++ event :: later) (hne : other ≠ event) :
    (before ++ later).count other = s.agenda.count other := by
  rw [count_eq_count_rest hagenda, if_neg hne.symm, Nat.add_zero]

theorem mem_rest_iff_of_ne
    (hagenda : s.agenda = before ++ event :: later) (hne : other ≠ event) :
    other ∈ before ++ later ↔ other ∈ s.agenda := by
  rw [← List.count_pos_iff, ← List.count_pos_iff, count_rest_of_ne hagenda hne]

theorem tell_mem_rest_iff
    (hagenda : s.agenda = before ++ event :: later) (hevent : ∀ p w, event ≠ .tell p w)
    (p w : Nat) :
    .tell p w ∈ before ++ later ↔ .tell p w ∈ s.agenda := by
  exact mem_rest_iff_of_ne hagenda (hevent p w).symm

theorem mem_of_mem_rest
    (hagenda : s.agenda = before ++ event :: later) (hmem : other ∈ before ++ later) :
    other ∈ s.agenda := by
  have hsublist : (before ++ later).Sublist (before ++ event :: later) :=
    (List.sublist_cons_self event later).append_left before
  rw [hagenda]
  exact hsublist.subset hmem

theorem count_map_tell
    (hevent : ∀ p w, event ≠ .tell p w) (p : Nat) (watchers : List Nat) :
    (watchers.map (Event.tell p)).count event = 0 := by
  rw [List.count_eq_zero, List.mem_map]
  rintro ⟨w, -, heq⟩
  exact hevent p w heq.symm

variable [DecidableEq κ]

/-- An entry that is due is on the agenda once. -/
theorem Timely.count_rest
    (hs : s.Timely) (hagenda : s.agenda = before ++ event :: later)
    (hevent : ∀ p w, event ≠ .tell p w) :
    (before ++ later).count event = 0 := by
  have hmem : event ∈ s.agenda := by rw [hagenda]; simp
  have hcount := hs.count event hevent
  rw [count_eq_count_rest hagenda, if_pos rfl, hs.due_of_mem hmem hevent] at hcount
  exact Nat.succ.inj hcount

theorem Timely.count_rest_of_not_due
    (hs : s.Timely) (hagenda : s.agenda = before ++ event :: later)
    (hdue : s.due other = false) (hother : ∀ p w, other ≠ .tell p w) :
    (before ++ later).count other = 0 := by
  have hcount := hs.count other hother
  rw [hdue, count_eq_count_rest hagenda] at hcount
  exact Nat.eq_zero_of_add_eq_zero_right hcount

end Entry

variable [DecidableEq κ]

/-! ## Changing one waiter or one population -/

/-- A waiter changes, and the agenda with it: only the two entries of this waiter are counted
anew. -/
theorem Timely.of_waiter
    (hs : s.Timely) {w : Nat} {old waiter : Waiter κ ν} (hw : s.waiters[w]? = some old)
    (hwaiters : t.waiters = (s.setWaiter w waiter).waiters)
    (hpopulations : t.populations = s.populations) (hinflight : t.inflight = s.inflight)
    (hask : t.agenda.count (.ask w) = (waiter.outcome.isNone && waiter.joined.isNone).toNat)
    (hwake : t.agenda.count (.wake w) =
      (waiter.outcome.isNone && waiter.joined.isSome && waiter.answer.isSome).toNat)
    (hcount : ∀ event, event ≠ .ask w → event ≠ .wake w → (∀ p v, event ≠ .tell p v) →
      t.agenda.count event = s.agenda.count event)
    (hjoined : waiter.joined = old.joined ∨ old.joined = none ∧
      ∀ p key outcome, waiter.joined = some p → ¬s.Ends p key (some outcome))
    (htell : ∀ p v, .tell p v ∈ t.agenda → .tell p v ∈ s.agenda)
    (hkept : ∀ p v, .tell p v ∈ s.agenda →
      .tell p v ∈ t.agenda ∨ v = w ∧ waiter.answer.isSome = true)
    (hquiet : waiter.outcome = none → waiter.answer = none →
      old.outcome = none ∧ old.answer = none) :
    t.Timely := by
  have hget : ∀ v, t.waiters[v]? = if w = v then some waiter else s.waiters[v]? := by
    intro v
    rw [hwaiters, getElem?_setWaiter hw]
  constructor
  · intro event hevent
    cases event with
    | ask v =>
      by_cases hv : w = v
      · obtain rfl := hv
        simp [hask, hget]
      · rw [hcount (.ask v) (by simp [Ne.symm hv]) (by simp) (by simp), hs.count _ hevent]
        simp [hget, hv]
    | wake v =>
      by_cases hv : w = v
      · obtain rfl := hv
        simp [hwake, hget]
      · rw [hcount (.wake v) (by simp) (by simp [Ne.symm hv]) (by simp), hs.count _ hevent]
        simp [hget, hv]
    | tell p v => exact absurd rfl (hevent p v)
    | populate p =>
      rw [hcount (.populate p) (by simp) (by simp) (by simp), hs.count _ hevent]
      simp only [due_populate, hpopulations]
    | resume p =>
      rw [hcount (.resume p) (by simp) (by simp) (by simp), hs.count _ hevent]
      simp only [due_resume, hpopulations]
    | settle p =>
      rw [hcount (.settle p) (by simp) (by simp) (by simp), hs.count _ hevent]
      simp only [due_settle, hpopulations, hinflight]
  · intro p v hmem
    obtain ⟨⟨key, outcome, hend⟩, other, hv, hwaits⟩ := hs.tell_of_mem p v (htell p v hmem)
    refine ⟨⟨key, outcome, (ends_of_populations hpopulations _ _ _).mpr hend⟩, ?_⟩
    rw [hget]
    split_ifs with hsame
    · obtain rfl := hsame
      obtain rfl : other = old := Option.some.inj (hv.symm.trans hw)
      rcases hjoined with hjoined | ⟨hnone, -⟩
      · exact ⟨waiter, rfl, hjoined.trans hwaits⟩
      · rw [hnone] at hwaits
        contradiction
    · exact ⟨other, hv, hwaits⟩
  · intro p v other key outcome hend hv hwaits hopen hquiet'
    rw [ends_of_populations hpopulations] at hend
    rw [hget] at hv
    split_ifs at hv with hsame
    · obtain rfl := hsame
      obtain rfl := Option.some.inj hv
      obtain ⟨hopen', hnone⟩ := hquiet hopen hquiet'
      rcases hjoined with hjoined | ⟨-, hrunning⟩
      · have hmem := hs.mem_tell p w old key outcome hend hw (hjoined ▸ hwaits) hopen' hnone
        rcases hkept p w hmem with hmem | ⟨-, hanswer⟩
        · exact hmem
        · rw [hquiet'] at hanswer
          contradiction
      · exact absurd hend (hrunning p key outcome hwaits)
    · have hmem := hs.mem_tell p v other key outcome hend hv hwaits hopen hquiet'
      rcases hkept p v hmem with hmem | ⟨heq, -⟩
      · exact hmem
      · exact absurd heq.symm hsame

/-- A running population changes, and the agenda with it: only the three entries of this population
are counted anew. -/
theorem Timely.of_population
    (hs : s.Timely) {p : Nat} {old population : Population κ ν}
    (hp : s.populations[p]? = some old)
    (hpopulations : t.populations = (s.setPopulation p population).populations)
    (hwaiters : t.waiters = s.waiters) (hinflight : t.inflight = s.inflight)
    (hrunning : old.outcome = none)
    (hpopulate : t.agenda.count (.populate p) =
      (population.outcome.isNone && !population.started).toNat)
    (hresume : t.agenda.count (.resume p) =
      (population.outcome.isNone && population.started && population.answer.isSome).toNat)
    (hsettle : t.agenda.count (.settle p) =
      (population.outcome.isSome && s.inflight.contains (population.key, p)).toNat)
    (hcount : ∀ event, event ≠ .populate p → event ≠ .resume p → event ≠ .settle p →
      (∀ q w, event ≠ .tell q w) → t.agenda.count event = s.agenda.count event)
    (htell : ∀ q w, .tell q w ∈ t.agenda → .tell q w ∈ s.agenda ∨
      q = p ∧ population.outcome.isSome = true ∧
        ∃ waiter, s.waiters[w]? = some waiter ∧ waiter.joined = some p)
    (hkept : ∀ q w, .tell q w ∈ s.agenda → .tell q w ∈ t.agenda)
    (hnew : population.outcome.isSome = true → ∀ w waiter, s.waiters[w]? = some waiter →
      waiter.joined = some p → .tell p w ∈ t.agenda) :
    t.Timely := by
  have hget : ∀ q, t.populations[q]? = if p = q then some population else s.populations[q]? := by
    intro q
    rw [hpopulations, getElem?_setPopulation hp]
  have hends : ∀ q key outcome, t.Ends q key outcome ↔
      if p = q then population.key = key ∧ population.outcome = outcome
      else s.Ends q key outcome := by
    intro q key outcome
    rw [ends_of_populations hpopulations, ends_setPopulation_iff hp]
  constructor
  · intro event hevent
    cases event with
    | populate q =>
      by_cases hq : p = q
      · obtain rfl := hq
        simp [hpopulate, hget]
      · have hne : Event.populate q ≠ .populate p := by simp [Ne.symm hq]
        rw [hcount _ hne (by simp) (by simp) (by simp), hs.count _ hevent]
        simp [hget, hq]
    | resume q =>
      by_cases hq : p = q
      · obtain rfl := hq
        simp [hresume, hget]
      · have hne : Event.resume q ≠ .resume p := by simp [Ne.symm hq]
        rw [hcount _ (by simp) hne (by simp) (by simp), hs.count _ hevent]
        simp [hget, hq]
    | settle q =>
      by_cases hq : p = q
      · obtain rfl := hq
        simp [hsettle, hget, hinflight]
      · have hne : Event.settle q ≠ .settle p := by simp [Ne.symm hq]
        rw [hcount _ (by simp) (by simp) hne (by simp), hs.count _ hevent]
        simp [hget, hq, hinflight]
    | tell q w => exact absurd rfl (hevent q w)
    | ask w =>
      rw [hcount (.ask w) (by simp) (by simp) (by simp) (by simp), hs.count _ hevent]
      simp only [due_ask, hwaiters]
    | wake w =>
      rw [hcount (.wake w) (by simp) (by simp) (by simp) (by simp), hs.count _ hevent]
      simp only [due_wake, hwaiters]
  · intro q w hmem
    rw [hwaiters]
    rcases htell q w hmem with hmem | ⟨rfl, hended, hjoined⟩
    · obtain ⟨⟨key, outcome, hend⟩, hjoined⟩ := hs.tell_of_mem q w hmem
      refine ⟨⟨key, outcome, ?_⟩, hjoined⟩
      rw [hends, if_neg]
      · exact hend
      · rintro rfl
        have hsame := ((ends_iff hp).mp hend).2
        rw [hrunning] at hsame
        contradiction
    · obtain ⟨outcome, houtcome⟩ := Option.isSome_iff_exists.mp hended
      exact ⟨⟨population.key, outcome, by simp [hends, houtcome]⟩, hjoined⟩
  · intro q w waiter key outcome hend hw hjoined hopen hquiet
    rw [hwaiters] at hw
    rw [hends] at hend
    split_ifs at hend with hq
    · obtain rfl := hq
      exact hnew (by simp [hend.2]) w waiter hw hjoined
    · exact hkept q w (hs.mem_tell q w waiter key outcome hend hw hjoined hopen hquiet)

/-- A running population changes and goes on. -/
theorem Timely.of_running
    (hs : s.Timely) {p : Nat} {old population : Population κ ν}
    (hp : s.populations[p]? = some old)
    (hpopulations : t.populations = (s.setPopulation p population).populations)
    (hwaiters : t.waiters = s.waiters) (hinflight : t.inflight = s.inflight)
    (hrunning : old.outcome = none)
    (hrunning' : population.outcome = none)
    (hpopulate : t.agenda.count (.populate p) = (!population.started).toNat)
    (hresume : t.agenda.count (.resume p) =
      (population.started && population.answer.isSome).toNat)
    (hcount : ∀ event, event ≠ .populate p → event ≠ .resume p →
      t.agenda.count event = s.agenda.count event) :
    t.Timely := by
  have hmem : ∀ q w, .tell q w ∈ t.agenda ↔ .tell q w ∈ s.agenda := by
    intro q w
    rw [← List.count_pos_iff, ← List.count_pos_iff, hcount (.tell q w) (by simp) (by simp)]
  have hsettle : s.due (.settle p) = false := by simp [hp, hrunning]
  refine hs.of_population hp hpopulations hwaiters hinflight hrunning ?_ ?_ ?_ ?_ ?_ ?_ ?_
  · simp [hpopulate, hrunning']
  · simp [hresume, hrunning']
  · rw [hcount (.settle p) (by simp) (by simp), hs.count (.settle p) (by simp), hsettle]
    simp [hrunning']
  · exact fun event hpopulate hresume _ _ => hcount event hpopulate hresume
  · exact fun q w h => Or.inl ((hmem q w).mp h)
  · exact fun q w h => (hmem q w).mpr h
  · rw [hrunning']
    simp

/-! ## Every step -/

theorem Timely.get
    (hs : s.Timely) {waiter : Waiter κ ν} (hopen : waiter.outcome = none)
    (hjoined : waiter.joined = none) (hwaiters : t.waiters = s.waiters.push waiter)
    (hpopulations : t.populations = s.populations) (hinflight : t.inflight = s.inflight)
    (hagenda : t.agenda = s.agenda ++ [.ask s.waiters.size]) :
    t.Timely := by
  have hget : ∀ w, t.waiters[w]? =
      if w = s.waiters.size then some waiter else s.waiters[w]? := by
    intro w
    rw [hwaiters, Array.getElem?_push]
  constructor
  · intro event hevent
    rw [hagenda, List.count_append, hs.count event hevent]
    cases event with
    | ask w =>
      by_cases hw : w = s.waiters.size
      · simp [hget, hw, hopen, hjoined]
      · simp [hget, hw, Ne.symm hw]
    | wake w =>
      by_cases hw : w = s.waiters.size
      · simp [hget, hw, hjoined]
      · simp [hget, hw]
    | _ => simp [hpopulations, hinflight]
  · intro p w hmem
    have hmem : .tell p w ∈ s.agenda := by simpa [hagenda] using hmem
    obtain ⟨⟨key, outcome, hend⟩, other, hw, hwaits⟩ := hs.tell_of_mem p w hmem
    refine ⟨⟨key, outcome, (ends_of_populations hpopulations _ _ _).mpr hend⟩, other, ?_, hwaits⟩
    rw [hwaiters, getElem?_push_eq_some_iff]
    exact Or.inl hw
  · intro p w other key outcome hend hw hwaits hopen hquiet
    rw [ends_of_populations hpopulations] at hend
    rw [hwaiters, getElem?_push_eq_some_iff] at hw
    rcases hw with hw | ⟨-, rfl⟩
    · rw [hagenda]
      exact List.mem_append_left _ (hs.mem_tell p w other key outcome hend hw hwaits hopen hquiet)
    · rw [hjoined] at hwaits
      contradiction

/-- A population begins, with its first turn on the agenda. -/
theorem Timely.push
    (hs : s.Timely) {population : Population κ ν} (hrunning : population.outcome = none)
    (hstarted : population.started = false) (hwaiters : t.waiters = s.waiters)
    (hpopulations : t.populations = s.populations.push population)
    (hinflight : t.inflight = s.inflight ++ [(population.key, s.populations.size)])
    (hagenda : t.agenda = s.agenda ++ [.populate s.populations.size]) :
    t.Timely := by
  have hget : ∀ p, t.populations[p]? =
      if p = s.populations.size then some population else s.populations[p]? := by
    intro p
    rw [hpopulations, Array.getElem?_push]
  have hends : ∀ p key outcome, t.Ends p key (some outcome) ↔ s.Ends p key (some outcome) := by
    intro p key outcome
    simp only [Ends, hpopulations, getElem?_push_eq_some_iff]
    constructor
    · rintro ⟨other, hp | ⟨-, rfl⟩, rfl, hended⟩
      · exact ⟨other, hp, rfl, hended⟩
      · rw [hrunning] at hended
        contradiction
    · rintro ⟨other, hp, rfl, hended⟩
      exact ⟨other, Or.inl hp, rfl, hended⟩
  constructor
  · intro event hevent
    rw [hagenda, List.count_append, hs.count event hevent]
    cases event with
    | populate p =>
      by_cases hp : p = s.populations.size
      · simp [hget, hp, hrunning, hstarted]
      · simp [hget, hp, Ne.symm hp]
    | resume p =>
      by_cases hp : p = s.populations.size
      · simp [hget, hp, hstarted]
      · simp [hget, hp]
    | settle p =>
      by_cases hp : p = s.populations.size
      · simp [hget, hp, hrunning]
      · simp [hget, hp, hinflight]
    | _ => simp [hwaiters]
  · intro p w hmem
    have hmem : .tell p w ∈ s.agenda := by simpa [hagenda] using hmem
    simp only [hends, hwaiters]
    exact hs.tell_of_mem p w hmem
  · intro p w waiter key outcome hend hw hjoined hopen hquiet
    rw [hends] at hend
    rw [hwaiters] at hw
    rw [hagenda]
    exact List.mem_append_left _ (hs.mem_tell p w waiter key outcome hend hw hjoined hopen hquiet)

/-- A waiter who waits for nothing joins what has not ended. -/
theorem Timely.joined
    (hs : s.Timely) {w p : Nat} {waiter : Waiter κ ν} {before later : List Event}
    (hagenda : s.agenda = before ++ .ask w :: later) (hw : s.waiters[w]? = some waiter)
    (hunjoined : waiter.joined = none) (hanswer : waiter.answer = none)
    (hrunning : ∀ key outcome, ¬s.Ends p key (some outcome)) :
    ({ s with agenda := before ++ later }.setWaiter w { waiter with joined := some p }).Timely := by
  have hask := hs.count_rest hagenda (by simp)
  have hwake := hs.count (.wake w) (by simp)
  refine hs.of_waiter hw rfl rfl rfl ?_ ?_ ?_ ?_ ?_ ?_ And.intro
  · simpa using hask
  · simpa [count_eq_count_rest hagenda, hw, hunjoined, hanswer] using hwake
  · exact fun event hne _ _ => count_rest_of_ne hagenda hne
  · refine Or.inr ⟨hunjoined, ?_⟩
    rintro q key outcome ⟨⟩
    exact hrunning key outcome
  · exact fun q v => (tell_mem_rest_iff hagenda (by simp) q v).mp
  · exact fun q v h => Or.inl ((tell_mem_rest_iff hagenda (by simp) q v).mpr h)

/-- A running population ends: its watchers are to be told, and the store is to take it up.  The
entry that is taken was the last one of this population. -/
theorem Timely.conclude
    (hs : s.Sound) {p : Nat} {population : Population κ ν} {event : Event} {outcome : Outcome ν}
    {before later : List Event} (hagenda : s.agenda = before ++ event :: later)
    (hp : s.populations[p]? = some population) (hrunning : population.outcome = none)
    (hend : Concludes p population event outcome) :
    ({ s with agenda := before ++ later }.endPopulation p population outcome).Timely := by
  have ht := hs.timely
  have hevent : ∀ q w, event ≠ .tell q w := by
    cases hend with
    | _ => simp
  have hflight := hs.ledger.running population.key p ⟨population, hp, rfl, hrunning⟩
  have hrest := ht.count_rest hagenda hevent
  have hpopulate : (before ++ later).count (.populate p) = 0 := by
    cases hend with
    | unstarted => exact hrest
    | doomed hstarted | told hstarted =>
      have hdue : s.due (.populate p) = false := by simp [hp, hstarted]
      exact ht.count_rest_of_not_due hagenda hdue (by simp)
  have hresume : (before ++ later).count (.resume p) = 0 := by
    cases hend with
    | unstarted hstarted =>
      have hdue : s.due (.resume p) = false := by simp [hp, hstarted]
      exact ht.count_rest_of_not_due hagenda hdue (by simp)
    | doomed | told => exact hrest
  have hsettle : (before ++ later).count (.settle p) = 0 := by
    have hdue : s.due (.settle p) = false := by simp [hp, hrunning]
    exact ht.count_rest_of_not_due hagenda hdue (by simp)
  have hnew : ∀ other, (∀ q w, other ≠ .tell q w) →
      (before ++ later ++ Event.settle p :: population.watchers.map (.tell p)).count other =
        (before ++ later).count other + if Event.settle p = other then 1 else 0 := by
    intro other hother
    rw [List.count_append, List.count_cons, count_map_tell hother]
    simp only [beq_iff_eq, Nat.zero_add]
  refine ht.of_population hp rfl rfl rfl hrunning ?_ ?_ ?_ ?_ ?_ ?_ ?_
  · exact (hnew (.populate p) (by simp)).trans (by simpa using hpopulate)
  · exact (hnew (.resume p) (by simp)).trans (by simpa using hresume)
  · exact (hnew (.settle p) (by simp)).trans (by simpa [hflight] using hsettle)
  · intro other hne hne' hne'' htell
    refine (hnew other htell).trans ?_
    rw [if_neg (Ne.symm hne''), Nat.add_zero, count_rest_of_ne hagenda]
    rintro rfl
    cases hend with
    | unstarted => exact hne rfl
    | doomed | told => exact hne' rfl
  · intro q w hmem
    have hmem : .tell q w ∈ before ++ later ∨ p = q ∧ w ∈ population.watchers := by
      simpa [endPopulation, and_comm, or_assoc] using hmem
    rcases hmem with hmem | ⟨rfl, hwatches⟩
    · exact Or.inl ((tell_mem_rest_iff hagenda hevent q w).mp hmem)
    · exact Or.inr ⟨rfl, rfl, hs.linked.watched p population w hp hwatches⟩
  · intro q w hmem
    exact List.mem_append_left _ ((tell_mem_rest_iff hagenda hevent q w).mpr hmem)
  · intro _ w waiter hw hjoined
    obtain ⟨other, hother, -, hwatches⟩ := hs.linked.joined w waiter p hw hjoined
    obtain rfl : other = population := Option.some.inj (hother.symm.trans hp)
    exact List.mem_append_right _ (List.mem_cons_of_mem _ (List.mem_map_of_mem (hwatches hrunning)))

/-- The store takes up how a population ended. -/
theorem Timely.settle
    (hs : s.Timely) {p : Nat} {population : Population κ ν} {before later : List Event}
    (hagenda : s.agenda = before ++ .settle p :: later)
    (hp : s.populations[p]? = some population) :
    ({ s with agenda := before ++ later }.settleTurn p population).Timely := by
  rw [settleTurn_eq]
  constructor
  · intro event hevent
    by_cases hsame : event = .settle p
    · obtain rfl := hsame
      refine (hs.count_rest hagenda (by simp)).trans ?_
      simp [hp]
    · refine (count_rest_of_ne hagenda hsame).trans ?_
      rw [hs.count event hevent]
      cases event with
      | settle q =>
        have hq : q ≠ p := by simpa using hsame
        simp [hq]
      | _ => rfl
  · intro q w hmem
    exact hs.tell_of_mem q w ((tell_mem_rest_iff hagenda (by simp) q w).mp hmem)
  · intro q w waiter key outcome hend hw hjoined hopen hquiet
    exact (tell_mem_rest_iff hagenda (by simp) q w).mpr
      (hs.mem_tell q w waiter key outcome hend hw hjoined hopen hquiet)

/-- A waiter who has its answer already is not told another. -/
theorem Timely.passBy
    (hs : s.Timely) {p w : Nat} {waiter : Waiter κ ν} {before later : List Event}
    (hagenda : s.agenda = before ++ .tell p w :: later) (hw : s.waiters[w]? = some waiter)
    (hanswer : waiter.answer.isSome = true) :
    Timely { s with agenda := before ++ later } := by
  constructor
  · intro event hevent
    exact (count_rest_of_ne hagenda (hevent p w)).trans (hs.count event hevent)
  · intro q v hmem
    exact hs.tell_of_mem q v (mem_of_mem_rest hagenda hmem)
  · intro q v other key outcome hend hv hjoined hopen hquiet
    refine (mem_rest_iff_of_ne hagenda ?_).mpr
      (hs.mem_tell q v other key outcome hend hv hjoined hopen hquiet)
    rintro ⟨⟩
    obtain rfl : other = waiter := Option.some.inj (hv.symm.trans hw)
    rw [hquiet] at hanswer
    contradiction

/-- A waiter takes its outcome, in a turn of its own. -/
theorem Timely.ended
    (hs : s.Timely) {w : Nat} {waiter : Waiter κ ν} {event : Event} {before later : List Event}
    (hagenda : s.agenda = before ++ event :: later) (hw : s.waiters[w]? = some waiter)
    (hevent : event = .ask w ∨ event = .wake w) (hask : (before ++ later).count (.ask w) = 0)
    (hwake : (before ++ later).count (.wake w) = 0) (outcome : Outcome ν) :
    ({ s with agenda := before ++ later }.setWaiter w
      { waiter with outcome := some outcome }).Timely := by
  have hother : ∀ p v, event ≠ .tell p v := by
    rcases hevent with rfl | rfl
    · simp
    · simp
  refine hs.of_waiter hw rfl rfl rfl hask hwake ?_ (Or.inl rfl) ?_ ?_ (by simp)
  · intro other hne hne' _
    apply count_rest_of_ne hagenda
    rintro rfl
    exact hevent.elim hne hne'
  · exact fun p v => (tell_mem_rest_iff hagenda hother p v).mp
  · exact fun p v h => Or.inl ((tell_mem_rest_iff hagenda hother p v).mpr h)

/-- A waiter is told an outcome, and is to take it up. -/
theorem Timely.told
    (hs : s.Timely) {p w : Nat} {waiter : Waiter κ ν} {before later : List Event}
    (hagenda : s.agenda = before ++ .tell p w :: later) (hw : s.waiters[w]? = some waiter)
    (hopen : waiter.outcome = none) (hjoined : waiter.joined = some p)
    (hanswer : waiter.answer = none) (outcome : Outcome ν) :
    (({ s with agenda := before ++ later }.setWaiter w
      { waiter with answer := some outcome }).plan [.wake w]).Timely := by
  have hask : s.due (.ask w) = false := by simp [hw, hjoined]
  have hwake : s.due (.wake w) = false := by simp [hw, hanswer]
  have hask := hs.count_rest_of_not_due hagenda hask (by simp)
  have hwake := hs.count_rest_of_not_due hagenda hwake (by simp)
  refine hs.of_waiter hw rfl rfl rfl ?_ ?_ ?_ (Or.inl rfl) ?_ ?_ (by simp)
  · simpa [hopen, hjoined] using hask
  · rw [plan_agenda, List.count_append]
    simpa [hopen, hjoined] using hwake
  · intro event _ hne htell
    refine Eq.trans ?_ (count_rest_of_ne hagenda (htell p w))
    simp [Ne.symm hne]
  · intro q v hmem
    have hmem : .tell q v ∈ before ++ later := by simpa using hmem
    exact mem_of_mem_rest hagenda hmem
  · intro q v hmem
    by_cases hv : v = w
    · exact Or.inr ⟨hv, rfl⟩
    · have hmem := (mem_rest_iff_of_ne hagenda (by simp [hv])).mpr hmem
      exact Or.inl (List.mem_append_left _ hmem)

/-- A waiter that is cancelled while it waits takes this up in a turn of its own. -/
theorem Timely.withdraw
    (hs : s.Timely) {w p : Nat} {waiter : Waiter κ ν} (hw : s.waiters[w]? = some waiter)
    (hopen : waiter.outcome = none) (hjoined : waiter.joined = some p)
    (hanswer : waiter.answer = none) :
    ((s.setWaiter w { waiter with answer := some .cancelled }).plan [.wake w]).Timely := by
  have hask := hs.count (.ask w) (by simp)
  have hwake := hs.count (.wake w) (by simp)
  refine hs.of_waiter hw rfl rfl rfl ?_ ?_ ?_ (Or.inl rfl) ?_ ?_ (by simp)
  · simpa [hw] using hask
  · simpa [hw, hopen, hjoined, hanswer] using hwake
  · intro event _ hne _
    simp [Ne.symm hne]
  · simp
  · simp +contextual

theorem Timely.doomWaiter
    (hs : s.Timely) {w : Nat} {waiter : Waiter κ ν} (hw : s.waiters[w]? = some waiter) :
    (s.setWaiter w { waiter with doomed := true }).Timely := by
  have hask := hs.count (.ask w) (by simp)
  have hwake := hs.count (.wake w) (by simp)
  refine hs.of_waiter hw rfl rfl rfl ?_ ?_ (fun _ _ _ _ => rfl) (Or.inl rfl) (fun _ _ => id)
    (fun _ _ => Or.inl) And.intro
  · simpa [hw] using hask
  · simpa [hw] using hwake

/-- A population that is told its answer takes this up in a turn of its own. -/
theorem Timely.answer
    (hs : s.Timely) {p : Nat} {population : Population κ ν}
    (hp : s.populations[p]? = some population) (hrunning : population.outcome = none)
    (hstarted : population.started = true) (hfree : population.answer = none)
    (answer : Outcome ν) :
    ((s.setPopulation p { population with answer := some answer }).plan [.resume p]).Timely := by
  have hpopulate := hs.count (.populate p) (by simp)
  have hresume := hs.count (.resume p) (by simp)
  refine hs.of_running hp rfl rfl rfl hrunning hrunning ?_ ?_ ?_
  · simpa [hp, hrunning] using hpopulate
  · simpa [hp, hstarted, hfree] using hresume
  · intro event _ hne
    simp [Ne.symm hne]

theorem Timely.doomPopulation
    (hs : s.Timely) {p : Nat} {population : Population κ ν}
    (hp : s.populations[p]? = some population) (hrunning : population.outcome = none) :
    (s.setPopulation p { population with doomed := true }).Timely := by
  have hpopulate := hs.count (.populate p) (by simp)
  have hresume := hs.count (.resume p) (by simp)
  refine hs.of_running hp rfl rfl rfl hrunning hrunning ?_ ?_ (fun _ _ _ => rfl)
  · simpa [hp, hrunning] using hpopulate
  · simpa [hp, hrunning] using hresume

/-- A waiter has its outcome in its first turn. -/
theorem Timely.serve
    (hs : s.Timely) {w : Nat} {waiter : Waiter κ ν} {before later : List Event}
    (hagenda : s.agenda = before ++ .ask w :: later) (hw : s.waiters[w]? = some waiter)
    (hunjoined : waiter.joined = none) (outcome : Outcome ν) :
    ({ s with agenda := before ++ later }.setWaiter w
      { waiter with outcome := some outcome }).Timely := by
  have hwake : s.due (.wake w) = false := by simp [hw, hunjoined]
  have hwake := hs.count_rest_of_not_due hagenda hwake (by simp)
  exact hs.ended hagenda hw (Or.inl rfl) (hs.count_rest hagenda (by simp)) hwake outcome

/-- A waiter joins a running population. -/
theorem Timely.join
    (hs : s.Timely) {w p : Nat} {waiter : Waiter κ ν} {population : Population κ ν}
    {before later : List Event} (hagenda : s.agenda = before ++ .ask w :: later)
    (hw : s.waiters[w]? = some waiter) (hunjoined : waiter.joined = none)
    (hanswer : waiter.answer = none) (hp : s.populations[p]? = some population)
    (hrunning : population.outcome = none) :
    (({ s with agenda := before ++ later }.setWaiter w
      { waiter with joined := some p }).setPopulation p { population with watchers := population.watchers ++ [w] }).Timely := by
  have hnever : ∀ key outcome, ¬s.Ends p key (some outcome) := by
    intro key outcome hend
    have hsame := ((ends_iff hp).mp hend).2
    rw [hrunning] at hsame
    contradiction
  have hu := hs.joined hagenda hw hunjoined hanswer hnever
  have hpopulate := hu.count (.populate p) (by simp)
  have hresume := hu.count (.resume p) (by simp)
  refine hu.of_running hp rfl rfl rfl hrunning hrunning ?_ ?_ (fun _ _ _ => rfl)
  · simpa [setWaiter, hp, hrunning] using hpopulate
  · simpa [setWaiter, hp, hrunning] using hresume

/-- A waiter starts a population. -/
theorem Timely.start
    (hs : s.Timely) {w : Nat} {waiter : Waiter κ ν} {before later : List Event}
    (hagenda : s.agenda = before ++ .ask w :: later) (hw : s.waiters[w]? = some waiter)
    (hunjoined : waiter.joined = none) (hanswer : waiter.answer = none) :
    Timely { s.setWaiter w { waiter with joined := some s.populations.size } with
      inflight := s.inflight ++ [(waiter.key, s.populations.size)]
      populations := s.populations.push { key := waiter.key, watchers := [w] }
      agenda := before ++ later ++ [.populate s.populations.size] } := by
  have hnever : ∀ key outcome, ¬s.Ends s.populations.size key (some outcome) := by
    rintro key outcome ⟨population, hp, -⟩
    simp at hp
  have hu := hs.joined hagenda hw hunjoined hanswer hnever
  exact hu.push rfl rfl rfl rfl rfl rfl

/-- A population has its first turn. -/
theorem Timely.populate
    (hs : s.Timely) {p : Nat} {population : Population κ ν} {before later : List Event}
    (hagenda : s.agenda = before ++ .populate p :: later)
    (hp : s.populations[p]? = some population) (hrunning : population.outcome = none)
    (hstarted : population.started = false) (hanswer : population.answer = none) :
    ({ s with agenda := before ++ later }.setPopulation p
      { population with started := true }).Timely := by
  have hpopulate := hs.count_rest hagenda (by simp)
  have hresume := hs.count (.resume p) (by simp)
  refine hs.of_running hp rfl rfl rfl hrunning hrunning hpopulate ?_ ?_
  · simpa [count_eq_count_rest hagenda, hp, hstarted, hanswer] using hresume
  · exact fun event hne _ => count_rest_of_ne hagenda hne

/-- A waiter takes up what it has been told. -/
theorem Timely.wake
    (hs : s.Timely) {w : Nat} {waiter : Waiter κ ν} {before later : List Event}
    (hagenda : s.agenda = before ++ .wake w :: later) (hw : s.waiters[w]? = some waiter)
    (hjoined : waiter.joined ≠ none) (outcome : Outcome ν) :
    ({ s with agenda := before ++ later }.setWaiter w
      { waiter with outcome := some outcome }).Timely := by
  have hask : s.due (.ask w) = false := by simp [hw, Option.isSome_iff_ne_none.mpr hjoined]
  have hask := hs.count_rest_of_not_due hagenda hask (by simp)
  exact hs.ended hagenda hw (Or.inr rfl) hask (hs.count_rest hagenda (by simp)) outcome

theorem Timely.step
    (hs : s.Sound) {m : Move κ ν} (h : Step s m t) :
    t.Timely := by
  have ht := hs.timely
  cases h with
  | idle => exact ht
  | get key => exact ht.get rfl rfl rfl rfl rfl rfl
  | withdraw hw hopen hjoined hanswer => exact ht.withdraw hw hopen hjoined hanswer
  | doomWaiter hw _ => exact ht.doomWaiter hw
  | answer hp hrunning hstarted hfree _ => exact ht.answer hp hrunning hstarted hfree _
  | doomPopulation hp hrunning _ => exact ht.doomPopulation hp hrunning
  | serve hagenda hw _ hunjoined _ => exact ht.serve hagenda hw hunjoined _
  | join hagenda hw _ hunjoined _ _ hp hrunning =>
    exact ht.join hagenda hw hunjoined (hs.linked.unjoined _ _ hw hunjoined) hp hrunning
  | start hagenda hw _ hunjoined _ _ _ =>
    exact ht.start hagenda hw hunjoined (hs.linked.unjoined _ _ hw hunjoined)
  | populate hagenda hp hrunning hstarted =>
    exact ht.populate hagenda hp hrunning hstarted (hs.linked.unstarted _ _ hp hstarted)
  | conclude hagenda hp hrunning hend => exact Timely.conclude hs hagenda hp hrunning hend
  | settle hagenda hp _ _ => exact ht.settle hagenda hp
  | tell hagenda _ hw hjoined hanswer =>
    exact ht.told hagenda hw (hs.linked.waits _ _ _ hw hjoined hanswer) hjoined hanswer _
  | passBy hagenda hw hanswer => exact ht.passBy hagenda hw hanswer
  | wake hagenda hw _ hanswer =>
    refine ht.wake hagenda hw (fun hnone => ?_) _
    rw [hs.linked.unjoined _ _ hw hnone] at hanswer
    contradiction

/-! ## Every run -/

theorem Sound.step
    (hs : s.Sound) {m : Move κ ν} (h : Step s m t) :
    t.Sound :=
  ⟨Timely.step hs h, Linked.step hs h, Ledger.step hs h⟩

/-- A flight that has not begun. -/
theorem sound_empty : ({} : State κ ν).Sound := by
  constructor
  · constructor
    · intro event hevent
      cases event with
      | tell p w => exact absurd rfl (hevent p w)
      | _ => simp
    · simp
    · simp
  · constructor <;> simp
  · constructor <;> simp [Ends, peek?]

/-- Between any two moves the agenda, the links and the ledger are as they should be. -/
theorem sound_after (moves : List (Move κ ν)) :
    (after moves).Sound := by
  induction moves with
  | nil => exact sound_empty
  | cons m earlier ih => exact ih.step (step_move ih m)

end SolidWorkshop.Flight.State
