import SolidWorkshop.Proofs.Flight.Agenda

/-!
# What becomes of a waiter and of a population

A move changes a waiter in one of a few ways, and a population in one of a few others.  From
these, what a population has been told and how it ended go back to moves of the run, and a waiter
that nobody has cancelled gets what its population ended with.
-/

namespace SolidWorkshop.Flight.State

variable {κ ν : Type} {s t : State κ ν}

/-! ## One move -/

/-- All that a move can do to a waiter. -/
inductive WaiterStep (s : State κ ν) (m : Move κ ν) (w : Nat) (old : Waiter κ ν) :
    Waiter κ ν → Prop
  | same : WaiterStep s m w old old
  | withdraw (hm : m = .cancel w) (hcancel : (s.cancel w).2 = true) :
    WaiterStep s m w old { old with answer := some .cancelled }
  | doom (hm : m = .cancel w) (hcancel : (s.cancel w).2 = true) :
    WaiterStep s m w old { old with doomed := true }
  | serve {outcome : Outcome ν} (hopen : old.outcome = none) (hunjoined : old.joined = none) :
    WaiterStep s m w old { old with outcome := some outcome }
  | join {p : Nat} (hopen : old.outcome = none) (hunjoined : old.joined = none) :
    WaiterStep s m w old { old with joined := some p }
  | tell {p : Nat} {key : κ} {outcome : Outcome ν} (hjoined : old.joined = some p)
    (hopen : old.outcome = none) (hend : s.Ends p key (some outcome)) :
    WaiterStep s m w old { old with answer := some outcome }
  | wake {answer : Outcome ν} (hopen : old.outcome = none) (hanswer : old.answer = some answer) :
    WaiterStep s m w old
      { old with outcome := some (if old.doomed then .cancelled else answer) }

theorem cancel_snd_eq_true
    {w : Nat} {waiter : Waiter κ ν} (hw : s.waiters[w]? = some waiter)
    (hopen : waiter.outcome = none) :
    (s.cancel w).2 = true := by
  simp only [cancel, hw, hopen, Option.isSome_none, Bool.false_eq_true, if_false]
  split_ifs
  · rfl
  · rfl

theorem exists_setWaiter
    {m : Move κ ν} {v w : Nat} {old other waiter : Waiter κ ν} (hv : s.waiters[v]? = some other)
    (hw : s.waiters[w]? = some old) (hstep : w = v → WaiterStep s m v other waiter) :
    ∃ new, (s.setWaiter v waiter).waiters[w]? = some new ∧ WaiterStep s m w old new := by
  rw [getElem?_setWaiter hv]
  split_ifs with hsame
  · obtain rfl := hsame
    obtain rfl : other = old := Option.some.inj (hv.symm.trans hw)
    exact ⟨waiter, rfl, hstep rfl⟩
  · exact ⟨old, hw, .same⟩

theorem eq_none_of_size_eq
    {α : Type} {xs ys : Array α} (hsize : ys.size = xs.size) {i : Nat} (hnone : xs[i]? = none) :
    ys[i]? = none := by
  rw [Array.getElem?_eq_none_iff] at hnone ⊢
  rwa [hsize]

variable [DecidableEq κ]

/-- All that a move can do to a population. -/
inductive PopulationStep (s : State κ ν) (m : Move κ ν) (p : Nat) (old : Population κ ν) :
    Population κ ν → Prop
  | same : PopulationStep s m p old old
  | answer {answer : Outcome ν} (hrunning : old.outcome = none) (hfree : old.answer = none)
    (hm : m = .finish old.key answer ∧ s.open? old.key = some p ∨
      m = .abort old.key ∧ s.inflight.lookup old.key = some p ∧ answer = .cancelled) :
    PopulationStep s m p old { old with answer := some answer }
  | doom (hrunning : old.outcome = none) (hm : m = .abort old.key)
    (hflight : s.inflight.lookup old.key = some p) :
    PopulationStep s m p old { old with doomed := true }
  | watch {w : Nat} (hrunning : old.outcome = none) :
    PopulationStep s m p old { old with watchers := old.watchers ++ [w] }
  | start (hrunning : old.outcome = none) : PopulationStep s m p old { old with started := true }
  | conclude {event : Event} {outcome : Outcome ν} (hrunning : old.outcome = none)
    (hend : Concludes p old event outcome) :
    PopulationStep s m p old { old with outcome := some outcome }

theorem exists_setPopulation
    {m : Move κ ν} {q p : Nat} {old other population : Population κ ν}
    (hq : s.populations[q]? = some other) (hp : s.populations[p]? = some old)
    (hstep : PopulationStep s m q other population) :
    ∃ new, (s.setPopulation q population).populations[p]? = some new ∧
      PopulationStep s m p old new := by
  rw [getElem?_setPopulation hq]
  split_ifs with hsame
  · obtain rfl := hsame
    obtain rfl : other = old := Option.some.inj (hq.symm.trans hp)
    exact ⟨population, rfl, hstep⟩
  · exact ⟨old, hp, .same⟩

theorem Step.waiter
    (hs : s.Sound) {m : Move κ ν} (h : Step s m t) {w : Nat} {old : Waiter κ ν}
    (hw : s.waiters[w]? = some old) :
    ∃ new, t.waiters[w]? = some new ∧ WaiterStep s m w old new := by
  cases h with
  | idle | answer | doomPopulation | populate | conclude | passBy => exact ⟨old, hw, .same⟩
  | get =>
    refine ⟨old, ?_, .same⟩
    rw [getElem?_push_eq_some_iff]
    exact Or.inl hw
  | withdraw hv hopen =>
    exact exists_setWaiter hv hw fun _ => .withdraw rfl (cancel_snd_eq_true hv hopen)
  | doomWaiter hv hopen =>
    exact exists_setWaiter hv hw fun _ => .doom rfl (cancel_snd_eq_true hv hopen)
  | serve _ hv hopen hunjoined => exact exists_setWaiter hv hw fun _ => .serve hopen hunjoined
  | join _ hv hopen hunjoined => exact exists_setWaiter hv hw fun _ => .join hopen hunjoined
  | start _ hv hopen hunjoined => exact exists_setWaiter hv hw fun _ => .join hopen hunjoined
  | settle =>
    rw [settleTurn_eq]
    exact ⟨old, hw, .same⟩
  | tell _ hend hv hjoined hanswer =>
    have hopen := hs.linked.waits _ _ _ hv hjoined hanswer
    exact exists_setWaiter hv hw fun _ => .tell hjoined hopen hend
  | wake _ hv hopen hanswer => exact exists_setWaiter hv hw fun _ => .wake hopen hanswer

theorem Step.population
    {m : Move κ ν} (h : Step s m t) {p : Nat} {old : Population κ ν}
    (hp : s.populations[p]? = some old) :
    ∃ new, t.populations[p]? = some new ∧ PopulationStep s m p old new := by
  cases h with
  | idle | get | withdraw | doomWaiter | serve | tell | passBy | wake => exact ⟨old, hp, .same⟩
  | answer hq hrunning _ hfree hm => exact exists_setPopulation hq hp (.answer hrunning hfree hm)
  | doomPopulation hq hrunning hflight =>
    exact exists_setPopulation hq hp (.doom hrunning rfl hflight)
  | join _ _ _ _ _ _ hq hrunning => exact exists_setPopulation hq hp (.watch hrunning)
  | start =>
    refine ⟨old, ?_, .same⟩
    rw [getElem?_push_eq_some_iff]
    exact Or.inl hp
  | populate _ hq hrunning => exact exists_setPopulation hq hp (.start hrunning)
  | conclude _ hq hrunning hend => exact exists_setPopulation hq hp (.conclude hrunning hend)
  | settle =>
    rw [settleTurn_eq]
    exact ⟨old, hp, .same⟩

/-- A population that is there after a move and was not before has just been started, for a key
that is not stored. -/
theorem Step.born
    {m : Move κ ν} (h : Step s m t) {p : Nat} {new : Population κ ν}
    (hp : t.populations[p]? = some new) (hnew : s.populations[p]? = none) :
    s.peek? new.key = none ∧ ∃ w, new = { key := new.key, watchers := [w] } := by
  have hsize : t.populations.size ≠ s.populations.size := by
    intro hsize
    rw [eq_none_of_size_eq hsize hnew] at hp
    contradiction
  cases h with
  | idle | get | withdraw | doomWaiter | serve | tell | passBy | wake => exact absurd rfl hsize
  | answer | doomPopulation | join | populate | conclude =>
    exact absurd (Array.size_setIfInBounds ..) hsize
  | @start w waiter _ _ _ _ _ _ _ hpeek =>
    rw [getElem?_push_eq_some_iff] at hp
    rcases hp with hp | ⟨-, rfl⟩
    · rw [hnew] at hp
      contradiction
    · exact ⟨hpeek, w, rfl⟩
  | settle =>
    rw [settleTurn_eq] at hsize
    exact absurd rfl hsize

/-- A waiter who is there after a move and was not before has just come. -/
theorem Step.arrived
    {m : Move κ ν} (h : Step s m t) {w : Nat} {new : Waiter κ ν}
    (hw : t.waiters[w]? = some new) (hnew : s.waiters[w]? = none) :
    new = { key := new.key } := by
  have hsize : t.waiters.size ≠ s.waiters.size := by
    intro hsize
    rw [eq_none_of_size_eq hsize hnew] at hw
    contradiction
  cases h with
  | idle | answer | doomPopulation | populate | conclude | passBy => exact absurd rfl hsize
  | withdraw | doomWaiter | serve | join | start | tell | wake =>
    exact absurd (Array.size_setIfInBounds ..) hsize
  | get =>
    rw [getElem?_push_eq_some_iff] at hw
    rcases hw with hw | ⟨-, rfl⟩
    · rw [hnew] at hw
      contradiction
    · rfl
  | settle =>
    rw [settleTurn_eq] at hsize
    exact absurd rfl hsize

/-- A waiter's first turn: it has its outcome at once, joins the population in flight or starts
one. -/
theorem Step.ask
    {place : Nat} (h : Step s (.turn place) t) {w : Nat} {waiter : Waiter κ ν}
    (hask : s.agenda[place]? = some (.ask w)) (hw : s.waiters[w]? = some waiter) :
    (∃ outcome, s.Answers waiter outcome ∧ t.inflight = s.inflight ∧
      t.populations = s.populations ∧ t.waiters[w]? = some { waiter with outcome := some outcome }) ∨
    (∃ p, (waiter.key, p) ∈ s.inflight ∧ t.inflight = s.inflight ∧
      t.waiters[w]? = some { waiter with joined := some p }) ∨
    s.peek? waiter.key = none ∧ s.inflight.lookup waiter.key = none ∧
      t.inflight = s.inflight ++ [(waiter.key, s.populations.size)] ∧
      t.populations = s.populations.push { key := waiter.key, watchers := [w] } ∧
      t.waiters[w]? = some { waiter with joined := some s.populations.size } := by
  have htaken : ∀ {before later : List Event} {event : Event},
      s.agenda = before ++ event :: later → s.agenda[before.length]? = some event := by
    intro before later event hagenda
    simp [hagenda]
  cases h with
  | idle _ hturn =>
    rw [hturn place rfl] at hask
    contradiction
  | answer _ _ _ _ hm =>
    rcases hm with ⟨hm, -⟩ | ⟨hm, -⟩
    · contradiction
    · contradiction
  | serve hagenda hv _ _ hanswers =>
    obtain ⟨⟩ := (htaken hagenda).symm.trans hask
    obtain ⟨⟩ := hv.symm.trans hw
    refine Or.inl ⟨_, hanswers, rfl, rfl, ?_⟩
    exact (getElem?_setWaiter hv _ _).trans (if_pos rfl)
  | join hagenda hv _ _ _ hflight =>
    obtain ⟨⟩ := (htaken hagenda).symm.trans hask
    obtain ⟨⟩ := hv.symm.trans hw
    refine Or.inr (Or.inl ⟨_, hflight, rfl, ?_⟩)
    exact (getElem?_setWaiter hv _ _).trans (if_pos rfl)
  | start hagenda hv _ _ _ hpeek hflight =>
    obtain ⟨⟩ := (htaken hagenda).symm.trans hask
    obtain ⟨⟩ := hv.symm.trans hw
    refine Or.inr (Or.inr ⟨hpeek, hflight, rfl, rfl, ?_⟩)
    exact (getElem?_setWaiter hv _ _).trans (if_pos rfl)
  | conclude hagenda _ _ hend =>
    obtain rfl := Option.some.inj ((htaken hagenda).symm.trans hask)
    nomatch hend
  | populate hagenda | settle hagenda | tell hagenda | passBy hagenda | wake hagenda =>
    obtain ⟨⟩ := (htaken hagenda).symm.trans hask

/-! ## Populations over a run -/

/-- A population that has ended stays as it is. -/
theorem Step.ends
    {m : Move κ ν} (h : Step s m t) {p : Nat} {key : κ} {outcome : Outcome ν}
    (hend : s.Ends p key (some outcome)) :
    t.Ends p key (some outcome) := by
  obtain ⟨old, hp, rfl, hended⟩ := hend
  obtain ⟨new, hnew, hstep⟩ := h.population hp
  cases hstep with
  | same => exact ⟨old, hnew, rfl, hended⟩
  | answer hrunning | doom hrunning | watch hrunning | start hrunning | conclude hrunning =>
    rw [hrunning] at hended
    contradiction

theorem Step.exists_ends
    {m : Move κ ν} (h : Step s m t) {p : Nat} {key : κ} {outcome : Option (Outcome ν)}
    (hend : s.Ends p key outcome) :
    ∃ outcome', t.Ends p key outcome' := by
  obtain ⟨old, hp, rfl, -⟩ := hend
  obtain ⟨new, hnew, hstep⟩ := h.population hp
  refine ⟨new.outcome, new, hnew, ?_, rfl⟩
  cases hstep with
  | _ => rfl

/-- A population has been told its answer in a run. -/
inductive Told (p : Nat) (answer : Outcome ν) : List (Move κ ν) → Prop
  | now {key : κ} {earlier : List (Move κ ν)} (h : (after earlier).open? key = some p) :
    Told p answer (.finish key answer :: earlier)
  | before {m : Move κ ν} {earlier : List (Move κ ν)} (h : Told p answer earlier) :
    Told p answer (m :: earlier)

/-- A population has been aborted in a run. -/
inductive Aborted (p : Nat) : List (Move κ ν) → Prop
  | now {key : κ} {earlier : List (Move κ ν)}
    (h : (after earlier).inflight.lookup key = some p) :
    Aborted p (.abort key :: earlier)
  | before {m : Move κ ν} {earlier : List (Move κ ν)} (h : Aborted p earlier) :
    Aborted p (m :: earlier)

/-- What a population has been told and how it ended go back to the moves of a run. -/
structure Accounts (moves : List (Move κ ν)) (p : Nat) (population : Population κ ν) : Prop where
  answered : ∀ answer, population.answer = some answer →
    Told p answer moves ∨ answer = .cancelled ∧ Aborted p moves
  doomed : population.doomed = true → Aborted p moves
  ended : ∀ outcome, population.outcome = some outcome →
    population.doomed = true ∧ outcome = .cancelled ∨
      population.doomed = false ∧ population.answer = some outcome

theorem Accounts.step
    {moves : List (Move κ ν)} {p : Nat} {old new : Population κ ν} {m : Move κ ν}
    (h : Accounts moves p old) (hstep : PopulationStep (after moves) m p old new) :
    Accounts (m :: moves) p new := by
  have hbefore : Accounts (m :: moves) p old := by
    constructor
    · intro answer hanswer
      rcases h.answered answer hanswer with htold | ⟨hcancelled, haborted⟩
      · exact Or.inl htold.before
      · exact Or.inr ⟨hcancelled, haborted.before⟩
    · exact fun hdoomed => (h.doomed hdoomed).before
    · exact h.ended
  cases hstep with
  | same => exact hbefore
  | @answer answer hrunning hfree hm =>
    refine { hbefore with answered := ?_, ended := ?_ }
    · rintro _ ⟨⟩
      rcases hm with ⟨rfl, hopen⟩ | ⟨rfl, hflight, rfl⟩
      · exact Or.inl (.now hopen)
      · exact Or.inr ⟨rfl, .now hflight⟩
    · rw [hrunning]
      nofun
  | doom hrunning hm hflight =>
    refine { hbefore with doomed := ?_, ended := ?_ }
    · rw [hm]
      exact fun _ => .now hflight
    · rw [hrunning]
      nofun
  | watch hrunning => exact { hbefore with }
  | start hrunning => exact { hbefore with }
  | conclude hrunning hend =>
    refine { hbefore with ended := ?_ }
    rintro outcome ⟨⟩
    cases hend with
    | unstarted _ hdoomed | doomed _ _ hdoomed => exact Or.inl ⟨hdoomed, rfl⟩
    | told _ hanswer hfree => exact Or.inr ⟨hfree, hanswer⟩

theorem accounts_after
    (moves : List (Move κ ν)) {p : Nat} {population : Population κ ν}
    (hp : (after moves).populations[p]? = some population) :
    Accounts moves p population := by
  induction moves generalizing population with
  | nil => simp [after] at hp
  | cons m earlier ih =>
    have hstep := step_move (sound_after earlier) m
    cases hold : (after earlier).populations[p]? with
    | none =>
      obtain ⟨-, w, hborn⟩ := hstep.born hp hold
      rw [hborn]
      constructor <;> nofun
    | some old =>
      obtain ⟨new, hnew, hchange⟩ := hstep.population hold
      obtain rfl : new = population := Option.some.inj (hnew.symm.trans hp)
      exact (ih hold).step hchange

/-- What a population has been told stays. -/
theorem Told.answer_eq
    {p : Nat} {answer : Outcome ν} {moves : List (Move κ ν)} (h : Told p answer moves) :
    ∃ population, (after moves).populations[p]? = some population ∧
      population.answer = some answer := by
  induction h with
  | @now key earlier h =>
    obtain ⟨population, hp, -⟩ := exists_of_open? h
    refine ⟨{ population with answer := some answer }, ?_, rfl⟩
    simp only [after, move, answer?, h, hp, Option.bind_eq_bind, Option.bind_some, Option.pure_def,
      Option.getD_some]
    exact (getElem?_setPopulation hp _ _).trans (if_pos rfl)
  | @before m earlier _ ih =>
    obtain ⟨old, hp, hanswer⟩ := ih
    obtain ⟨new, hnew, hstep⟩ := (step_move (sound_after earlier) m).population hp
    refine ⟨new, hnew, ?_⟩
    cases hstep with
    | answer _ hfree =>
      rw [hfree] at hanswer
      contradiction
    | same | doom | watch | start | conclude => exact hanswer

/-! ## Waiters over a run -/

/-- A waiter has been cancelled in a run while it was still waiting. -/
inductive Cancelled (w : Nat) : List (Move κ ν) → Prop
  | now {earlier : List (Move κ ν)} (h : ((after earlier).cancel w).2 = true) :
    Cancelled w (.cancel w :: earlier)
  | before {m : Move κ ν} {earlier : List (Move κ ν)} (h : Cancelled w earlier) :
    Cancelled w (m :: earlier)

/-- A waiter came to a population in a run: its first turn left the population in flight. -/
inductive Shares (w p : Nat) : List (Move κ ν) → Prop
  | now {place : Nat} {earlier : List (Move κ ν)} {waiter : Waiter κ ν}
    (hask : (after earlier).agenda[place]? = some (.ask w))
    (hw : (after earlier).waiters[w]? = some waiter) (hfree : waiter.doomed = false)
    (hflight : (waiter.key, p) ∈ (after (.turn place :: earlier)).inflight) :
    Shares w p (.turn place :: earlier)
  | before {m : Move κ ν} {earlier : List (Move κ ν)} (h : Shares w p earlier) :
    Shares w p (m :: earlier)

/-- A waiter that nobody has cancelled has only been told what its population ended with. -/
structure Fair (s : State κ ν) (waiter : Waiter κ ν) : Prop where
  doomed : waiter.doomed = false
  told : ∀ p answer, waiter.joined = some p → waiter.answer = some answer →
    ∃ key, s.Ends p key (some answer)
  woken : ∀ p outcome, waiter.joined = some p → waiter.outcome = some outcome →
    waiter.answer = some outcome

theorem Fair.step
    (hs : s.Sound) {m : Move κ ν} (hstep : Step s m t) {w : Nat} {old new : Waiter κ ν}
    (hw : s.waiters[w]? = some old) (h : Fair s old)
    (hcancel : m = .cancel w → (s.cancel w).2 = false) (hchange : WaiterStep s m w old new) :
    Fair t new := by
  have hbefore : Fair t old := by
    refine { h with told := ?_ }
    intro p answer hjoined hanswer
    obtain ⟨key, hend⟩ := h.told p answer hjoined hanswer
    exact ⟨key, hstep.ends hend⟩
  cases hchange with
  | same => exact hbefore
  | withdraw hm hlate | doom hm hlate =>
    rw [hcancel hm] at hlate
    contradiction
  | serve _ hunjoined =>
    refine { hbefore with woken := ?_ }
    intro p outcome hjoined
    rw [hunjoined] at hjoined
    contradiction
  | join hopen hunjoined =>
    have hanswer := hs.linked.unjoined w old hw hunjoined
    refine { hbefore with told := ?_, woken := ?_ }
    · rw [hanswer]
      nofun
    · rw [hopen]
      nofun
  | @tell p key outcome hjoined hopen hend =>
    refine { hbefore with told := ?_, woken := ?_ }
    · rintro q answer hq ⟨⟩
      obtain rfl := Option.some.inj (hjoined.symm.trans hq)
      exact ⟨key, hstep.ends hend⟩
    · rw [hopen]
      nofun
  | wake _ hanswer =>
    refine { hbefore with woken := ?_ }
    rintro p outcome - ⟨⟩
    rw [h.doomed]
    exact hanswer

theorem fair_after
    (moves : List (Move κ ν)) {w : Nat} {waiter : Waiter κ ν}
    (hw : (after moves).waiters[w]? = some waiter) (hfree : ¬Cancelled w moves) :
    Fair (after moves) waiter := by
  induction moves generalizing waiter with
  | nil => simp [after] at hw
  | cons m earlier ih =>
    have hstep := step_move (sound_after earlier) m
    cases hold : (after earlier).waiters[w]? with
    | none =>
      rw [hstep.arrived hw hold]
      constructor
      · rfl
      · nofun
      · nofun
    | some old =>
      obtain ⟨new, hnew, hchange⟩ := hstep.waiter (sound_after earlier) hold
      obtain rfl : new = waiter := Option.some.inj (hnew.symm.trans hw)
      refine (ih hold fun h => hfree h.before).step (sound_after earlier) hstep hold ?_ hchange
      rintro rfl
      exact Bool.eq_false_iff.mpr fun h => hfree (.now h)

/-- A waiter who came to a population waits for it or has got its outcome. -/
theorem Shares.exists_waiter
    {w p : Nat} {moves : List (Move κ ν)} (h : Shares w p moves) :
    ∃ waiter outcome, (after moves).waiters[w]? = some waiter ∧
      (after moves).Ends p waiter.key outcome ∧
      (waiter.joined = some p ∨ outcome ≠ none ∧ waiter.outcome = outcome) := by
  induction h with
  | @now place earlier waiter hask hw hfree hflight =>
    have hs := sound_after earlier
    have ht := sound_after (.turn place :: earlier)
    obtain ⟨o, hend⟩ := ht.ledger.entry _ _ hflight
    have hstep := step_move hs (.turn place)
    rcases hstep.ask hask hw with
      ⟨outcome, hanswers, hinflight, -, hnew⟩ | ⟨q, hq, hinflight, hnew⟩ |
      ⟨hpeek, hnone, hinflight, -, hnew⟩
    · have hbefore : (waiter.key, p) ∈ (after earlier).inflight := hinflight ▸ hflight
      cases hanswers with
      | cancelled hdoomed =>
        rw [hfree] at hdoomed
        contradiction
      | stored _ hstored =>
        rw [hs.ledger.apart _ _ hbefore] at hstored
        contradiction
      | ended _ hq hended =>
        obtain rfl := hs.ledger.eq_of_mem_inflight hq hbefore
        exact ⟨_, _, hnew, hstep.ends hended, Or.inr ⟨nofun, rfl⟩⟩
    · obtain rfl := hs.ledger.eq_of_mem_inflight hq (hinflight ▸ hflight)
      exact ⟨_, o, hnew, hend, Or.inl rfl⟩
    · have hmem : (waiter.key, p) ∈ (after earlier).inflight ++
          [(waiter.key, (after earlier).populations.size)] := hinflight ▸ hflight
      rcases List.mem_append.mp hmem with hmem | hmem
      · exact absurd hmem (Ledger.lookup_eq_none_iff.mp hnone p)
      · obtain ⟨⟩ := List.mem_singleton.mp hmem
        exact ⟨_, o, hnew, hend, Or.inl rfl⟩
  | @before m earlier _ ih =>
    obtain ⟨old, outcome, hold, hend, hgets⟩ := ih
    have hs := sound_after earlier
    have hstep := step_move hs m
    obtain ⟨new, hnew, hchange⟩ := hstep.waiter hs hold
    have hkey : new.key = old.key := by
      cases hchange with
      | _ => rfl
    rcases hgets with hjoined | ⟨hended, hgot⟩
    · obtain ⟨outcome', hend'⟩ := hstep.exists_ends hend
      refine ⟨new, outcome', hnew, hkey ▸ hend', Or.inl ?_⟩
      cases hchange with
      | join _ hunjoined =>
        rw [hunjoined] at hjoined
        contradiction
      | same | withdraw | doom | serve | tell | wake => exact hjoined
    · obtain ⟨o, rfl⟩ := Option.ne_none_iff_exists'.mp hended
      refine ⟨new, some o, hnew, hkey ▸ hstep.ends hend, Or.inr ⟨hended, ?_⟩⟩
      cases hchange with
      | serve hopen | join hopen | tell _ hopen | wake hopen =>
        rw [hopen] at hgot
        contradiction
      | same | withdraw | doom => exact hgot

end SolidWorkshop.Flight.State
