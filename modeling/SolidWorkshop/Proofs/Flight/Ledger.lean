import Mathlib.Data.List.Nodup
import SolidWorkshop.Proofs.Flight.Links

/-!
# The ledger of a single flight

The store, the flights in progress and the ends of the populations agree, and every move keeps it
that way.  Only three steps change anything: a population is started, it ends, and its end is
taken up.
-/

namespace SolidWorkshop.Flight.State

variable {κ ν : Type} {s t : State κ ν}

theorem value?_eq_some_iff
    {outcome : Option (Outcome ν)} {v : ν} :
    value? outcome = some v ↔ outcome = some (.value v) := by
  constructor
  · intro h
    unfold value? at h
    split at h
    · rw [Option.some.inj h]
    · contradiction
  · rintro rfl
    rfl

variable [DecidableEq κ]

/-- Only the store and how populations ended matter. -/
theorem Ledger.of_ends
    (hs : s.Ledger) (hvalues : t.values = s.values) (hinflight : t.inflight = s.inflight)
    (hends : ∀ p key outcome, t.Ends p key outcome ↔ s.Ends p key outcome) :
    t.Ledger := by
  have hpeek : ∀ key, t.peek? key = s.peek? key := by
    intro key
    rw [peek?, hvalues, peek?]
  constructor
  · rw [hinflight]
    exact hs.keys
  · intro key p
    simp only [hinflight, hends]
    exact hs.entry key p
  · intro key p
    simp only [hinflight, hends]
    exact hs.running key p
  · intro key p
    simp only [hinflight, hpeek]
    exact hs.apart key p
  · intro key p v
    simp only [hinflight, hends, hpeek]
    exact hs.kept key p v
  · intro key v
    simp only [hends, hpeek]
    exact hs.found key v
  · intro key q
    simp only [hinflight, hends]
    exact hs.latest key q
  · intro key q v
    simp only [hends]
    exact hs.last key q v

/-- A population goes on as it is, as far as the store can tell. -/
theorem Ledger.of_population
    (hs : s.Ledger) {p : Nat} {old population : Population κ ν}
    (hp : s.populations[p]? = some old)
    (hpopulations : t.populations = (s.setPopulation p population).populations)
    (hkey : population.key = old.key) (houtcome : population.outcome = old.outcome)
    (hvalues : t.values = s.values) (hinflight : t.inflight = s.inflight) :
    t.Ledger := by
  refine hs.of_ends hvalues hinflight ?_
  intro q key outcome
  rw [ends_of_populations hpopulations, ends_setPopulation_iff hp]
  split_ifs with hq
  · rw [← hq, ends_iff hp, hkey, houtcome]
  · rfl

theorem lookup_store (values : List (κ × ν)) (key : κ) (v : ν) (other : κ) :
    (store key v values).lookup other = if key = other then some v else values.lookup other := by
  induction values with
  | nil =>
    by_cases hother : key = other
    · simp [store, hother]
    · have hne : (other == key) = false := beq_false_of_ne fun h => hother h.symm
      simp [store, hother, List.lookup_cons, hne]
  | cons entry rest ih =>
    obtain ⟨k, old⟩ := entry
    unfold store
    split_ifs with hk hother hother
    · simp [hk, hother]
    · have hne : (other == k) = false := beq_false_of_ne fun h => hother (hk ▸ h.symm)
      simp [List.lookup_cons, hne]
    · have hne : (other == k) = false := beq_false_of_ne fun h => hk (hother ▸ h.symm)
      rw [List.lookup_cons, hne, ih, if_pos hother]
    · rw [List.lookup_cons, List.lookup_cons, ih, if_neg hother]

/-- A key that is not in flight is in no entry. -/
theorem Ledger.lookup_eq_none_iff {key : κ} :
    s.inflight.lookup key = none ↔ ∀ p, (key, p) ∉ s.inflight := by
  rw [List.lookup_eq_none_iff]
  constructor
  · intro h p hmem
    simpa using h _ hmem
  · rintro h ⟨k, p⟩ hmem
    rw [bne_iff_ne]
    rintro rfl
    exact h p hmem

/-- Of a key one population is in flight. -/
theorem Ledger.eq_of_mem_inflight
    (hs : s.Ledger) {key : κ} {p q : Nat} (hp : (key, p) ∈ s.inflight)
    (hq : (key, q) ∈ s.inflight) :
    p = q := by
  have hsame := List.inj_on_of_nodup_map hs.keys hp hq rfl
  exact (Prod.mk.inj hsame).2

/-- A population is started for a key that is neither stored nor in flight.  No population of the
key has ended with a value, since this would be stored or in flight. -/
theorem Ledger.start
    (hs : s.Ledger) {key : κ} (hpeek : s.peek? key = none)
    (hflight : s.inflight.lookup key = none) (hvalues : t.values = s.values)
    (hinflight : t.inflight = s.inflight ++ [(key, s.populations.size)])
    (hends : ∀ p k outcome, t.Ends p k outcome ↔
      s.Ends p k outcome ∨ p = s.populations.size ∧ k = key ∧ outcome = none) :
    t.Ledger := by
  have hpeeks : ∀ k, t.peek? k = s.peek? k := by
    intro k
    rw [peek?, hvalues, peek?]
  have hnone := Ledger.lookup_eq_none_iff.mp hflight
  have hbelow : ∀ p k outcome, s.Ends p k outcome → p < s.populations.size := by
    rintro p k outcome ⟨population, hp, -⟩
    exact (Array.getElem?_eq_some_iff.mp hp).1
  have hfruitless : ∀ p v, ¬s.Ends p key (some (.value v)) := by
    intro p v hend
    rcases hs.kept key p v hend with hmem | hstored
    · exact hnone p hmem
    · rw [hpeek] at hstored
      contradiction
  constructor
  · rw [hinflight, List.map_append, List.nodup_append]
    refine ⟨hs.keys, by simp, ?_⟩
    intro k hk k' hk' heq
    obtain ⟨⟨_, p⟩, hmem, rfl⟩ := List.mem_map.mp hk
    obtain rfl : k' = key := by simpa using hk'
    exact hnone p (heq ▸ hmem)
  · intro k p hmem
    simp only [hinflight, List.mem_append, List.mem_singleton, Prod.mk.injEq] at hmem
    rcases hmem with hmem | ⟨rfl, rfl⟩
    · obtain ⟨outcome, hend⟩ := hs.entry k p hmem
      exact ⟨outcome, (hends _ _ _).mpr (Or.inl hend)⟩
    · exact ⟨none, (hends _ _ _).mpr (Or.inr ⟨rfl, rfl, rfl⟩)⟩
  · intro k p hend
    rw [hinflight]
    rcases (hends _ _ _).mp hend with hend | ⟨rfl, rfl, -⟩
    · exact List.mem_append_left _ (hs.running k p hend)
    · simp
  · intro k p hmem
    rw [hpeeks]
    simp only [hinflight, List.mem_append, List.mem_singleton, Prod.mk.injEq] at hmem
    rcases hmem with hmem | ⟨rfl, -⟩
    · exact hs.apart k p hmem
    · exact hpeek
  · intro k p v hend
    rw [hpeeks, hinflight]
    rcases (hends _ _ _).mp hend with hend | ⟨-, -, hnever⟩
    · exact (hs.kept k p v hend).imp_left (List.mem_append_left _)
    · contradiction
  · intro k v hstored
    rw [hpeeks] at hstored
    obtain ⟨p, hend⟩ := hs.found k v hstored
    exact ⟨p, (hends _ _ _).mpr (Or.inl hend)⟩
  · intro k q hmem p outcome hend
    simp only [hinflight, List.mem_append, List.mem_singleton, Prod.mk.injEq] at hmem
    rcases hmem with hmem | ⟨rfl, rfl⟩
    · rcases (hends _ _ _).mp hend with hend | ⟨-, rfl, -⟩
      · exact hs.latest k q hmem p outcome hend
      · exact absurd hmem (hnone q)
    · rcases (hends _ _ _).mp hend with hend | ⟨rfl, -⟩
      · exact Nat.le_of_lt (hbelow p k outcome hend)
      · exact Nat.le_refl _
  · intro k q v hvalue p outcome hend
    rcases (hends _ _ _).mp hvalue with hvalue | ⟨-, -, hnever⟩
    · rcases (hends _ _ _).mp hend with hend | ⟨-, rfl, -⟩
      · exact hs.last k q v hvalue p outcome hend
      · exact absurd hvalue (hfruitless q v)
    · contradiction

/-- A running population ends. -/
theorem Ledger.conclude
    (hs : s.Ledger) {p : Nat} {key : κ} (outcome : Outcome ν) (hrunning : s.Ends p key none)
    (hvalues : t.values = s.values) (hinflight : t.inflight = s.inflight)
    (hends : ∀ q k o, t.Ends q k o ↔
      if p = q then key = k ∧ some outcome = o else s.Ends q k o) :
    t.Ledger := by
  have hpeeks : ∀ k, t.peek? k = s.peek? k := by
    intro k
    rw [peek?, hvalues, peek?]
  have hflight := hs.running key p hrunning
  have hbefore : ∀ q k o, t.Ends q k o → ∃ o', s.Ends q k o' := by
    intro q k o hend
    rw [hends] at hend
    split_ifs at hend with hq
    · obtain ⟨rfl, -⟩ := hend
      exact ⟨none, hq ▸ hrunning⟩
    · exact ⟨o, hend⟩
  constructor
  · rw [hinflight]
    exact hs.keys
  · intro k q hmem
    rw [hinflight] at hmem
    obtain ⟨o, hend⟩ := hs.entry k q hmem
    by_cases hq : p = q
    · obtain rfl := hq
      obtain ⟨rfl, -⟩ := hend.unique hrunning
      exact ⟨some outcome, by simp [hends]⟩
    · exact ⟨o, by simpa [hends, hq] using hend⟩
  · intro k q hend
    rw [hends] at hend
    rw [hinflight]
    split_ifs at hend with hq
    · exact absurd hend.2 nofun
    · exact hs.running k q hend
  · intro k q hmem
    rw [hinflight] at hmem
    rw [hpeeks]
    exact hs.apart k q hmem
  · intro k q v hend
    rw [hends] at hend
    rw [hpeeks, hinflight]
    split_ifs at hend with hq
    · obtain ⟨rfl, -⟩ := hend
      exact Or.inl (hq ▸ hflight)
    · exact hs.kept k q v hend
  · intro k v hstored
    rw [hpeeks] at hstored
    obtain ⟨q, hend⟩ := hs.found k v hstored
    refine ⟨q, ?_⟩
    rw [hends, if_neg]
    · exact hend
    · rintro rfl
      exact absurd (hend.unique hrunning).2 nofun
  · intro k q hmem r o hend
    rw [hinflight] at hmem
    obtain ⟨o', hend'⟩ := hbefore r k o hend
    exact hs.latest k q hmem r o' hend'
  · intro k q v hvalue r o hend
    obtain ⟨o', hend'⟩ := hbefore r k o hend
    rw [hends] at hvalue
    split_ifs at hvalue with hq
    · obtain ⟨rfl, -⟩ := hvalue
      exact hs.latest key q (hq ▸ hflight) r o' hend'
    · exact hs.last k q v hvalue r o' hend'

/-- The store takes up how a population in flight ended. -/
theorem Ledger.settle
    (hs : s.Ledger) {p : Nat} {key : κ} {outcome : Option (Outcome ν)}
    (hend : s.Ends p key outcome) (hended : outcome ≠ none) (hflight : (key, p) ∈ s.inflight)
    (hvalues : ∀ k, t.peek? k = if key = k then value? outcome else s.peek? k)
    (hinflight : t.inflight = s.inflight.filter fun entry => entry != (key, p))
    (hends : ∀ q k o, t.Ends q k o ↔ s.Ends q k o) :
    t.Ledger := by
  have hmem : ∀ k q, (k, q) ∈ t.inflight ↔ (k, q) ∈ s.inflight ∧ ¬(k = key ∧ q = p) := by
    intro k q
    simp [hinflight]
  have honly : ∀ q, (key, q) ∈ s.inflight → q = p := by
    intro q hq
    exact hs.eq_of_mem_inflight hq hflight
  constructor
  · rw [hinflight]
    exact hs.keys.sublist (List.filter_sublist.map _)
  · intro k q hq
    obtain ⟨o, h⟩ := hs.entry k q ((hmem k q).mp hq).1
    exact ⟨o, (hends _ _ _).mpr h⟩
  · intro k q hrunning
    rw [hends] at hrunning
    refine (hmem k q).mpr ⟨hs.running k q hrunning, ?_⟩
    rintro ⟨rfl, rfl⟩
    exact hended (hend.unique hrunning).2
  · intro k q hq
    obtain ⟨hq, hne⟩ := (hmem k q).mp hq
    rw [hvalues, if_neg]
    · exact hs.apart k q hq
    · rintro rfl
      exact hne ⟨rfl, honly q hq⟩
  · intro k q v hvalue
    rw [hends] at hvalue
    rw [hvalues, hmem]
    split_ifs with hk
    · obtain rfl := hk
      rcases hs.kept key q v hvalue with hq | hstored
      · obtain rfl := honly q hq
        exact Or.inr (value?_eq_some_iff.mpr (hend.unique hvalue).2)
      · rw [hs.apart key p hflight] at hstored
        contradiction
    · refine (hs.kept k q v hvalue).imp_left fun hq => ⟨hq, ?_⟩
      rintro ⟨rfl, -⟩
      exact hk rfl
  · intro k v hstored
    rw [hvalues] at hstored
    simp only [hends]
    split_ifs at hstored with hk
    · obtain rfl := hk
      exact ⟨p, value?_eq_some_iff.mp hstored ▸ hend⟩
    · exact hs.found k v hstored
  · intro k q hq r o h
    rw [hends] at h
    exact hs.latest k q ((hmem k q).mp hq).1 r o h
  · intro k q v hvalue r o h
    rw [hends] at hvalue h
    exact hs.last k q v hvalue r o h

theorem peek?_settleTurn
    (p : Nat) {population : Population κ ν} (hpeek : s.peek? population.key = none) (key : κ) :
    (s.settleTurn p population).peek? key =
      if population.key = key then value? population.outcome else s.peek? key := by
  rw [settleTurn_eq, peek?]
  cases value? population.outcome with
  | none =>
    split_ifs with hkey
    · rw [← hkey]
      exact hpeek
    · rfl
  | some v => exact lookup_store s.values population.key v key

theorem Ledger.step
    (hs : s.Sound) {m : Move κ ν} (h : Step s m t) :
    t.Ledger := by
  cases h with
  | idle => exact hs.ledger
  | get key => exact hs.ledger.of_ends rfl rfl (ends_of_populations rfl)
  | withdraw => exact hs.ledger.of_ends rfl rfl (ends_of_populations rfl)
  | doomWaiter => exact hs.ledger.of_ends rfl rfl (ends_of_populations rfl)
  | answer hp => exact hs.ledger.of_population hp rfl rfl rfl rfl rfl
  | doomPopulation hp => exact hs.ledger.of_population hp rfl rfl rfl rfl rfl
  | serve => exact hs.ledger.of_ends rfl rfl (ends_of_populations rfl)
  | join _ _ _ _ _ _ hp => exact hs.ledger.of_population hp rfl rfl rfl rfl rfl
  | start _ hw _ _ _ hpeek hflight =>
    refine hs.ledger.start hpeek hflight rfl rfl ?_
    intro p k outcome
    simp only [Ends, getElem?_push_eq_some_iff]
    constructor
    · rintro ⟨population, hp | ⟨rfl, rfl⟩, rfl, rfl⟩
      · exact Or.inl ⟨population, hp, rfl, rfl⟩
      · exact Or.inr ⟨rfl, rfl, rfl⟩
    · rintro (⟨population, hp, rfl, rfl⟩ | ⟨rfl, rfl, rfl⟩)
      · exact ⟨population, Or.inl hp, rfl, rfl⟩
      · exact ⟨_, Or.inr ⟨rfl, rfl⟩, rfl, rfl⟩
  | populate _ hp => exact hs.ledger.of_population hp rfl rfl rfl rfl rfl
  | @conclude p population _ outcome before later _ hp hrunning =>
    refine hs.ledger.conclude outcome ⟨population, hp, rfl, hrunning⟩ rfl rfl ?_
    intro q k o
    exact ends_setPopulation_iff (s := { s with agenda := before ++ later }) hp
  | @settle p population outcome before later _ hp hended hflight =>
    refine hs.ledger.settle ⟨population, hp, rfl, rfl⟩ (by simp [hended]) hflight
      (peek?_settleTurn (s := { s with agenda := before ++ later }) p (hs.ledger.apart _ _ hflight))
      ?_ ?_
    · rw [settleTurn_eq]
    · intro q k o
      rw [settleTurn_eq]
      rfl
  | tell => exact hs.ledger.of_ends rfl rfl (ends_of_populations rfl)
  | passBy => exact hs.ledger.of_ends rfl rfl (ends_of_populations rfl)
  | wake => exact hs.ledger.of_ends rfl rfl (ends_of_populations rfl)

end SolidWorkshop.Flight.State
