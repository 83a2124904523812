import Mathlib.Tactic.Ring
import SolidWorkshop.Number.Decimal

/-!
# Rounding to doubles

Around every double lies the interval of numbers that are rounded to it.  The interval that the
decimal texts are chosen from is this one: a ratio inside it is read as the double in its middle.
-/

namespace SolidWorkshop

/-- A quotient at most a half away from a whole number is rounded to it, when a tie has the even
neighbour there. -/
theorem roundHalfEven_eq
    {num den m : Nat} (hden : 0 < den) (hlow : 2 * (m * den) ≤ 2 * num + den)
    (hhigh : 2 * num ≤ 2 * (m * den) + den)
    (htie : 2 * (m * den) = 2 * num + den ∨ 2 * num = 2 * (m * den) + den → m % 2 = 0) :
    roundHalfEven num den = m := by
  have hdiv : num / den * den + num % den = num := by
    rw [Nat.mul_comm]
    exact Nat.div_add_mod num den
  have hmod : num % den < den := Nat.mod_lt num hden
  have hupper : m ≤ num / den + 1 := by
    by_contra h
    have hmul : (num / den + 2) * den ≤ m * den := Nat.mul_le_mul_right den (by omega)
    rw [Nat.add_mul] at hmul
    omega
  have hlower : num / den ≤ m := by
    by_contra h
    have hmul : (m + 1) * den ≤ num / den * den := Nat.mul_le_mul_right den (by omega)
    rw [Nat.add_mul] at hmul
    omega
  unfold roundHalfEven
  rcases Nat.lt_or_ge (num / den) m with hlt | hge
  · obtain rfl : m = num / den + 1 := by omega
    rw [Nat.add_mul] at hlow hhigh htie
    dsimp only
    split_ifs with hbelow habove
    · omega
    · rfl
    · have heven := htie (Or.inl (by omega))
      omega
  · obtain rfl : m = num / den := by omega
    dsimp only
    split_ifs with hbelow habove
    · rfl
    · omega
    · have heven := htie (Or.inr (by omega))
      omega

theorem roundHalfEven_le (num den : Nat) : roundHalfEven num den ≤ num / den + 1 := by
  unfold roundHalfEven
  dsimp only
  split_ifs
  · omega
  · omega
  · omega

/-- Rounding moves a quotient by a half at most. -/
theorem roundHalfEven_near
    (num : Nat) {den : Nat} (hden : 0 < den) :
    2 * num ≤ 2 * (roundHalfEven num den * den) + den ∧
      2 * (roundHalfEven num den * den) ≤ 2 * num + den := by
  have hdiv : num / den * den + num % den = num := by
    rw [Nat.mul_comm]
    exact Nat.div_add_mod num den
  have hmod : num % den < den := Nat.mod_lt num hden
  unfold roundHalfEven
  dsimp only
  split_ifs with hbelow habove
  · omega
  · rw [Nat.add_mul]
    omega
  · rcases Nat.mod_two_eq_zero_or_one (num / den) with heven | hodd
    · rw [heven, Nat.add_zero]
      omega
    · rw [hodd, Nat.add_mul]
      omega

namespace Binary64

theorem one_units_pos : 0 < one := by
  decide +kernel

/-- The distance from a count of units to the next larger double. -/
def step (units : Nat) : Nat :=
  2 ^ (units.log2 - 52)

theorem step_pos (units : Nat) : 0 < step units :=
  Nat.two_pow_pos _

/-- The ratio of two numbers lies in the interval of numbers that round to a count of units. -/
structure RoundsTo (num den units : Nat) : Prop where
  low : (Decimal.roundingInterval units).1 * den ≤ 4 * (num * one)
  high : 4 * (num * one) ≤ (Decimal.roundingInterval units).2.1 * den
  /-- The ends belong to the interval of an even significand only. -/
  ends : (Decimal.roundingInterval units).1 * den = 4 * (num * one) ∨
      4 * (num * one) = (Decimal.roundingInterval units).2.1 * den →
    units / step units % 2 = 0

/-- The interval reaches half a step up and half a step down, or a quarter of a step down where
the doubles become denser. -/
theorem roundingInterval_eq (units : Nat) :
    (Decimal.roundingInterval units).1 =
        4 * units - (if 52 < units.log2 ∧ units = 2 ^ units.log2 then step units
          else 2 * step units) ∧
      (Decimal.roundingInterval units).2.1 = 4 * units + 2 * step units ∧
      (Decimal.roundingInterval units).2.2 = (units / step units % 2 == 0) := by
  simp [Decimal.roundingInterval, step]

/-- No finite double reaches `10 ^ 310`. -/
theorem Fits.lt_bound
    {units : Nat} (h : Fits units) :
    units < 10 ^ 310 * one := by
  have hlt : units < 2 ^ (units.log2 + 1) := Nat.lt_log2_self
  have hle : 2 ^ (units.log2 + 1) ≤ 2 ^ 2098 := Nat.pow_le_pow_right (by omega) h.1
  have hrange : 2 ^ 2098 ≤ 10 ^ 310 * one := by decide +kernel
  exact Nat.lt_of_lt_of_le hlt (Nat.le_trans hle hrange)

/-- A finite double is a significand of at most 53 binary digits, in steps. -/
theorem Fits.exists_significand
    {units : Nat} (hfits : Fits units) (hpos : 0 < units) :
    ∃ m, units = m * step units ∧ units / step units = m ∧ 0 < m ∧ m < 2 ^ 53 ∧
      (52 ≤ units.log2 → 2 ^ 52 ≤ m) := by
  have hmod : units % step units = 0 := hfits.2
  have hm : units = units / step units * step units :=
    (Nat.div_mul_cancel (Nat.dvd_of_mod_eq_zero hmod)).symm
  have hlt : units < 2 ^ (units.log2 + 1) := Nat.lt_log2_self
  have hle : 2 ^ units.log2 ≤ units := Nat.log2_self_le (by omega)
  refine ⟨units / step units, hm, rfl, ?_, ?_, ?_⟩
  · rw [Nat.pos_iff_ne_zero]
    intro hzero
    rw [hzero, Nat.zero_mul] at hm
    omega
  · apply Nat.div_lt_of_lt_mul
    apply Nat.lt_of_lt_of_le hlt
    rw [step, ← Nat.pow_add]
    exact Nat.pow_le_pow_right (by omega) (by omega)
  · intro hnormal
    rw [Nat.le_div_iff_mul_le (step_pos units), step, ← Nat.pow_add]
    have hexp : 52 + (units.log2 - 52) = units.log2 := by omega
    rwa [hexp]

/-- The interval asks for the value of a ratio, not for its terms. -/
theorem RoundsTo.of_ratio_eq
    {num den num' den' units : Nat} (h : RoundsTo num den units) (hden : 0 < den)
    (hden' : 0 < den') (hratio : num * den' = num' * den) :
    RoundsTo num' den' units := by
  have hscaled : 4 * (num * one) * den' = 4 * (num' * one) * den := by
    calc
      4 * (num * one) * den' = 4 * one * (num * den') := by ring
      _ = 4 * one * (num' * den) := by rw [hratio]
      _ = 4 * (num' * one) * den := by ring
  have hend : ∀ a : Nat, a * den' * den = a * den * den' := fun a => Nat.mul_right_comm ..
  refine ⟨?_, ?_, ?_⟩
  · apply Nat.le_of_mul_le_mul_right _ hden
    rw [hend, ← hscaled]
    exact Nat.mul_le_mul_right den' h.low
  · apply Nat.le_of_mul_le_mul_right _ hden
    rw [hend, ← hscaled]
    exact Nat.mul_le_mul_right den' h.high
  · rintro (hlow | hhigh)
    · apply h.ends
      left
      apply Nat.eq_of_mul_eq_mul_right hden'
      rw [hscaled, ← hend, hlow]
    · apply h.ends
      right
      apply Nat.eq_of_mul_eq_mul_right hden'
      rw [hscaled, ← hend, hhigh]

/-- Membership in the interval, tested as the decimal texts are. -/
theorem roundsTo_iff
    {num den units : Nat} :
    RoundsTo num den units ↔
      if (Decimal.roundingInterval units).2.2 = true then
        (Decimal.roundingInterval units).1 * den ≤ 4 * (num * one) ∧
          4 * (num * one) ≤ (Decimal.roundingInterval units).2.1 * den
      else
        (Decimal.roundingInterval units).1 * den < 4 * (num * one) ∧
          4 * (num * one) < (Decimal.roundingInterval units).2.1 * den := by
  have hclosed := (roundingInterval_eq units).2.2
  split_ifs with hif
  · rw [hclosed, beq_iff_eq] at hif
    exact ⟨fun h => ⟨h.low, h.high⟩, fun h => ⟨h.1, h.2, fun _ => hif⟩⟩
  · rw [hclosed, beq_iff_eq] at hif
    constructor
    · intro h
      have hlow : (Decimal.roundingInterval units).1 * den ≠ 4 * (num * one) :=
        fun heq => hif (h.ends (Or.inl heq))
      have hhigh : 4 * (num * one) ≠ (Decimal.roundingInterval units).2.1 * den :=
        fun heq => hif (h.ends (Or.inr heq))
      exact ⟨Nat.lt_of_le_of_ne h.low hlow, Nat.lt_of_le_of_ne h.high hhigh⟩
    · rintro ⟨hlow, hhigh⟩
      exact ⟨Nat.le_of_lt hlow, Nat.le_of_lt hhigh, by omega⟩

theorem roundsTo_of_lt
    {num den units : Nat} (hlow : (Decimal.roundingInterval units).1 * den < 4 * (num * one))
    (hhigh : 4 * (num * one) < (Decimal.roundingInterval units).2.1 * den) :
    RoundsTo num den units :=
  ⟨Nat.le_of_lt hlow, Nat.le_of_lt hhigh, by omega⟩

instance (num den units : Nat) : Decidable (RoundsTo num den units) :=
  decidable_of_iff _ roundsTo_iff.symm

/-- The lower end of the interval, written without a cut-off difference. -/
theorem RoundsTo.low_le
    {num den units : Nat} (h : RoundsTo num den units) :
    4 * units * den ≤ 4 * (num * one) +
      (if 52 < units.log2 ∧ units = 2 ^ units.log2 then step units else 2 * step units) * den := by
  have hlow := h.low
  rw [(roundingInterval_eq units).1, Nat.sub_mul] at hlow
  omega

theorem RoundsTo.le_high
    {num den units : Nat} (h : RoundsTo num den units) :
    4 * (num * one) ≤ 4 * units * den + 2 * step units * den := by
  have hhigh := h.high
  rwa [(roundingInterval_eq units).2.1, Nat.add_mul] at hhigh

/-- A ratio in the interval is neither below half of the double nor above its double. -/
theorem RoundsTo.near
    {num den units : Nat} (h : RoundsTo num den units) (hfits : Fits units) (hpos : 0 < units) :
    units * den ≤ 2 * (num * one) ∧ num * one ≤ 2 * (units * den) := by
  obtain ⟨m, hm, -, hmpos, -⟩ := hfits.exists_significand hpos
  have hle : step units ≤ units := by
    calc
      step units ≤ m * step units := Nat.le_mul_of_pos_left _ hmpos
      _ = units := hm.symm
  have hmul : step units * den ≤ units * den := Nat.mul_le_mul_right den hle
  have hlow := h.low_le
  have hhigh := h.le_high
  rw [Nat.mul_assoc, Nat.mul_assoc] at hhigh
  rw [Nat.mul_assoc] at hlow
  constructor
  · split_ifs at hlow
    · omega
    · rw [Nat.mul_assoc] at hlow
      omega
  · omega

/-- In steps of the double itself, the ratio is rounded to the significand. -/
theorem RoundsTo.roundHalfEven_eq
    {num den units : Nat} (h : RoundsTo num den units) (hfits : Fits units) (hpos : 0 < units)
    (hden : 0 < den) :
    roundHalfEven (num * one) (den * step units) = units / step units := by
  obtain ⟨m, hm, hquotient, hmpos, -⟩ := hfits.exists_significand hpos
  have hstep : 0 < den * step units := Nat.mul_pos hden (step_pos units)
  have hunits : m * (den * step units) = units * den := by
    rw [Nat.mul_left_comm, ← hm, Nat.mul_comm]
  have hlow := h.low_le
  have hhigh := h.le_high
  have hends := h.ends
  rw [(roundingInterval_eq units).1, (roundingInterval_eq units).2.1, hquotient] at hends
  have hfour : 4 * units * den = 4 * (units * den) := Nat.mul_assoc ..
  have htwo : 2 * step units * den = 2 * (den * step units) := by ring
  have hbelow : (if 52 < units.log2 ∧ units = 2 ^ units.log2 then step units
      else 2 * step units) * den ≤ 2 * (den * step units) := by
    split_ifs
    · rw [Nat.mul_comm]
      omega
    · omega
  rw [hquotient]
  apply SolidWorkshop.roundHalfEven_eq hstep
  · omega
  · omega
  · rintro (hdown | hup)
    · apply hends
      left
      rw [Nat.sub_mul]
      split_ifs at hlow hbelow ⊢ with hdense
      · have hone : step units * den = den * step units := Nat.mul_comm ..
        omega
      · have hle : 2 * step units * den ≤ 4 * units * den := by
          rw [htwo, hfour, ← hunits]
          have := Nat.mul_le_mul_right (den * step units) hmpos
          omega
        omega
    · apply hends
      right
      rw [Nat.add_mul]
      omega

theorem step_of_log2_le {units : Nat} (h : units.log2 ≤ 52) : step units = 1 := by
  rw [step, Nat.sub_eq_zero_of_le h, Nat.pow_zero]

/-- A double and the step after it do not reach beyond the next power of two. -/
theorem Fits.add_step_le
    {units : Nat} (hfits : Fits units) (hpos : 0 < units) :
    units + step units ≤ 2 ^ (units.log2 + 1) := by
  rcases Nat.lt_or_ge units.log2 52 with hsmall | hnormal
  · rw [step_of_log2_le (by omega)]
    exact Nat.lt_log2_self
  · obtain ⟨m, hm, -, -, hlt, -⟩ := hfits.exists_significand hpos
    calc
      units + step units = (m + 1) * step units := by rw [Nat.add_mul, ← hm, Nat.one_mul]
      _ ≤ 2 ^ 53 * step units := Nat.mul_le_mul_right _ hlt
      _ = 2 ^ (units.log2 + 1) := by
        rw [step, ← Nat.pow_add]
        congr 1
        omega

/-- The number before the rounding stays below the next power of two. -/
theorem RoundsTo.div_lt
    {num den units : Nat} (h : RoundsTo num den units) (hfits : Fits units) (hpos : 0 < units)
    (hden : 0 < den) :
    num * one / den < 2 ^ (units.log2 + 1) := by
  have hstep := step_pos units
  have hadd := hfits.add_step_le hpos
  rw [Nat.div_lt_iff_lt_mul hden]
  calc
    num * one < (units + step units) * den := by
      have hhigh := h.le_high
      have hmul : 0 < step units * den := Nat.mul_pos hstep hden
      rw [Nat.mul_assoc, Nat.mul_assoc] at hhigh
      rw [Nat.add_mul]
      omega
    _ ≤ 2 ^ (units.log2 + 1) * den := Nat.mul_le_mul_right den hadd

/-- Below a double's own power of two the doubles are half as far apart; a number that comes
out there belongs to the power of two itself. -/
theorem RoundsTo.eq_pow
    {num den units : Nat} (h : RoundsTo num den units) (hfits : Fits units) (hpos : 0 < units)
    (hden : 0 < den) (hlog : 52 < units.log2) (hbelow : num * one < 2 ^ units.log2 * den) :
    units = 2 ^ units.log2 := by
  obtain ⟨m, hm, -, -, -, hnormal⟩ := hfits.exists_significand hpos
  have hlow := h.low_le
  have hpower : 2 ^ 52 * step units = 2 ^ units.log2 := by
    rw [step, ← Nat.pow_add]
    congr 1
    omega
  by_contra hne
  rw [if_neg fun hboth => hne hboth.2] at hlow
  have hsignificand : 2 ^ 52 + 1 ≤ m := by
    have hle := hnormal (by omega)
    have hne' : m ≠ 2 ^ 52 := by
      intro heq
      rw [heq, hpower] at hm
      exact hne hm
    omega
  have hunits : 2 ^ units.log2 + step units ≤ units := by
    have hmul : (2 ^ 52 + 1) * step units ≤ m * step units :=
      Nat.mul_le_mul_right _ hsignificand
    rw [Nat.add_mul, hpower, ← hm] at hmul
    omega
  have hmul : (2 ^ units.log2 + step units) * den ≤ units * den := Nat.mul_le_mul_right den hunits
  have hstep : 0 < step units * den := Nat.mul_pos (step_pos units) hden
  rw [Nat.add_mul] at hmul
  rw [Nat.mul_assoc, Nat.mul_assoc] at hlow
  omega

/-- Just below a power of two the rounding goes in half steps, up to the power itself. -/
theorem RoundsTo.round_up_to_pow
    {num den units : Nat} (h : RoundsTo num den units) (hden : 0 < den) (hlog : 52 < units.log2)
    (hpow : units = 2 ^ units.log2) (hbelow : num * one < units * den) :
    (num * one / den).log2 = units.log2 - 1 ∧
      roundHalfEven (num * one) (den * 2 ^ (units.log2 - 53)) = 2 ^ 53 := by
  have hlow := h.low_le
  obtain ⟨k, hk⟩ : ∃ k, units.log2 = k + 53 := ⟨units.log2 - 53, by omega⟩
  have hstep : step units = 2 * 2 ^ k := by
    rw [step, hk, Nat.mul_comm, ← Nat.pow_succ]
    congr 1
  have hunits : units = 2 ^ 53 * 2 ^ k := by
    rw [← Nat.pow_add, Nat.add_comm, ← hk]
    exact hpow
  have hmul : units * den = 2 ^ 53 * (den * 2 ^ k) := by
    rw [hunits]
    ring
  have hhalf : step units * den = 2 * (den * 2 ^ k) := by
    rw [hstep]
    ring
  have hpositive : 0 < den * 2 ^ k := Nat.mul_pos hden (Nat.two_pow_pos k)
  rw [if_pos ⟨hlog, hpow⟩, Nat.mul_assoc, hmul, hhalf] at hlow
  rw [hmul] at hbelow
  constructor
  · have hreach : 2 ^ (units.log2 - 1) ≤ num * one / den := by
      rw [Nat.le_div_iff_mul_le hden, hk]
      have hhalf' : 2 ^ (k + 53 - 1) * den = 2 ^ 52 * (den * 2 ^ k) := by
        rw [show k + 53 - 1 = k + 52 by omega, Nat.pow_add]
        ring
      omega
    have hlt : num * one / den < 2 ^ (units.log2 - 1 + 1) := by
      rw [Nat.div_lt_iff_lt_mul hden, Nat.sub_add_cancel (by omega), ← hpow, hmul]
      exact hbelow
    rw [(Nat.log2_eq_iff ?_).mpr ⟨hreach, hlt⟩]
    have := Nat.two_pow_pos (units.log2 - 1)
    omega
  · rw [hk, Nat.add_sub_cancel]
    apply SolidWorkshop.roundHalfEven_eq hpositive
    · omega
    · omega
    · intro
      rfl

/-- A ratio in the interval around a double is read as that double. -/
theorem ofRatio_eq_of_roundsTo
    {num den units : Nat} (h : RoundsTo num den units) (hfits : Fits units) (hpos : 0 < units)
    (hden : 0 < den) (negative : Bool) :
    ofRatio negative num den = .finite negative units hfits := by
  suffices hunits : roundHalfEven (num * one) (den * 2 ^ ((num * one / den).log2 - 52)) *
      2 ^ ((num * one / den).log2 - 52) = units by
    simp only [ofRatio, Nat.pow_eq, hunits, dif_pos hfits]
  have hsame : (num * one / den).log2 - 52 = units.log2 - 52 →
      roundHalfEven (num * one) (den * 2 ^ ((num * one / den).log2 - 52)) *
        2 ^ ((num * one / den).log2 - 52) = units := by
    intro hlog
    obtain ⟨m, hm, hquotient, -⟩ := hfits.exists_significand hpos
    have hround := h.roundHalfEven_eq hfits hpos hden
    rw [hquotient, step] at hround
    rw [hlog, hround]
    exact hm.symm
  have hlt := h.div_lt hfits hpos hden
  by_cases hreach : 2 ^ units.log2 ≤ num * one / den
  · apply hsame
    have hpositive : num * one / den ≠ 0 := by
      have := Nat.two_pow_pos units.log2
      omega
    rw [(Nat.log2_eq_iff hpositive).mpr ⟨hreach, hlt⟩]
  · rcases Nat.lt_or_ge 52 units.log2 with hlarge | hsmall
    · have hbelow : num * one < 2 ^ units.log2 * den :=
        (Nat.div_lt_iff_lt_mul hden).mp (by omega)
      have hpow := h.eq_pow hfits hpos hden hlarge hbelow
      rw [← hpow] at hbelow
      obtain ⟨hlog, hround⟩ := h.round_up_to_pow hden hlarge hpow hbelow
      rw [hlog, Nat.sub_sub, hround, ← Nat.pow_add]
      rw [Nat.add_sub_cancel' (by omega)]
      exact hpow.symm
    · apply hsame
      by_cases hzero : num * one / den = 0
      · rw [hzero, Nat.log2_zero]
        omega
      · have hlog : (num * one / den).log2 < units.log2 :=
          (Nat.log2_lt hzero).mpr (by omega)
        omega

end Binary64

end SolidWorkshop
