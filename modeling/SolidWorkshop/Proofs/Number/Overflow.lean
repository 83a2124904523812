import SolidWorkshop.Number
import SolidWorkshop.Proofs.Number.Rounding

/-!
# Beyond the range of doubles

A ratio is rounded in steps of its own power of two, so what comes out is at most a given double
exactly if the ratio is at most half a step above that double.  At the largest double this says
which ratios are beyond the range of doubles.
-/

namespace SolidWorkshop

theorem div_le_roundHalfEven (num den : Nat) : num / den ≤ roundHalfEven num den := by
  unfold roundHalfEven
  dsimp only
  split_ifs
  · omega
  · omega
  · omega

/-- A quotient is rounded to at most a whole number if it is at most a half above it; a tie is
rounded down to an even number only. -/
theorem roundHalfEven_le_iff
    {num den : Nat} (hden : 0 < den) (m : Nat) :
    roundHalfEven num den ≤ m ↔
      2 * num ≤ 2 * (m * den) + den ∧ (2 * num = 2 * (m * den) + den → m % 2 = 0) := by
  have hdiv : num / den * den + num % den = num := by
    rw [Nat.mul_comm]
    exact Nat.div_add_mod num den
  have hmod : num % den < den := Nat.mod_lt num hden
  rcases Nat.lt_trichotomy (num / den) m with hlt | heq | hgt
  · have hmul : (num / den + 1) * den ≤ m * den := Nat.mul_le_mul_right den hlt
    have hround := roundHalfEven_le num den
    rw [Nat.add_mul] at hmul
    omega
  · rw [heq] at hdiv
    unfold roundHalfEven
    dsimp only
    rw [heq]
    split_ifs with hbelow habove
    · omega
    · omega
    · omega
  · have hmul : (m + 1) * den ≤ num / den * den := Nat.mul_le_mul_right den hgt
    have hround := div_le_roundHalfEven num den
    rw [Nat.add_mul] at hmul
    omega

namespace Binary64

/-! ## Rounded counts of units -/

/-- A ratio in steps of its own power of two, rounded to a whole number. -/
def significand (num den : Nat) : Nat :=
  roundHalfEven (num * one) (den * step (num * one / den))

/-- The count of units that a ratio is rounded to, whether or not this is a double. -/
def roundedUnits (num den : Nat) : Nat :=
  significand num den * step (num * one / den)

theorem ofRatio_eq_roundedUnits (negative : Bool) (num den : Nat) :
    ofRatio negative num den =
      if fits : Fits (roundedUnits num den) then .finite negative (roundedUnits num den) fits
      else .infinite negative :=
  rfl

theorem significand_le {num den : Nat} :
    significand num den ≤ 2 ^ 53 ∧ roundedUnits num den ≤ 2 ^ ((num * one / den).log2 + 1) := by
  have hround := roundHalfEven_le (num * one) (den * step (num * one / den))
  have hlt : num * one / den < 2 ^ ((num * one / den).log2 + 1) := Nat.lt_log2_self
  rw [← Nat.div_div_eq_div_mul] at hround
  unfold roundedUnits
  change significand num den ≤ _ at hround
  generalize num * one / den = q at hround hlt ⊢
  rcases Nat.lt_or_ge 52 q.log2 with hlarge | hsmall
  · have hpow : 2 ^ (q.log2 + 1) = 2 ^ 53 * step q := by
      rw [step, ← Nat.pow_add]
      congr 1
      omega
    have hquotient : q / step q < 2 ^ 53 := by
      rw [Nat.div_lt_iff_lt_mul (step_pos q), ← hpow]
      exact hlt
    have hle : significand num den ≤ 2 ^ 53 := Nat.le_trans hround hquotient
    exact ⟨hle, by rw [hpow]; exact Nat.mul_le_mul_right _ hle⟩
  · rw [step_of_log2_le hsmall, Nat.div_one] at hround
    rw [step_of_log2_le hsmall, Nat.mul_one]
    have hle : significand num den ≤ 2 ^ (q.log2 + 1) := Nat.le_trans hround hlt
    exact ⟨Nat.le_trans hle (Nat.pow_le_pow_right (by decide) (by omega)), hle⟩

theorem le_roundedUnits
    {num den : Nat} (hnormal : 52 < (num * one / den).log2) :
    2 ^ (num * one / den).log2 ≤ roundedUnits num den := by
  have hround := div_le_roundHalfEven (num * one) (den * step (num * one / den))
  have hle : 2 ^ (num * one / den).log2 ≤ num * one / den := by
    apply Nat.log2_self_le
    rintro hzero
    rw [hzero, Nat.log2_zero] at hnormal
    omega
  rw [← Nat.div_div_eq_div_mul] at hround
  unfold roundedUnits
  change _ ≤ significand num den at hround
  generalize num * one / den = q at hround hle hnormal ⊢
  have hpow : 2 ^ q.log2 = 2 ^ 52 * step q := by
    rw [step, ← Nat.pow_add]
    congr 1
    omega
  have hquotient : 2 ^ 52 ≤ q / step q := by
    rw [Nat.le_div_iff_mul_le (step_pos q), ← hpow]
    exact hle
  rw [hpow]
  exact Nat.mul_le_mul_right _ (Nat.le_trans hquotient hround)

/-- What a ratio is rounded to is at most a double exactly if the ratio is at most half a step
above the double; at a tie the double has to be even. -/
theorem roundedUnits_le_iff
    {num den m k : Nat} (hden : 0 < den) (hlow : 2 ^ 52 ≤ m) (hhigh : m < 2 ^ 53) (hk : 0 < k) :
    roundedUnits num den ≤ m * 2 ^ k ↔
      2 * (num * one) ≤ (2 * m + 1) * 2 ^ k * den ∧
        (2 * (num * one) = (2 * m + 1) * 2 ^ k * den → m % 2 = 0) := by
  have hrange : 2 ^ (52 + k) ≤ m * 2 ^ k ∧ m * 2 ^ k + 2 ^ k ≤ 2 ^ (53 + k) := by
    rw [Nat.pow_add, Nat.pow_add]
    refine ⟨Nat.mul_le_mul_right _ hlow, ?_⟩
    rw [← Nat.succ_mul]
    exact Nat.mul_le_mul_right _ hhigh
  have hfar : (2 * m + 1) * 2 ^ k * den = 2 * (m * 2 ^ k * den) + 2 ^ k * den := by ring
  rcases Nat.lt_trichotomy (num * one / den).log2 (52 + k) with hbelow | hsame | habove
  · have hunits : roundedUnits num den ≤ 2 ^ (52 + k) :=
      Nat.le_trans significand_le.2 (Nat.pow_le_pow_right (by decide) (by omega))
    have hnum : num * one < 2 ^ (52 + k) * den := by
      rw [← Nat.div_lt_iff_lt_mul hden]
      exact Nat.lt_of_lt_of_le Nat.lt_log2_self (Nat.pow_le_pow_right (by decide) (by omega))
    have hmul := Nat.mul_le_mul_right den hrange.1
    have hpos := Nat.mul_pos (Nat.two_pow_pos k) hden
    rw [hfar]
    omega
  · have hstep : step (num * one / den) = 2 ^ k := by
      rw [step, hsame]
      congr 1
      omega
    have hscaled : (2 * m + 1) * 2 ^ k * den = 2 * (m * (den * 2 ^ k)) + den * 2 ^ k := by ring
    rw [hscaled, ← roundHalfEven_le_iff (Nat.mul_pos hden (Nat.two_pow_pos k)), roundedUnits,
      significand, hstep]
    exact Nat.mul_le_mul_right_iff (Nat.two_pow_pos k)
  · have hunits : 2 ^ (num * one / den).log2 ≤ roundedUnits num den := le_roundedUnits (by omega)
    have hpow : 2 ^ (53 + k) ≤ 2 ^ (num * one / den).log2 :=
      Nat.pow_le_pow_right (by decide) (by omega)
    have hnum : 2 ^ (53 + k) * den ≤ num * one := by
      rw [← Nat.le_div_iff_mul_le hden]
      apply Nat.le_trans hpow
      apply Nat.log2_self_le
      rintro hzero
      rw [hzero, Nat.log2_zero] at habove
      omega
    have hmul := Nat.mul_le_mul_right den hrange.2
    have hpos := Nat.mul_pos (Nat.two_pow_pos k) hden
    rw [Nat.add_mul] at hmul
    rw [hfar]
    have hstep := Nat.two_pow_pos k
    omega

/-! ## The largest double -/

/-- The units of the largest finite double. -/
def largest : Nat := (2 ^ 53 - 1) * 2 ^ 2045

/-- Half a step above the largest finite double. -/
def limit : Nat := 2 ^ 1024 - 2 ^ 970

theorem fits_of_significand
    {m k : Nat} (hm : m ≤ 2 ^ 53) (hlt : m * 2 ^ k < 2 ^ 2098) :
    Fits (m * 2 ^ k) := by
  by_cases hzero : m * 2 ^ k = 0
  · rw [hzero]
    decide
  have hlog : (m * 2 ^ k).log2 < 2098 := by
    rw [Nat.log2_lt hzero]
    exact hlt
  refine ⟨hlog, Nat.mod_eq_zero_of_dvd ?_⟩
  change 2 ^ ((m * 2 ^ k).log2 - 52) ∣ m * 2 ^ k
  by_cases hpow : m = 2 ^ 53
  · rw [hpow, ← Nat.pow_add, Nat.log2_two_pow]
    exact Nat.pow_dvd_pow 2 (Nat.sub_le _ _)
  · have hlog : (m * 2 ^ k).log2 < 53 + k := by
      rw [Nat.log2_lt hzero, Nat.pow_add]
      exact Nat.mul_lt_mul_of_pos_right (Nat.lt_of_le_of_ne hm hpow) (Nat.two_pow_pos k)
    exact Nat.dvd_trans (Nat.pow_dvd_pow 2 (by omega)) (Nat.dvd_mul_left _ _)

/-- A rounded count of units is a double if it is not larger than the largest one. -/
theorem fits_roundedUnits_iff {num den : Nat} :
    Fits (roundedUnits num den) ↔ roundedUnits num den ≤ largest := by
  constructor
  · intro hfits
    rcases Nat.eq_zero_or_pos (roundedUnits num den) with hzero | hpos
    · rw [hzero]
      exact Nat.zero_le _
    · obtain ⟨m, hm, -, -, hlt, -⟩ := hfits.exists_significand hpos
      have hlog := hfits.1
      have hstep : step (roundedUnits num den) ≤ 2 ^ 2045 :=
        Nat.pow_le_pow_right (by decide) (by omega)
      rw [hm, largest]
      exact Nat.mul_le_mul (Nat.le_sub_one_of_lt hlt) hstep
  · intro hle
    have hrange : largest < 2 ^ 2098 := by decide +kernel
    exact fits_of_significand significand_le.1 (Nat.lt_of_le_of_lt hle hrange)

theorem ofRatio_of_fits
    {num den : Nat} (hfits : Fits (roundedUnits num den)) (negative : Bool) :
    ofRatio negative num den = .finite negative (roundedUnits num den) hfits := by
  rw [ofRatio_eq_roundedUnits, dif_pos hfits]

theorem ofRatio_of_not_fits
    {num den : Nat} (hfits : ¬Fits (roundedUnits num den)) (negative : Bool) :
    ofRatio negative num den = .infinite negative := by
  rw [ofRatio_eq_roundedUnits, dif_neg hfits]

/-- Beyond the range of doubles are the ratios from half a step above the largest double on. -/
theorem fits_roundedUnits_iff_lt
    {num den : Nat} (hden : 0 < den) :
    Fits (roundedUnits num den) ↔ num < limit * den := by
  have hscale : (2 * (2 ^ 53 - 1) + 1) * 2 ^ 2045 = 2 * (limit * one) := by decide +kernel
  have hodd : (2 ^ 53 - 1) % 2 ≠ 0 := by decide
  have hmul : 2 * (limit * one) * den = 2 * (limit * den * one) := by ring
  rw [fits_roundedUnits_iff, largest,
    roundedUnits_le_iff hden (by decide) (by decide) (by decide), hscale, hmul]
  constructor
  · rintro ⟨hle, htie⟩
    have hne : num * one ≠ limit * den * one := fun heq => hodd (htie (by rw [heq]))
    exact Nat.lt_of_mul_lt_mul_right (a := one) (by omega)
  · intro hlt
    have hlt' := Nat.mul_lt_mul_of_pos_right hlt one_units_pos
    exact ⟨by omega, fun heq => by omega⟩

/-- An integer is beyond the range of doubles from half a step above the largest double on. -/
theorem ofInt?_eq_none_iff (n : Int) :
    ofInt? n = none ↔ limit ≤ n.natAbs := by
  have hrange : Fits (roundedUnits n.natAbs 1) ↔ n.natAbs < limit * 1 :=
    fits_roundedUnits_iff_lt Nat.one_pos
  rw [Nat.mul_one, ← not_iff_not, Nat.not_lt] at hrange
  rw [← hrange]
  unfold ofInt?
  by_cases hfits : Fits (roundedUnits n.natAbs 1)
  · rw [ofRatio_of_fits hfits]
    exact iff_of_false nofun (not_not_intro hfits)
  · rw [ofRatio_of_not_fits hfits]
    exact iff_of_true rfl hfits

end Binary64

end SolidWorkshop
