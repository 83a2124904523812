import SolidWorkshop.Proofs.Number.Rounding

/-!
# The shortest decimal reads back

The decimal that a double is written with lies in the interval of numbers that round to the
double.  Whatever grid the search ends on, its answer was tested; and the search does end, since
on the grid of seventeen digits the decimal nearest to a double is closer than half the distance
to the next one.  Reading a decimal of that interval, in whatever form its digits are written,
gives the double back.
-/

namespace SolidWorkshop

open Binary64

namespace Decimal

/-! ## Decimals as ratios -/

/-- The numerator of a decimal. -/
def num (d : Decimal) : Nat :=
  d.digits * 10 ^ d.exponent.toNat

/-- The denominator of a decimal, a power of ten. -/
def den (d : Decimal) : Nat :=
  10 ^ (-d.exponent).toNat

theorem num_mk (digits : Nat) (exponent : Int) :
    num ⟨digits, exponent⟩ = digits * 10 ^ exponent.toNat := rfl

theorem den_mk (digits : Nat) (exponent : Int) :
    den ⟨digits, exponent⟩ = 10 ^ (-exponent).toNat := rfl

theorem den_pos (d : Decimal) : 0 < d.den :=
  Nat.pow_pos (by decide)

/-- The decimal lies in the interval of numbers that round to a count of units. -/
def RoundsTo (d : Decimal) (units : Nat) : Prop :=
  Binary64.RoundsTo d.num d.den units

instance (d : Decimal) (units : Nat) : Decidable (d.RoundsTo units) :=
  inferInstanceAs (Decidable (Binary64.RoundsTo d.num d.den units))

/-- One decimal has the value of another. -/
def SameValue (d e : Decimal) : Prop :=
  d.num * e.den = e.num * d.den

theorem RoundsTo.of_sameValue
    {d e : Decimal} {units : Nat} (h : d.RoundsTo units) (hsame : d.SameValue e) :
    e.RoundsTo units :=
  Binary64.RoundsTo.of_ratio_eq h d.den_pos e.den_pos hsame

/-- Raising an exponent moves a power of ten from the denominator to the numerator. -/
theorem pow_toNat_add (exponent : Int) (k : Nat) :
    10 ^ (exponent + k).toNat * 10 ^ (-exponent).toNat =
      10 ^ k * 10 ^ exponent.toNat * 10 ^ (-(exponent + k)).toNat := by
  rw [← Nat.pow_add, ← Nat.pow_add, ← Nat.pow_add]
  congr 1
  omega

/-- Zeros at the end of the digits stand for a higher exponent. -/
theorem sameValue_mul_pow (digits k : Nat) (exponent : Int) :
    SameValue ⟨digits * 10 ^ k, exponent⟩ ⟨digits, exponent + k⟩ := by
  rw [SameValue, num_mk, num_mk, den_mk, den_mk]
  rw [Nat.mul_assoc digits, Nat.mul_assoc digits, Nat.mul_assoc digits, pow_toNat_add]

theorem SameValue.symm
    {d e : Decimal} (h : d.SameValue e) :
    e.SameValue d :=
  Eq.symm h

/-- The zeros at the end do not change the value, and no digit is added. -/
theorem dropZeros_keeps
    {units : Nat} (fuel : Nat) {d : Decimal} (h : d.RoundsTo units) :
    (dropZeros fuel d).RoundsTo units ∧ (dropZeros fuel d).digits ≤ d.digits := by
  induction fuel generalizing d with
  | zero => exact ⟨h, Nat.le_refl _⟩
  | succ fuel ih =>
    unfold dropZeros
    split_ifs with hzero
    · simp only [Bool.and_eq_true, bne_iff_ne, beq_iff_eq] at hzero
      have hten : d.digits / 10 * 10 = d.digits := by omega
      have hsame := sameValue_mul_pow (d.digits / 10) 1 d.exponent
      rw [Nat.pow_one, hten, Nat.cast_one] at hsame
      obtain ⟨hrounds, hle⟩ := ih (h.of_sameValue hsame)
      exact ⟨hrounds, by simp only at hle; omega⟩
    · exact ⟨h, Nat.le_refl _⟩

/-! ## The leading digit -/

/-- A count of units is at least the given power of ten. -/
def Reaches (units : Nat) (exponent : Int) : Prop :=
  10 ^ exponent.toNat * one ≤ units * 10 ^ (-exponent).toNat

instance (units : Nat) (exponent : Int) : Decidable (Reaches units exponent) :=
  inferInstanceAs (Decidable (_ ≤ _))

/-- The exponent that the search for the leading digit starts with, for the units of a power of
two. -/
def estimate (log : Nat) : Int :=
  Int.fdiv (((log : Int) - 1074) * 30103) 100000

theorem leadingExponent_eq (units : Nat) :
    leadingExponent units =
      if Reaches units (estimate units.log2 + 1) then estimate units.log2 + 1
      else if Reaches units (estimate units.log2) then estimate units.log2
      else estimate units.log2 - 1 := by
  have hreaches : ∀ e : Int,
      (if 0 ≤ e then decide (Nat.pow 10 e.toNat * one ≤ units)
        else decide (one ≤ units * Nat.pow 10 (-e).toNat)) = decide (Reaches units e) := by
    intro e
    split_ifs with hsign
    · have hdown : (-e).toNat = 0 := by omega
      rw [decide_eq_decide, Reaches, hdown, Nat.pow_zero, Nat.mul_one, Nat.pow_eq]
    · have hup : e.toNat = 0 := by omega
      rw [decide_eq_decide, Reaches, hup, Nat.pow_zero, Nat.one_mul, Nat.pow_eq]
  unfold leadingExponent
  simp only [hreaches, decide_eq_true_eq]
  rfl

set_option maxRecDepth 20000 in
/-- Over all doubles the estimate is off by one at most. -/
theorem estimate_bounds :
    ∀ log < 2098, Reaches (2 ^ log) (estimate log - 1) ∧
      ¬Reaches (2 ^ (log + 1) - 1) (estimate log + 2) := by
  decide +kernel

theorem Reaches.mono
    {a b : Nat} {exponent : Int} (h : Reaches a exponent) (hle : a ≤ b) :
    Reaches b exponent :=
  Nat.le_trans h (Nat.mul_le_mul_right _ hle)

/-- The leading exponent is the one of the largest power of ten that a double reaches. -/
theorem reaches_leadingExponent
    {units : Nat} (hpos : 0 < units) (hlog : units.log2 < 2098) :
    Reaches units (leadingExponent units) ∧ ¬Reaches units (leadingExponent units + 1) := by
  obtain ⟨hlow, hhigh⟩ := estimate_bounds units.log2 hlog
  have hreach : Reaches units (estimate units.log2 - 1) :=
    hlow.mono (Nat.log2_self_le (by omega))
  have hlt : units < 2 ^ (units.log2 + 1) := Nat.lt_log2_self
  have hmiss : ¬Reaches units (estimate units.log2 + 2) := fun h => hhigh (h.mono (by omega))
  rw [leadingExponent_eq]
  split_ifs with hup hmid
  · exact ⟨hup, by rwa [Int.add_assoc]⟩
  · exact ⟨hmid, hup⟩
  · exact ⟨hreach, by rwa [Int.sub_add_cancel]⟩

/-! ## The grids -/

/-- Reaching a power of ten, told in steps of a grid below it. -/
theorem reaches_add_iff (units k : Nat) (exponent : Int) :
    Reaches units (exponent + k) ↔
      10 ^ k * (one * 10 ^ exponent.toNat) ≤ units * 10 ^ (-exponent).toNat := by
  have hup : 10 ^ (exponent + k).toNat * one * 10 ^ (-exponent).toNat =
      10 ^ k * (one * 10 ^ exponent.toNat) * 10 ^ (-(exponent + k)).toNat := by
    rw [Nat.mul_right_comm, pow_toNat_add]
    ring
  have hdown : units * 10 ^ (-(exponent + k)).toNat * 10 ^ (-exponent).toNat =
      units * 10 ^ (-exponent).toNat * 10 ^ (-(exponent + k)).toNat := Nat.mul_right_comm ..
  have hten : ∀ e : Nat, 0 < 10 ^ e := fun e => Nat.pow_pos (by decide)
  rw [Reaches, ← Nat.mul_le_mul_right_iff (hten (-exponent).toNat), hup, hdown,
    Nat.mul_le_mul_right_iff (hten _)]

/-- What the search on one grid looks at: the two neighbours of the number, in steps of the
grid. -/
theorem onGrid?_eq (units : Nat) (exponent : Int) :
    onGrid? units exponent =
      let num := units * 10 ^ (-exponent).toNat
      let den := one * 10 ^ exponent.toNat
      let nearest := roundHalfEven num den
      let other := if nearest == num / den then num / den + 1 else num / den
      if RoundsTo ⟨nearest, exponent⟩ units then some ⟨nearest, exponent⟩
      else if RoundsTo ⟨other, exponent⟩ units then some ⟨other, exponent⟩
      else none := by
  have hdown : (if exponent < 0 then Nat.pow 10 (-exponent).toNat else 1) =
      10 ^ (-exponent).toNat := by
    split_ifs with hsign
    · rfl
    · rw [show (-exponent).toNat = 0 by omega, Nat.pow_zero]
  have hnum : (if exponent < 0 then units * Nat.pow 10 (-exponent).toNat else units) =
      units * 10 ^ (-exponent).toNat := by
    split_ifs with hsign
    · rfl
    · rw [show (-exponent).toNat = 0 by omega, Nat.pow_zero, Nat.mul_one]
  have hden : (if exponent < 0 then one else one * Nat.pow 10 exponent.toNat) =
      one * 10 ^ exponent.toNat := by
    split_ifs with hsign
    · rw [show exponent.toNat = 0 by omega, Nat.pow_zero, Nat.mul_one]
    · rfl
  have hinside : ∀ digits : Nat,
      ((if (roundingInterval units).2.2 = true then
          decide ((roundingInterval units).1 * 10 ^ (-exponent).toNat ≤
            4 * digits * (one * 10 ^ exponent.toNat)) &&
          decide (4 * digits * (one * 10 ^ exponent.toNat) ≤
            (roundingInterval units).2.1 * 10 ^ (-exponent).toNat)
        else
          decide ((roundingInterval units).1 * 10 ^ (-exponent).toNat <
            4 * digits * (one * 10 ^ exponent.toNat)) &&
          decide (4 * digits * (one * 10 ^ exponent.toNat) <
            (roundingInterval units).2.1 * 10 ^ (-exponent).toNat)) = true) ↔
        RoundsTo ⟨digits, exponent⟩ units := by
    intro digits
    have hvalue : 4 * digits * (one * 10 ^ exponent.toNat) =
        4 * (num ⟨digits, exponent⟩ * one) := by
      rw [num_mk]
      ring
    rw [hvalue, RoundsTo, roundsTo_iff, den_mk]
    split_ifs
    · rw [Bool.and_eq_true, decide_eq_true_eq, decide_eq_true_eq]
    · rw [Bool.and_eq_true, decide_eq_true_eq, decide_eq_true_eq]
  unfold onGrid?
  simp only [hdown, hnum, hden, hinside]

theorem onGrid?_eq_some
    {units : Nat} {exponent : Int} {d : Decimal} (h : onGrid? units exponent = some d) :
    d.RoundsTo units ∧ d.exponent = exponent ∧
      d.digits ≤ units * 10 ^ (-exponent).toNat / (one * 10 ^ exponent.toNat) + 1 := by
  have hnearest := roundHalfEven_le (units * 10 ^ (-exponent).toNat) (one * 10 ^ exponent.toNat)
  rw [onGrid?_eq] at h
  dsimp only at h
  generalize roundHalfEven (units * 10 ^ (-exponent).toNat) (one * 10 ^ exponent.toNat) =
    nearest at h hnearest
  generalize units * 10 ^ (-exponent).toNat / (one * 10 ^ exponent.toNat) = floor at h hnearest ⊢
  have hother : (if nearest == floor then floor + 1 else floor) ≤ floor + 1 := by
    split_ifs
    · exact Nat.le_refl _
    · exact Nat.le_succ _
  generalize (if nearest == floor then floor + 1 else floor) = other at h hother
  split_ifs at h with hfirst hsecond
  · obtain rfl := Option.some.inj h
    exact ⟨hfirst, rfl, hnearest⟩
  · obtain rfl := Option.some.inj h
    exact ⟨hsecond, rfl, hother⟩

/-- A step of the grid of seventeen digits is smaller than the distance to the next double, and
smaller than half of it where the doubles become denser. -/
theorem grid_lt
    {units grid scale : Nat} (hpos : 0 < units) (hfits : Fits units) (hgrid : 0 < grid)
    (hdigits : 10 ^ 16 * grid ≤ units * scale) :
    grid < step units * scale ∧
      (52 < units.log2 ∧ units = 2 ^ units.log2 → 2 * grid < step units * scale) := by
  obtain ⟨m, hm, -, -, hlt, -⟩ := hfits.exists_significand hpos
  constructor
  · have hle : units * scale ≤ 2 ^ 53 * (step units * scale) := by
      rw [← Nat.mul_assoc]
      apply Nat.mul_le_mul_right
      calc
        units = m * step units := hm
        _ ≤ 2 ^ 53 * step units := Nat.mul_le_mul_right _ (Nat.le_of_lt hlt)
    omega
  · rintro ⟨hlog, hpow⟩
    have heq : units * scale = 2 ^ 52 * (step units * scale) := by
      rw [← Nat.mul_assoc, step, ← Nat.pow_add, Nat.add_sub_cancel' (by omega), ← hpow]
    omega

/-- On the grid of seventeen digits the nearest decimal is inside the interval. -/
theorem roundsTo_of_seventeen_digits
    {units : Nat} (hpos : 0 < units) (hfits : Fits units) {exponent : Int}
    (hdigits : 10 ^ 16 * (one * 10 ^ exponent.toNat) ≤ units * 10 ^ (-exponent).toNat) :
    RoundsTo ⟨roundHalfEven (units * 10 ^ (-exponent).toNat) (one * 10 ^ exponent.toNat),
      exponent⟩ units := by
  have hpower : 0 < 10 ^ exponent.toNat := Nat.pow_pos (by decide)
  have hgrid : 0 < one * 10 ^ exponent.toNat := Nat.mul_pos one_units_pos hpower
  obtain ⟨habove, hbelow⟩ := roundHalfEven_near (units * 10 ^ (-exponent).toNat) hgrid
  obtain ⟨hstep, hdense⟩ := grid_lt hpos hfits hgrid hdigits
  have hvalue : ∀ n : Nat, 4 * (n * 10 ^ exponent.toNat * one) =
      4 * (n * (one * 10 ^ exponent.toNat)) := by
    intro n
    rw [Nat.mul_assoc n, Nat.mul_comm one]
  apply roundsTo_of_lt
  · rw [(roundingInterval_eq units).1, num_mk, den_mk, hvalue, Nat.sub_mul, Nat.mul_assoc 4]
    split_ifs with hif
    · have := hdense hif
      omega
    · rw [Nat.mul_assoc 2]
      omega
  · rw [(roundingInterval_eq units).2.1, num_mk, den_mk, hvalue, Nat.add_mul, Nat.mul_assoc 4,
      Nat.mul_assoc 2]
    omega

/-! ## The shortest decimal -/

/-- On every grid that the search looks at, the digits stay below a bound. -/
theorem digits_le_of_onGrid?
    {units : Nat} (hpos : 0 < units) (hfits : Fits units) {k : Nat} (hk : k ≤ 16) {d : Decimal}
    (h : onGrid? units (leadingExponent units - k) = some d) :
    d.digits ≤ 10 ^ 17 := by
  obtain ⟨-, -, hdigits⟩ := onGrid?_eq_some h
  obtain ⟨-, hmiss⟩ := reaches_leadingExponent hpos hfits.1
  have hadd : leadingExponent units + 1 = leadingExponent units - k + (k + 1 : Nat) := by omega
  rw [hadd, reaches_add_iff, Nat.not_le, ← Nat.div_lt_iff_lt_mul ?_] at hmiss
  · have hle : 10 ^ (k + 1) ≤ 10 ^ 17 := Nat.pow_le_pow_right (by decide) (by omega)
    omega
  · have hpower : 0 < 10 ^ (leadingExponent units - k).toNat := Nat.pow_pos (by decide)
    exact Nat.mul_pos one_units_pos hpower

/-- The shortest decimal lies in the interval of its double and has no more than seventeen
digits, one followed by seventeen zeros apart. -/
theorem shortest_roundsTo
    {units : Nat} (hpos : 0 < units) (hfits : Fits units) :
    (shortest units).RoundsTo units ∧ (shortest units).digits ≤ 10 ^ 17 := by
  obtain ⟨hreach, -⟩ := reaches_leadingExponent hpos hfits.1
  have hadd : leadingExponent units = leadingExponent units - (16 : Nat) + (16 : Nat) := by omega
  rw [hadd, reaches_add_iff] at hreach
  have hlast : onGrid? units (leadingExponent units - (16 : Nat)) ≠ none := by
    rw [onGrid?_eq]
    dsimp only
    rw [if_pos (roundsTo_of_seventeen_digits hpos hfits hreach)]
    simp
  cases hfound : (List.range 17).findSome? fun k : Nat =>
      onGrid? units (leadingExponent units - k) with
  | none =>
    have hnone := List.findSome?_eq_none_iff.mp hfound 16 (by simp)
    exact absurd hnone hlast
  | some d =>
    obtain ⟨k, hk, hd⟩ := List.exists_of_findSome?_eq_some hfound
    obtain ⟨hrounds, -⟩ := onGrid?_eq_some hd
    have hdigits := digits_le_of_onGrid? hpos hfits (by simpa [Nat.lt_succ_iff] using hk) hd
    obtain ⟨hkeeps, hle⟩ := dropZeros_keeps 20 hrounds
    rw [shortest, hfound, Option.getD_some]
    exact ⟨hkeeps, Nat.le_trans hle hdigits⟩

end Decimal

/-! ## Reading a decimal -/

namespace Binary64

/-- The estimate of a number's length is exact or one too small. -/
theorem decimalLength_bounds
    {n : Nat} (hpos : 0 < n) (hlt : n < 2 ^ 64) :
    10 ^ (decimalLength n - 1) ≤ n ∧ n < 10 ^ (decimalLength n + 1) := by
  have hall : ∀ log < 64, 10 ^ (log * 30103 / 100000) ≤ 2 ^ log ∧
      2 ^ (log + 1) ≤ 10 ^ (log * 30103 / 100000 + 2) := by decide +kernel
  obtain ⟨hlow, hhigh⟩ := hall n.log2 ((Nat.log2_lt (by omega)).mpr hlt)
  exact ⟨Nat.le_trans hlow (Nat.log2_self_le (by omega)),
    Nat.lt_of_lt_of_le Nat.lt_log2_self hhigh⟩

theorem ofDecimal_eq_ofRatio
    {digits : Nat} {exponent : Int} (hdigits : digits ≠ 0)
    (hlow : -330 ≤ decimalLength digits + exponent)
    (hhigh : decimalLength digits + exponent ≤ 310) (negative : Bool) :
    ofDecimal negative digits exponent =
      ofRatio negative (Decimal.num ⟨digits, exponent⟩) (Decimal.den ⟨digits, exponent⟩) := by
  unfold ofDecimal
  rw [if_neg hdigits]
  dsimp only
  rw [if_neg (by omega), if_neg (by omega), Decimal.num_mk, Decimal.den_mk, Nat.pow_eq, Nat.pow_eq]
  split_ifs with hsign
  · rw [show (-exponent).toNat = 0 by omega, Nat.pow_zero]
  · rw [show exponent.toNat = 0 by omega, Nat.pow_zero, Nat.mul_one]

/-- A ratio above the range of doubles rounds to none of them. -/
theorem not_roundsTo_of_large
    {num den units k : Nat} (hfits : Fits units) (hpos : 0 < units) (hden : 0 < den)
    (hk : 310 ≤ k) (hlarge : 10 ^ k * den ≤ num) :
    ¬RoundsTo num den units := by
  intro h
  have hnear := (h.near hfits hpos).2
  have hlt := Nat.lt_of_lt_of_le (Nat.lt_log2_self (n := units))
    (Nat.pow_le_pow_right (show 0 < 2 by decide) hfits.1)
  have hrange : 2 * 2 ^ 2098 ≤ 10 ^ 310 * one := by decide +kernel
  have hpower := Nat.pow_le_pow_right (show 0 < 10 by decide) hk
  generalize 2 ^ 2098 = top at hlt hrange
  generalize 10 ^ 310 = bound at hrange hpower
  generalize one = unit at hnear hrange
  have hbelow : bound * unit * den ≤ 2 * units * den := by
    calc
      bound * unit * den ≤ 10 ^ k * unit * den :=
        Nat.mul_le_mul_right den (Nat.mul_le_mul_right unit hpower)
      _ = 10 ^ k * den * unit := Nat.mul_right_comm ..
      _ ≤ num * unit := Nat.mul_le_mul_right unit hlarge
      _ ≤ 2 * (units * den) := hnear
      _ = 2 * units * den := (Nat.mul_assoc ..).symm
  have hle := Nat.le_of_mul_le_mul_right hbelow hden
  omega

/-- A ratio below the range of doubles rounds to none of them but zero. -/
theorem not_roundsTo_of_small
    {num den units k : Nat} (hfits : Fits units) (hpos : 0 < units) (hnum : 0 < num)
    (hk : 330 ≤ k) (hsmall : num * 10 ^ k ≤ den) :
    ¬RoundsTo num den units := by
  intro h
  have hnear := (h.near hfits hpos).1
  have hrange : 2 * one < 10 ^ 330 := by decide +kernel
  have hpower := Nat.pow_le_pow_right (show 0 < 10 by decide) hk
  generalize 10 ^ 330 = bound at hrange hpower
  generalize one = unit at hnear hrange
  have habove : bound * num ≤ 2 * unit * num := by
    calc
      bound * num ≤ 10 ^ k * num := Nat.mul_le_mul_right num hpower
      _ = num * 10 ^ k := Nat.mul_comm ..
      _ ≤ den := hsmall
      _ ≤ units * den := Nat.le_mul_of_pos_left den hpos
      _ ≤ 2 * (num * unit) := hnear
      _ = 2 * unit * num := by ring
  have hle := Nat.le_of_mul_le_mul_right habove hnum
  omega

/-- A decimal in the interval around a double is read as that double. -/
theorem ofDecimal_eq_of_roundsTo
    {digits units : Nat} {exponent : Int} (h : Decimal.RoundsTo ⟨digits, exponent⟩ units)
    (hfits : Fits units) (hpos : 0 < units) (hlt : digits < 2 ^ 64) (negative : Bool) :
    ofDecimal negative digits exponent = .finite negative units hfits := by
  have hden := Decimal.den_pos ⟨digits, exponent⟩
  have hdigits : 0 < digits := by
    rw [Nat.pos_iff_ne_zero]
    rintro rfl
    have hnear := (h.near hfits hpos).1
    rw [Decimal.num_mk, Nat.zero_mul, Nat.zero_mul, Nat.mul_zero] at hnear
    have := Nat.mul_pos hpos hden
    omega
  obtain ⟨hlow, hhigh⟩ := decimalLength_bounds hdigits hlt
  have hlength : 1 ≤ decimalLength digits := Nat.succ_le_succ (Nat.zero_le _)
  have hlower : -330 ≤ decimalLength digits + exponent := by
    by_contra hsmall
    obtain ⟨k, hk⟩ : ∃ k : Nat, (-exponent).toNat = decimalLength digits + 1 + k :=
      ⟨(-exponent).toNat - (decimalLength digits + 1), by omega⟩
    apply not_roundsTo_of_small hfits hpos (k := k) ?_ (by omega) ?_ h
    · exact Nat.mul_pos hdigits (Nat.pow_pos (by decide))
    · rw [Decimal.num_mk, Decimal.den_mk, show exponent.toNat = 0 by omega, Nat.pow_zero,
        Nat.mul_one, hk, Nat.pow_add]
      exact Nat.mul_le_mul_right _ (Nat.le_of_lt hhigh)
  have hupper : decimalLength digits + exponent ≤ 310 := by
    by_contra hlarge
    obtain ⟨k, hk⟩ : ∃ k : Nat,
        decimalLength digits - 1 + exponent.toNat = k + (-exponent).toNat :=
      ⟨decimalLength digits - 1 + exponent.toNat - (-exponent).toNat, by omega⟩
    apply not_roundsTo_of_large hfits hpos hden (k := k) (by omega) ?_ h
    rw [Decimal.num_mk, Decimal.den_mk, ← Nat.pow_add, ← hk, Nat.pow_add]
    exact Nat.mul_le_mul_right _ hlow
  rw [ofDecimal_eq_ofRatio (by omega) hlower hupper]
  exact ofRatio_eq_of_roundsTo h hfits hpos hden negative

end Binary64

end SolidWorkshop
