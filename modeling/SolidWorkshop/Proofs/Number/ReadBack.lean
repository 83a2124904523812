import SolidWorkshop.Proofs.Number.Shortest
import SolidWorkshop.Proofs.Number.Token

/-!
# Numbers read back

The text of an integer is read as that integer, as long as it is short enough to be read at all,
and the text of a finite double as that double.  Each form of a double's text is a token whose
digits and exponent make the shortest decimal, or that decimal with zeros behind its digits.
-/

namespace SolidWorkshop

open Numeral

/-! ## Integers -/

/-- The token of an integer. -/
def Numeral.ofInt (k : Int) : Numeral :=
  ⟨decide (k < 0), Nat.toDigits 10 k.natAbs, false, [], none⟩

theorem Numeral.isPlain_ofInt (k : Int) : (Numeral.ofInt k).IsPlain where
  whole_ne_nil := Nat.toDigits_ne_nil
  whole := allDigits_toDigits _
  fraction := by simp [Numeral.ofInt, AllDigits]
  fraction_eq_nil _ := rfl
  exponent _ _ h := by contradiction

theorem Numeral.written_ofInt (k : Int) : (Numeral.ofInt k).written = (toString k).toList := by
  rw [Int.toString_eq_repr, Int.repr_eq_if]
  by_cases hneg : k < 0
  · have habs : (-k).toNat = k.natAbs := by omega
    rw [if_neg (by omega), habs]
    simp [Numeral.ofInt, written, exponentChars, hneg]
  · have habs : k.toNat = k.natAbs := by omega
    rw [if_pos (by omega), habs]
    simp [Numeral.ofInt, written, exponentChars, hneg]

theorem Numeral.toInt_ofInt (k : Int) : (Numeral.ofInt k).toInt = k := by
  simp only [Numeral.toInt, Numeral.ofInt, digitsValue_toDigits]
  by_cases hneg : k < 0
  · simp only [hneg, decide_true, if_true]
    omega
  · simp only [hneg, decide_false, Bool.false_eq_true, if_false]
    omega

theorem Numeral.number?_ofInt
    {k : Int} (hlength : (toString k.natAbs).length ≤ digitLimit) :
    (Numeral.ofInt k).number? = .ok (some (.int k)) := by
  have hwhole : (Numeral.ofInt k).whole.length = (toString k.natAbs).length := by
    rw [Nat.toString_eq_repr, ← String.length_toList, Nat.toList_repr]
    rfl
  rw [number?, Numeral.toInt_ofInt, hwhole, if_neg (Nat.not_lt.mpr hlength)]
  rfl

/-! ## Doubles -/

/-- The digits of an exponent, at least two of them. -/
def Numeral.exponentDigits (e : Int) : List Char :=
  if (Nat.toDigits 10 e.natAbs).length < 2 then '0' :: Nat.toDigits 10 e.natAbs
  else Nat.toDigits 10 e.natAbs

/-- The token that a decimal is written as. -/
def Numeral.ofDecimal (negative : Bool) (d : Decimal) : Numeral :=
  let ds := Nat.toDigits 10 d.digits
  let point : Int := ds.length + d.exponent
  if -4 < point ∧ point ≤ 0 then
    ⟨negative, ['0'], true, List.replicate (-point).toNat '0' ++ ds, none⟩
  else if 0 < point ∧ point ≤ 16 then
    if ds.length ≤ point.toNat then
      ⟨negative, ds ++ List.replicate (point.toNat - ds.length) '0', true, ['0'], none⟩
    else ⟨negative, ds.take point.toNat, true, ds.drop point.toNat, none⟩
  else
    ⟨negative, ds.take 1, decide (1 < ds.length), ds.drop 1,
      some (decide (point - 1 < 0), exponentDigits (point - 1))⟩

theorem Numeral.exponentDigits_ne_nil (e : Int) : exponentDigits e ≠ [] := by
  unfold exponentDigits
  split_ifs
  · simp
  · exact Nat.toDigits_ne_nil

theorem Numeral.allDigits_exponentDigits (e : Int) : AllDigits (exponentDigits e) := by
  unfold exponentDigits
  split_ifs
  · exact (allDigits_replicate_zero 1).append (allDigits_toDigits _)
  · exact allDigits_toDigits _

theorem Numeral.digitsValue_exponentDigits (e : Int) :
    Text.digitsValue (exponentDigits e) = e.natAbs := by
  unfold exponentDigits
  split_ifs
  · have hzero := digitsValue_zeros_append 1 (allDigits_toDigits e.natAbs)
    rwa [digitsValue_toDigits] at hzero
  · exact digitsValue_toDigits _

theorem Numeral.AllDigits.take
    {s : List Char} (hs : AllDigits s) (k : Nat) :
    AllDigits (s.take k) :=
  fun c hc => hs c (List.mem_of_mem_take hc)

theorem Numeral.AllDigits.drop
    {s : List Char} (hs : AllDigits s) (k : Nat) :
    AllDigits (s.drop k) :=
  fun c hc => hs c (List.mem_of_mem_drop hc)

theorem Numeral.isPlain_ofDecimal (negative : Bool) (d : Decimal) :
    (Numeral.ofDecimal negative d).IsPlain := by
  have hdigits := allDigits_toDigits d.digits
  have hne : Nat.toDigits 10 d.digits ≠ [] := Nat.toDigits_ne_nil
  unfold Numeral.ofDecimal
  dsimp only
  split_ifs
  · exact ⟨by simp, allDigits_replicate_zero 1, (allDigits_replicate_zero _).append hdigits,
      by simp, by simp⟩
  · exact ⟨by simp, hdigits.append (allDigits_replicate_zero _), allDigits_replicate_zero 1,
      by simp, by simp⟩
  · refine ⟨?_, hdigits.take _, hdigits.drop _, by simp, by simp⟩
    simp only [ne_eq, List.take_eq_nil_iff, hne, or_false]
    omega
  · refine ⟨by simp [hne], hdigits.take 1, hdigits.drop 1, ?_, ?_⟩
    · intro hpoint
      exact List.drop_eq_nil_of_le (by simpa using hpoint)
    · intro sign digits h
      obtain ⟨-, rfl⟩ := Prod.mk.inj (Option.some.inj h)
      exact ⟨exponentDigits_ne_nil _, allDigits_exponentDigits _⟩

theorem Numeral.negative_ofDecimal (negative : Bool) (d : Decimal) :
    (Numeral.ofDecimal negative d).negative = negative := by
  unfold Numeral.ofDecimal
  dsimp only
  split_ifs
  · rfl
  · rfl
  · rfl
  · rfl

theorem Numeral.isInteger_ofDecimal (negative : Bool) (d : Decimal) :
    (Numeral.ofDecimal negative d).isInteger = false := by
  unfold Numeral.ofDecimal
  dsimp only
  split_ifs
  · rfl
  · rfl
  · rfl
  · simp [isInteger]

/-- The token's digits are those of the decimal, with zeros behind them and an exponent that makes
up for the zeros. -/
theorem Numeral.exists_zeros_ofDecimal (negative : Bool) (d : Decimal) :
    ∃ k : Nat,
      Text.digitsValue ((Numeral.ofDecimal negative d).whole ++
        (Numeral.ofDecimal negative d).fraction) = d.digits * 10 ^ k ∧
      (Numeral.ofDecimal negative d).power - (Numeral.ofDecimal negative d).fraction.length + k =
        d.exponent ∧
      (k = 0 ∨ d.digits * 10 ^ k < 10 ^ 17) := by
  have hdigits := allDigits_toDigits d.digits
  have hvalue := digitsValue_toDigits d.digits
  have hpositive : 0 < (Nat.toDigits 10 d.digits).length := Nat.length_toDigits_pos
  have hlt : d.digits < 10 ^ (Nat.toDigits 10 d.digits).length :=
    (Nat.length_toDigits_le_iff (by decide) hpositive).mp (Nat.le_refl _)
  unfold Numeral.ofDecimal
  dsimp only
  generalize Nat.toDigits 10 d.digits = ds at hdigits hvalue hpositive hlt ⊢
  split_ifs with hsmall hlarge hwhole
  · refine ⟨0, ?_, ?_, Or.inl rfl⟩
    · have hzeros := digitsValue_zeros_append (1 + (-(ds.length + d.exponent)).toNat) hdigits
      rw [List.replicate_add, List.append_assoc, hvalue] at hzeros
      rw [Nat.pow_zero, Nat.mul_one]
      exact hzeros
    · simp only [power, List.length_append, List.length_replicate]
      omega
  · refine ⟨d.exponent.toNat + 1, ?_, ?_, Or.inr ?_⟩
    · have hzeros := digitsValue_append_zeros hdigits (d.exponent.toNat + 1)
      rw [hvalue, List.replicate_succ', ← List.append_assoc] at hzeros
      rw [← hzeros, show (ds.length + d.exponent).toNat - ds.length = d.exponent.toNat by omega]
    · simp only [power, List.length_singleton]
      omega
    · calc
        d.digits * 10 ^ (d.exponent.toNat + 1) < 10 ^ ds.length * 10 ^ (d.exponent.toNat + 1) :=
          Nat.mul_lt_mul_of_pos_right hlt (Nat.pow_pos (by decide))
        _ = 10 ^ (ds.length + (d.exponent.toNat + 1)) := (Nat.pow_add ..).symm
        _ ≤ 10 ^ 17 := Nat.pow_le_pow_right (by decide) (by omega)
  · refine ⟨0, ?_, ?_, Or.inl rfl⟩
    · rw [List.take_append_drop, hvalue, Nat.pow_zero, Nat.mul_one]
    · simp only [power, List.length_drop]
      omega
  · refine ⟨0, ?_, ?_, Or.inl rfl⟩
    · rw [List.take_append_drop, hvalue, Nat.pow_zero, Nat.mul_one]
    · simp only [power, List.length_drop, digitsValue_exponentDigits, decide_eq_true_eq]
      split_ifs
      · omega
      · omega

/-- The token of a decimal that rounds to a double is read as the double. -/
theorem Numeral.toBinary64_ofDecimal
    {d : Decimal} {units : Nat} (h : d.RoundsTo units) (hfits : Binary64.Fits units)
    (hpos : 0 < units) (hdigits : d.digits ≤ 10 ^ 17) (negative : Bool) :
    (Numeral.ofDecimal negative d).toBinary64 = .finite negative units hfits := by
  obtain ⟨k, hvalue, hexponent, hbound⟩ := exists_zeros_ofDecimal negative d
  rw [Numeral.toBinary64, hvalue, negative_ofDecimal]
  generalize (Numeral.ofDecimal negative d).power -
    (Numeral.ofDecimal negative d).fraction.length = exponent at hexponent ⊢
  have hsame := Decimal.sameValue_mul_pow d.digits k exponent
  rw [hexponent] at hsame
  apply Binary64.ofDecimal_eq_of_roundsTo (h.of_sameValue hsame.symm) hfits hpos
  rcases hbound with rfl | hbound
  · omega
  · omega

theorem Numeral.exponentDigits_eq (e : Int) :
    exponentDigits e =
      (if e.natAbs.repr.length < 2 then "0" ++ e.natAbs.repr else e.natAbs.repr).toList := by
  unfold exponentDigits
  rw [← String.length_toList, Nat.toList_repr]
  split_ifs
  · rw [String.toList_append, Nat.toList_repr]
    rfl
  · rw [Nat.toList_repr]

/-- The token of the shortest decimal is written as the double's text. -/
theorem Numeral.written_ofDecimal
    {units : Nat} (hfits : Binary64.Fits units) (hpos : 0 < units) (negative : Bool) :
    (Numeral.ofDecimal negative (Decimal.shortest units)).written =
      (Binary64.finite negative units hfits).text.toList := by
  have hsign : (if negative then ['-'] else []) = (if negative then "-" else "").toList := by
    cases negative <;> rfl
  unfold Binary64.text written
  rw [negative_ofDecimal, hsign]
  unfold Numeral.ofDecimal
  dsimp only
  rw [if_neg (Nat.pos_iff_ne_zero.mp hpos)]
  simp only [Nat.toString_eq_repr, Nat.toList_repr, Bool.and_eq_true, decide_eq_true_eq]
  generalize (if negative then "-" else "") = sign
  generalize Nat.toDigits 10 (Decimal.shortest units).digits = ds
  by_cases hsmall : -4 < ds.length + (Decimal.shortest units).exponent ∧
      ds.length + (Decimal.shortest units).exponent ≤ 0
  · rw [if_pos hsmall, if_pos hsmall]
    simp [exponentChars]
  by_cases hlarge : 0 < ds.length + (Decimal.shortest units).exponent ∧
      ds.length + (Decimal.shortest units).exponent ≤ 16
  · rw [if_neg hsmall, if_neg hsmall, if_pos hlarge, if_pos hlarge]
    by_cases hwhole : ds.length ≤ (ds.length + (Decimal.shortest units).exponent).toNat
    · rw [if_pos hwhole, if_pos hwhole]
      simp [exponentChars]
    · rw [if_neg hwhole, if_neg hwhole]
      simp [exponentChars]
  · rw [if_neg hsmall, if_neg hsmall, if_neg hlarge, if_neg hlarge]
    generalize ds.length + (Decimal.shortest units).exponent - 1 = e
    have hexponent :
        (if e < 0 then "-" else "+").toList = [if decide (e < 0) then '-' else '+'] := by
      by_cases hneg : e < 0
      · simp [hneg]
      · simp [hneg]
    have hfraction : (if ds.length ≤ 1 then "" else "." ++ String.ofList (ds.drop 1)).toList =
        if decide (1 < ds.length) then '.' :: ds.drop 1 else [] := by
      by_cases hshort : ds.length ≤ 1
      · simp [hshort]
      · simp [hshort, Nat.not_le.mp hshort]
    simp only [String.toList_append, String.toList_ofList, exponentDigits_eq, exponentChars,
      hexponent, hfraction, List.append_assoc]
    rfl

/-- The text of a finite double is a written token that stands for the double. -/
theorem Numeral.exists_of_text
    {x : Binary64} (hfinite : x.isFinite = true) :
    ∃ n : Numeral, n.IsPlain ∧ n.written = x.text.toList ∧ n.number? = .ok (some (.float x)) := by
  suffices hdouble : ∃ n : Numeral, n.IsPlain ∧ n.written = x.text.toList ∧
      n.isInteger = false ∧ n.toBinary64 = x by
    obtain ⟨n, hn, hwritten, hinteger, hread⟩ := hdouble
    refine ⟨n, hn, hwritten, ?_⟩
    rw [number?, hinteger, hread, hfinite]
    rfl
  match x, hfinite with
  | .finite negative 0 hfits, _ =>
    refine ⟨⟨negative, ['0'], true, ['0'], none⟩, ?_, ?_, rfl, ?_⟩
    · exact ⟨by simp, allDigits_replicate_zero 1, allDigits_replicate_zero 1, by simp, by simp⟩
    · cases negative <;> simp [written, exponentChars, Binary64.text]
    · rfl
  | .finite negative (units + 1) hfits, _ =>
    have hpos : 0 < units + 1 := Nat.succ_pos units
    obtain ⟨hrounds, hdigits⟩ := Decimal.shortest_roundsTo hpos hfits
    exact ⟨Numeral.ofDecimal negative (Decimal.shortest (units + 1)), isPlain_ofDecimal _ _,
      written_ofDecimal hfits hpos negative, isInteger_ofDecimal _ _,
      toBinary64_ofDecimal hrounds hfits hpos hdigits negative⟩

end SolidWorkshop
