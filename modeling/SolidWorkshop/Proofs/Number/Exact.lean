import SolidWorkshop.Proofs.Source.Literal

/-!
# Exact values of numbers

Finite numbers are equal when they are the same count of units, so equality passes on from number
to number.  An integer that equals the number of a token is short enough to be written.
-/

namespace SolidWorkshop

open Text

/-! ## Counts of units -/

/-- A finite number as a count of the units of doubles. -/
def Number.units? : Number → Option Int
  | .int n => some (n * Binary64.one)
  | .float (.finite negative units _) => some (Binary64.signedUnits negative units)
  | .float _ => none

theorem compare_beq_eq_iff (m n : Int) :
    (some (compare m n) == some Ordering.eq) = true ↔ m = n := by
  rw [beq_iff_eq, Option.some.injEq]
  exact Std.LawfulEqOrd.compare_eq_iff_eq

theorem compare_swap_beq_eq_iff (m n : Int) :
    (some (compare m n).swap == some Ordering.eq) = true ↔ n = m := by
  rw [beq_iff_eq, Option.some.injEq, Ordering.swap_eq_eq, eq_comm (a := n)]
  exact Std.LawfulEqOrd.compare_eq_iff_eq

theorem mul_one_units_inj {m n : Int} :
    m * Binary64.one = n * Binary64.one ↔ m = n := by
  have hne : (Binary64.one : Int) ≠ 0 := Int.ofNat_ne_zero.mpr (Nat.ne_of_gt Binary64.one_units_pos)
  exact Int.mul_eq_mul_right_iff hne

theorem Number.units?_ne_none
    {y : Number} (hy : y.isFinite = true) :
    y.units? ≠ none := by
  cases y with
  | int n => exact Option.some_ne_none _
  | float y =>
    cases y with
    | finite negative units fits => exact Option.some_ne_none _
    | _ => contradiction

/-- A number equals a finite one exactly when it is the same count of units.  One that is not finite
is no count of units. -/
theorem Number.eq_iff
    {x y : Number} (hy : y.isFinite = true) :
    x.eq y = true ↔ x.units? = y.units? := by
  have hne : none ≠ y.units? := (units?_ne_none hy).symm
  cases x with
  | int m =>
    cases y with
    | int n =>
      rw [Number.eq, compare?, compare_beq_eq_iff, units?, units?, Option.some.injEq,
        mul_one_units_inj]
    | float y =>
      cases y with
      | finite negative units fits =>
        rw [Number.eq, compare?, Binary64.compareInt?, compare_beq_eq_iff, units?, units?,
          Option.some.injEq]
      | _ => contradiction
  | float x =>
    cases y with
    | int n =>
      cases x with
      | finite negative units fits =>
        rw [Number.eq, compare?, Binary64.compareInt?, Option.map_some, compare_swap_beq_eq_iff,
          units?, units?, Option.some.injEq]
      | infinite negative =>
        cases negative with
        | _ => exact iff_of_false Bool.false_ne_true hne
      | nan => exact iff_of_false Bool.false_ne_true hne
    | float y =>
      cases y with
      | finite negative units fits =>
        cases x with
        | finite negative' units' fits' =>
          rw [Number.eq, compare?, Binary64.compare?, compare_beq_eq_iff, units?, units?,
            Option.some.injEq]
        | infinite negative =>
          cases negative with
          | _ => exact iff_of_false Bool.false_ne_true hne
        | nan => exact iff_of_false Bool.false_ne_true hne
      | _ => contradiction

/-- Two numbers that equal a third one are equal. -/
theorem Number.eq_of_eq
    {x y z : Number} (hy : y.isFinite = true) (hz : z.isFinite = true) (hxy : x.eq y = true)
    (hxz : x.eq z = true) :
    y.eq z = true := by
  rw [Number.eq_iff hy] at hxy
  rw [Number.eq_iff hz] at hxz ⊢
  exact hxy.symm.trans hxz

/-! ## Integers that are short enough -/

theorem digitValue?_lt
    {c : Char} {d : Nat} (h : digitValue? c = some d) :
    d < 10 := by
  unfold digitValue? at h
  split_ifs at h with hsmall hdigit
  · have hrange := Numeral.toNat_of_isDigit hdigit
    obtain rfl := Option.some.inj h
    omega
  · obtain ⟨first, hfound, rfl⟩ := Option.map_eq_some_iff.mp h
    have hrange := List.find?_some hfound
    simp only [Bool.and_eq_true, decide_eq_true_eq] at hrange
    omega

theorem digitsValue_lt (s : List Char) :
    digitsValue s < 10 ^ s.length := by
  induction s using List.reverseRecOn with
  | nil => simp [digitsValue]
  | append_singleton s c ih =>
    have hdigit : (digitValue? c).getD 0 < 10 := by
      cases hd : digitValue? c with
      | none => exact Nat.zero_lt_succ 9
      | some d => exact digitValue?_lt hd
    rw [digitsValue] at ih
    rw [digitsValue, List.foldl_append, List.foldl_cons, List.foldl_nil, List.length_append,
      List.length_singleton, Nat.pow_succ]
    omega

/-- An integer that a token is read as is short enough to be written. -/
theorem Numeral.natAbs_lt_of_number?
    {n : Numeral} {k : Int} (h : n.number? = .ok (some (.int k))) :
    k.natAbs < 10 ^ digitLimit := by
  unfold Numeral.number? at h
  split_ifs at h with hinteger hlong hfinite
  · obtain ⟨⟩ := h
    have hvalue := digitsValue_lt n.whole
    have habs : n.toInt.natAbs = digitsValue n.whole := by
      unfold Numeral.toInt
      dsimp only
      split_ifs <;> simp
    rw [habs]
    exact Nat.lt_of_lt_of_le hvalue (Nat.pow_le_pow_right (by decide) (Nat.not_lt.mp hlong))
  · cases h
  · cases h

/-- An integer that equals a double is short enough to be written. -/
theorem Number.natAbs_lt_of_eq_float
    {k : Int} {x : Binary64} (h : (Number.int k).eq (.float x) = true)
    (hx : x.isFinite = true) :
    k.natAbs < 10 ^ Numeral.digitLimit := by
  have hunits := (Number.eq_iff (y := .float x) hx).mp h
  cases x with
  | finite negative units fits =>
    have hvalue : k * Binary64.one = Binary64.signedUnits negative units := Option.some.inj hunits
    have habs : k.natAbs * Binary64.one = units := by
      have hsame := congrArg Int.natAbs hvalue
      rw [Int.natAbs_mul, Int.natAbs_natCast] at hsame
      rw [hsame, Binary64.signedUnits]
      split_ifs <;> simp
    have hbound := fits.lt_bound
    have hlimit := Nat.pow_le_pow_right (show 0 < 10 by decide)
      (show 310 ≤ Numeral.digitLimit by decide)
    rw [← habs] at hbound
    exact Nat.lt_of_lt_of_le (Nat.lt_of_mul_lt_mul_right hbound) hlimit
  | _ => contradiction

/-! ## Values that equal a number of a token -/

theorem Scalar.eq_ofNumber (x y : Number) :
    (Scalar.ofNumber x).eq (.ofNumber y) = x.eq y := by
  cases x with
  | int m =>
    cases y with
    | int n =>
      rw [Bool.eq_iff_iff, Number.eq, Number.compare?, compare_beq_eq_iff]
      exact beq_iff_eq
    | float y => rfl
  | float x =>
    cases y with
    | _ => rfl

/-- Only a number equals a number. -/
theorem Scalar.exists_of_eq_ofNumber
    {v : Scalar} {x : Number} (h : v.eq (.ofNumber x) = true) :
    ∃ y, v = .ofNumber y := by
  cases v with
  | int n => exact ⟨.int n, rfl⟩
  | float y => exact ⟨.float y, rfl⟩
  | bool b | text s =>
    cases x with
    | _ => contradiction

/-- A value that equals a number of a token can be written and read back. -/
theorem Scalar.isPlain_of_eq
    {token : List Char} {x : Number} (hread : Number.ofChars? token = .ok (some x)) {v : Scalar}
    (h : v.eq (.ofNumber x) = true) :
    v.IsPlain := by
  obtain ⟨y, rfl⟩ := exists_of_eq_ofNumber h
  rw [eq_ofNumber] at h
  cases y with
  | float y => exact trivial
  | int n =>
    have hbound : n.natAbs < 10 ^ Numeral.digitLimit := by
      cases x with
      | float x => exact Number.natAbs_lt_of_eq_float h (Number.isFinite_of_ofChars? hread)
      | int m =>
        rw [Number.eq, Number.compare?, compare_beq_eq_iff] at h
        unfold Number.ofChars? at hread
        split at hread
        · cases hread
        · exact h ▸ Numeral.natAbs_lt_of_number? hread
    exact (Nat.length_repr_le_iff (by decide)).mpr hbound

end SolidWorkshop
