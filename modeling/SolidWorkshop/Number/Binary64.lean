/-!
# Double precision numbers

Finite double precision numbers are whole multiples of `2⁻¹⁰⁷⁴`, so a finite number is kept as
its sign and the count of these units.  Comparison, subtraction and conversion are then exact
arithmetic on natural numbers followed by one rounding to a count that 53 binary digits can hold.
-/

namespace SolidWorkshop

namespace Binary64

/-- The number of units in one: `2¹⁰⁷⁴`. -/
def one : Nat := Nat.pow 2 1074

/-- A count of units is a finite double when it has at most 53 significant binary digits and
stands below `2¹⁰²⁴`. -/
def Fits (units : Nat) : Prop :=
  units.log2 < 2098 ∧ units % Nat.pow 2 (units.log2 - 52) = 0

instance (units : Nat) : Decidable (Fits units) :=
  inferInstanceAs (Decidable (_ ∧ _))

end Binary64

/-- A double precision number. -/
inductive Binary64 where
  /-- The number `± units · 2⁻¹⁰⁷⁴`. -/
  | finite (negative : Bool) (units : Nat) (fits : Binary64.Fits units)
  | infinite (negative : Bool)
  | nan
  deriving DecidableEq

/-- The quotient rounded to the nearest whole number, a half to the even neighbour. -/
def roundHalfEven (num den : Nat) : Nat :=
  let quotient := num / den
  let rest := num % den
  if 2 * rest < den then quotient
  else if den < 2 * rest then quotient + 1
  else quotient + quotient % 2

namespace Binary64

/-- Zero. -/
def zero : Binary64 :=
  .finite false 0 (by decide)

instance : Inhabited Binary64 := ⟨zero⟩

/-- The double nearest to `± num / den`, a tie going to the even significand; infinite from half
a step above the largest finite double. -/
def ofRatio (negative : Bool) (num den : Nat) : Binary64 :=
  let scaled := num * one
  let step := Nat.pow 2 ((scaled / den).log2 - 52)
  let units := roundHalfEven scaled (den * step) * step
  if fits : Fits units then .finite negative units fits else .infinite negative

/-- A close lower estimate of how many decimal digits a number has: exact or one too small. -/
def decimalLength (n : Nat) : Nat :=
  n.log2 * 30103 / 100000 + 1

/-- The double nearest to `± digits · 10 ^ exponent`. -/
def ofDecimal (negative : Bool) (digits : Nat) (exponent : Int) : Binary64 :=
  if digits = 0 then .finite negative 0 (by decide)
  else
    let magnitude := decimalLength digits + exponent
    if 310 < magnitude then .infinite negative
    else if magnitude < -330 then .finite negative 0 (by decide)
    else if 0 ≤ exponent then ofRatio negative (digits * Nat.pow 10 exponent.toNat) 1
    else ofRatio negative digits (Nat.pow 10 (-exponent).toNat)

/-- Neither infinite nor undefined. -/
def isFinite : Binary64 → Bool
  | .finite .. => true
  | _ => false

/-- The double nearest to an integer, when there is a finite one. -/
def ofInt? (n : Int) : Option Binary64 :=
  let x := ofRatio (n < 0) n.natAbs 1
  if x.isFinite then some x else none

/-- A finite number without a fractional part. -/
def isWhole : Binary64 → Bool
  | .finite _ units _ => units % one == 0
  | _ => false

/-- The signed count of units of a finite number. -/
def signedUnits (negative : Bool) (units : Nat) : Int :=
  if negative then -(units : Int) else units

/-- The whole part of a finite number, cut toward zero. -/
def truncate? : Binary64 → Option Int
  | .finite negative units _ => some (signedUnits negative (units / one))
  | _ => none

/-- The order of two numbers; none when one of them is undefined. -/
def compare? : Binary64 → Binary64 → Option Ordering
  | .nan, _ => none
  | _, .nan => none
  | .infinite a, .infinite b => some (compare b.toNat a.toNat)
  | .infinite negative, .finite .. => some (if negative then .lt else .gt)
  | .finite .., .infinite negative => some (if negative then .gt else .lt)
  | .finite a m _, .finite b n _ => some (compare (signedUnits a m) (signedUnits b n))

/-- The order of an integer and a double, compared exactly. -/
def compareInt? (n : Int) : Binary64 → Option Ordering
  | .nan => none
  | .infinite negative => some (if negative then .gt else .lt)
  | .finite negative units _ => some (compare (n * one) (signedUnits negative units))

/-- Numerically equal; the two zeros are equal. -/
def eq (x y : Binary64) : Bool :=
  compare? x y == some .eq

/-- The negated number. -/
def neg : Binary64 → Binary64
  | .finite negative units fits => .finite (!negative) units fits
  | .infinite negative => .infinite (!negative)
  | .nan => .nan

/-- The difference, rounded to the nearest double. -/
def sub : Binary64 → Binary64 → Binary64
  | .nan, _ => .nan
  | _, .nan => .nan
  | .infinite a, .infinite b => if a == b then .nan else .infinite a
  | .infinite a, .finite .. => .infinite a
  | .finite .., .infinite b => .infinite (!b)
  | .finite a m _, .finite b n _ =>
    let difference := signedUnits a m - signedUnits b n
    if difference = 0 then .finite (a && !b) 0 (by decide)
    else ofRatio (difference < 0) difference.natAbs one

/-- Truth of a number: zero alone is false. -/
def isZero : Binary64 → Bool
  | .finite _ units _ => units == 0
  | _ => false

end Binary64

end SolidWorkshop
