import SolidWorkshop.Number.Binary64

/-!
# Decimal texts of double precision numbers

A double is written with the fewest digits that read back to it; of the decimals with that many
digits the nearest one is taken.  The digits are found in exact arithmetic: on each decimal grid
the two neighbours of the number are tested against the interval of reals that round to it.
-/

namespace SolidWorkshop

/-- The number `digits · 10 ^ exponent`. -/
structure Decimal where
  digits : Nat
  exponent : Int
  deriving DecidableEq, Repr

namespace Decimal

/-- The largest `e` with `10 ^ e` at most `units · 2⁻¹⁰⁷⁴`, for a positive count of units. -/
def leadingExponent (units : Nat) : Int :=
  let reaches (e : Int) : Bool :=
    if 0 ≤ e then decide (Nat.pow 10 e.toNat * Binary64.one ≤ units)
    else decide (Binary64.one ≤ units * Nat.pow 10 (-e).toNat)
  let estimate := Int.fdiv (((units.log2 : Int) - 1074) * 30103) 100000
  if reaches (estimate + 1) then estimate + 1
  else if reaches estimate then estimate
  else estimate - 1

/-- The interval of reals that round to a count of units, in quarters of a unit, and whether its
ends belong to it. -/
def roundingInterval (units : Nat) : Nat × Nat × Bool :=
  let step := Nat.pow 2 (units.log2 - 52)
  let below := if 52 < units.log2 && units == Nat.pow 2 units.log2 then step else 2 * step
  (4 * units - below, 4 * units + 2 * step, (units / step) % 2 == 0)

/-- The decimal on the grid of `10 ^ exponent` that is nearest to the number among those that
read back to it; a tie goes to the even digit. -/
def onGrid? (units : Nat) (exponent : Int) : Option Decimal :=
  let num := if exponent < 0 then units * Nat.pow 10 (-exponent).toNat else units
  let scale := if exponent < 0 then Nat.pow 10 (-exponent).toNat else 1
  let den := if exponent < 0 then Binary64.one else Binary64.one * Nat.pow 10 exponent.toNat
  let (low, high, closed) := roundingInterval units
  let inside (d : Nat) : Bool :=
    let x := 4 * d * den
    if closed then low * scale ≤ x && x ≤ high * scale else low * scale < x && x < high * scale
  let floor := num / den
  let nearest := roundHalfEven num den
  let other := if nearest == floor then floor + 1 else floor
  if inside nearest then some ⟨nearest, exponent⟩
  else if inside other then some ⟨other, exponent⟩
  else none

/-- Without the zeros at the end of the digits; the fuel is the number of digits looked at. -/
def dropZeros : Nat → Decimal → Decimal
  | 0, d => d
  | fuel + 1, d =>
    if d.digits != 0 && d.digits % 10 == 0 then dropZeros fuel ⟨d.digits / 10, d.exponent + 1⟩
    else d

/-- The shortest decimal that reads back to a positive count of units, without zeros at the end
of its digits. -/
def shortest (units : Nat) : Decimal :=
  let leading := leadingExponent units
  let found := (List.range 17).findSome? fun (k : Nat) => onGrid? units (leading - k)
  dropZeros 20 (found.getD ⟨roundHalfEven (units * Nat.pow 10 1074) Binary64.one, -1074⟩)

end Decimal

namespace Binary64

/-- The shortest text that reads back: positional from `10⁻⁴` to below `10¹⁶` with `.0` kept on
whole numbers, otherwise with an exponent of at least two digits. -/
def text : Binary64 → String
  | .nan => "nan"
  | .infinite negative => if negative then "-inf" else "inf"
  | .finite negative units _ =>
    let sign := if negative then "-" else ""
    if units = 0 then sign ++ "0.0"
    else
      let d := Decimal.shortest units
      let ds := (toString d.digits).toList
      let point : Int := ds.length + d.exponent
      if -4 < point && point ≤ 0 then
        sign ++ "0." ++ String.ofList (List.replicate (-point).toNat '0' ++ ds)
      else if 0 < point && point ≤ 16 then
        let whole := point.toNat
        if ds.length ≤ whole then
          sign ++ String.ofList (ds ++ List.replicate (whole - ds.length) '0') ++ ".0"
        else
          sign ++ String.ofList (ds.take whole) ++ "." ++ String.ofList (ds.drop whole)
      else
        let e := point - 1
        let magnitude := toString e.natAbs
        let padded := if magnitude.length < 2 then "0" ++ magnitude else magnitude
        let fraction := if ds.length ≤ 1 then "" else "." ++ String.ofList (ds.drop 1)
        sign ++ String.ofList (ds.take 1) ++ fraction ++ "e" ++ (if e < 0 then "-" else "+") ++ padded

/-- The text with a fixed number of places after the point, a half going to the even digit. -/
def fixed (places : Nat) : Binary64 → String
  | .nan => "nan"
  | .infinite negative => if negative then "-inf" else "inf"
  | .finite negative units _ =>
    let scaled := roundHalfEven (units * Nat.pow 10 places) one
    let ds := (toString scaled).toList
    let ds := List.replicate (places + 1 - ds.length) '0' ++ ds
    let whole := ds.take (ds.length - places)
    let sign := if negative then "-" else ""
    if places = 0 then sign ++ String.ofList whole
    else sign ++ String.ofList whole ++ "." ++ String.ofList (ds.drop (ds.length - places))

/-- Rounded to a number of decimal places, a half going to the even digit. -/
def roundPlaces (places : Nat) : Binary64 → Binary64
  | .finite negative units _ =>
    ofDecimal negative (roundHalfEven (units * Nat.pow 10 places) one) (-(places : Int))
  | x => x

end Binary64

end SolidWorkshop
