import SolidWorkshop.Number

/-!
# Points in time

Time is counted in microseconds from the start of the year 2024 in universal time, and written as
a date and a time of day.
-/

namespace SolidWorkshop

/-- The microseconds of a second. -/
def second : Nat := 1000000

/-- The microseconds of a number of seconds, a half microsecond rounded to the even neighbour.
The fraction of a second is scaled in double precision. -/
def microseconds : Number → Int
  | .int n => n * second
  | .float (.finite negative units _) =>
    let fraction := Binary64.ofRatio false (units % Binary64.one * second) Binary64.one
    let below := match fraction with
      | .finite _ part _ => roundHalfEven part Binary64.one
      | _ => 0
    Binary64.signedUnits negative (units / Binary64.one * second + below)
  | .float _ => 0

/-- A point in time. -/
structure Instant where
  micros : Int
  deriving DecidableEq

namespace Instant

instance : Inhabited Instant := ⟨⟨0⟩⟩

/-- The point in time a span later. -/
def later (t : Instant) (span : Int) : Instant :=
  ⟨t.micros + span⟩

/-- The days from the first of March of the year zero to the start of the year 2024. -/
def dayOffset : Int := 719468 + 19723

/-- The year, month and day of a day counted from the first of March of the year zero.  Years are
counted from March, so that the day between leap years and others is the last of its year. -/
def civil (day : Int) : Int × Int × Int :=
  let era := Int.fdiv day 146097
  let dayOfEra := day - era * 146097
  let yearOfEra :=
    (dayOfEra - dayOfEra / 1460 + dayOfEra / 36524 - dayOfEra / 146096) / 365
  let dayOfYear := dayOfEra - (365 * yearOfEra + yearOfEra / 4 - yearOfEra / 100)
  let shifted := (5 * dayOfYear + 2) / 153
  let dayOfMonth := dayOfYear - (153 * shifted + 2) / 5 + 1
  let month := if shifted < 10 then shifted + 3 else shifted - 9
  let year := yearOfEra + era * 400
  (if month ≤ 2 then year + 1 else year, month, dayOfMonth)

/-- A number with zeros in front. -/
def padded (width : Nat) (n : Int) : String :=
  let digits := (toString n).toList
  String.ofList (List.replicate (width - digits.length) '0' ++ digits)

/-- A date and a time of day; a fraction of a second is written with six digits. -/
def text (t : Instant) : String :=
  let seconds := Int.fdiv t.micros second
  let fraction := t.micros - seconds * second
  let days := Int.fdiv seconds 86400
  let rest := seconds - days * 86400
  let (year, month, day) := civil (days + dayOffset)
  padded 4 year ++ "-" ++ padded 2 month ++ "-" ++ padded 2 day ++ "T"
    ++ padded 2 (rest / 3600) ++ ":" ++ padded 2 (rest / 60 % 60) ++ ":" ++ padded 2 (rest % 60)
    ++ (if fraction = 0 then "" else "." ++ padded 6 fraction) ++ "Z"

end Instant

end SolidWorkshop
