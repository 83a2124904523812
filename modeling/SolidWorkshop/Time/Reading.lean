import SolidWorkshop.Intake.Check
import SolidWorkshop.Time

/-!
# Reading points in time

A point in time is handed in as a date, as a date with a time of day and perhaps its distance from
universal time, or as a count of seconds since the start of the year 1970.
-/

namespace SolidWorkshop.Instant

open Intake

/-- The value of some ASCII digits; none when another character stands among them. -/
def digits? (s : List Char) : Option Nat :=
  if s.all Char.isDigit then some (Text.digitsValue s) else none

/-- A year with a day more. -/
def isLeap (year : Nat) : Bool :=
  year % 4 == 0 && (year % 100 != 0 || year % 400 == 0)

/-- The days of a month; none when there is no such month. -/
def daysOfMonth? (year month : Nat) : Option Nat :=
  if [1, 3, 5, 7, 8, 10, 12].contains month then some 31
  else if [4, 6, 9, 11].contains month then some 30
  else if month = 2 then some (if isLeap year then 29 else 28)
  else none

/-- The number of a day, counted from the first day of the year 2024. -/
def dayNumber (year month day : Nat) : Int :=
  let year : Int := if month ≤ 2 then year - 1 else year
  let era := Int.fdiv year 400
  let yearOfEra := year - era * 400
  let shifted : Int := if 2 < month then month - 3 else month + 9
  let dayOfYear := (153 * shifted + 2) / 5 + day - 1
  let dayOfEra := yearOfEra * 365 + yearOfEra / 4 - yearOfEra / 100 + dayOfYear
  era * 146097 + dayOfEra - dayOffset

/-- The number of the day at the start of a text, and what follows its date. -/
def readDate : List Char → Except String (Int × List Char)
  | y :: y' :: y'' :: y''' :: mark :: m :: m' :: mark' :: d :: d' :: rest => do
    let some year := digits? [y, y', y'', y'''] | throw "invalid character in year"
    if mark ≠ '-' then throw "invalid date separator, expected \x60-\x60"
    let some month := digits? [m, m'] | throw "invalid character in month"
    if mark' ≠ '-' then throw "invalid date separator, expected \x60-\x60"
    let some day := digits? [d, d'] | throw "invalid character in day"
    let some days := daysOfMonth? year month
      | throw "month value is outside expected range of 1-12"
    if day = 0 || days < day then throw "day value is outside expected range"
    return (dayNumber year month day, rest)
  | _ => .error "input is too short"

/-- Two digits below a bound at the start of a text, and what follows them. -/
def readPair? (bound : Nat) : List Char → Option (Nat × List Char)
  | a :: b :: rest => do
    let n ← digits? [a, b]
    if n < bound then some (n, rest) else none
  | _ => none

/-- The microseconds of the time of day at the start of a text, and what follows it. -/
def readTime? (s : List Char) : Option (Int × List Char) := do
  let (hour, s) ← readPair? 24 s
  let ':' :: s := s | none
  let (minute, s) ← readPair? 60 s
  let start : Int := (hour * 3600 + minute * 60) * second
  match s with
  | ':' :: s =>
    let (seconds, s) ← readPair? 60 s
    let start := start + seconds * second
    match s with
    | '.' :: s =>
      let fraction := s.takeWhile Char.isDigit
      if fraction.isEmpty then none
      else
        let six := (fraction ++ List.replicate 6 '0').take 6
        some (start + Text.digitsValue six, s.drop fraction.length)
    | _ => some (start, s)
  | _ => some (start, s)

/-- The distance from universal time that a text gives, in microseconds. -/
def distance? (s : List Char) : Option Int :=
  let span (sign : Int) (s : List Char) : Option Int := do
    let (hour, s) ← readPair? 24 s
    let s := if s.head? == some ':' then s.drop 1 else s
    let (minute, s) ← if s.isEmpty then some (0, []) else readPair? 60 s
    if s.isEmpty then some (sign * ((hour * 3600 + minute * 60) * second : Nat)) else none
  match s with
  | [] | ['Z'] | ['z'] => some 0
  | '+' :: s => span 1 s
  | '-' :: s => span (-1) s
  | _ => none

/-- The microseconds of a day. -/
def dayLength : Int := 86400 * second

/-- A date with a time of day behind it. -/
def ofDateTime? (s : List Char) : Option Instant := do
  let (day, s) ← (readDate s).toOption
  let mark :: s := s | none
  if !(['T', 't', ' ', '_'].contains mark) then none
  else
    let (time, s) ← readTime? s
    let distance ← distance? s
    return ⟨day * dayLength + time - distance⟩

/-- A date, at the start of its day. -/
def ofDate (s : List Char) : Except String Instant := do
  let (day, rest) ← readDate s
  if rest.isEmpty then return ⟨day * dayLength⟩
  else throw "unexpected extra characters at the end of the input"

/-- The seconds from the start of the year 1970 to the start of the year 2024. -/
def epochDistance : Int := 1704067200

/-- The greatest count that stands for seconds; a greater one stands for their thousandths. -/
def maxSeconds : Int := 20000000000

/-- A count of seconds since the start of the year 1970. -/
def ofCount (count : Number) : Instant :=
  let micros := microseconds count
  let micros := if maxSeconds * second < micros.natAbs then Int.tdiv micros 1000 else micros
  ⟨micros - epochDistance * second⟩

/-- Read a text as a point in time. -/
def ofText (s : String) : Except String Instant :=
  match ofDateTime? s.toList with
  | some t => .ok t
  | none =>
    match ofDate s.toList, plainDouble? s.toList with
    | .ok t, _ => .ok t
    | .error _, some count => .ok (ofCount (.float count))
    | .error reason, none => .error reason

/-- Check a point in time. -/
def check : Check Instant := fun v =>
  match v with
  | .int n => .good (ofCount (.int n))
  | .float x => .good (ofCount (.float x))
  | _ =>
    match carriedText? v with
    | some (.ok s) =>
      match ofText s with
      | .ok t => .good t
      | .error reason => .fail (.instantUnreadable reason) v
    | some (.error _) => .fail (.instantUnreadable "invalid character in year") v
    | none => .fail .instantExpected v

end SolidWorkshop.Instant
