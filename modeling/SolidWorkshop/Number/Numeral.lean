import SolidWorkshop.Failure
import SolidWorkshop.Text.Blank
import SolidWorkshop.Text.Digit

/-!
# Number tokens

The grammar of a number: an optional sign, digits with an optional point among them or in front
of them, and an optional exponent.  A token of a sign and digits alone is an integer; every
other one is a double.  A token beyond the range of doubles is not a number.
-/

namespace SolidWorkshop

/-- A number token taken apart. -/
structure Numeral where
  negative : Bool
  whole : List Char
  point : Bool
  fraction : List Char
  exponent : Option (Bool × List Char)

namespace Numeral

/-- An optional sign in front of a text: whether it is a minus, and the rest. -/
def takeSign : List Char → Bool × List Char
  | '+' :: rest => (false, rest)
  | '-' :: rest => (true, rest)
  | s => (false, s)

/-- The exponent part of a token: nothing, or the letter, an optional sign and digits. -/
def exponentOf? : List Char → Option (Option (Bool × List Char))
  | [] => some none
  | c :: rest =>
    let (negative, digits) := takeSign rest
    if (c = 'e' || c = 'E') && !digits.isEmpty && digits.all Text.isDigit then
      some (some (negative, digits))
    else none

/-- Take a whole text apart as a number token. -/
def ofChars? (s : List Char) : Option Numeral :=
  let (negative, s) := takeSign s
  let whole := s.takeWhile Text.isDigit
  match s.dropWhile Text.isDigit with
  | '.' :: rest =>
    let fraction := rest.takeWhile Text.isDigit
    if whole.isEmpty && fraction.isEmpty then none
    else (exponentOf? (rest.dropWhile Text.isDigit)).map fun exponent =>
      ⟨negative, whole, true, fraction, exponent⟩
  | rest =>
    if whole.isEmpty then none
    else (exponentOf? rest).map fun exponent => ⟨negative, whole, false, [], exponent⟩

/-- A token of a sign and digits alone. -/
def isInteger (n : Numeral) : Bool :=
  !n.point && n.exponent.isNone

/-- The power of ten that the exponent part stands for. -/
def power (n : Numeral) : Int :=
  match n.exponent with
  | none => 0
  | some (negative, digits) =>
    let magnitude : Int := Text.digitsValue digits
    if negative then -magnitude else magnitude

/-- The double nearest to the token's number. -/
def toBinary64 (n : Numeral) : Binary64 :=
  .ofDecimal n.negative (Text.digitsValue (n.whole ++ n.fraction)) (n.power - n.fraction.length)

/-- The integer of a token of digits alone. -/
def toInt (n : Numeral) : Int :=
  let magnitude : Int := Text.digitsValue n.whole
  if n.negative then -magnitude else magnitude

/-- The most digits an integer token may have. -/
def digitLimit : Nat := 4300

/-- The number of a token; none when it is out of range, a failure when an integer has too many
digits. -/
def number? (n : Numeral) : Except Failure (Option Number) :=
  if n.isInteger then
    if digitLimit < n.whole.length then .error (.tooManyDigits n.whole.length)
    else .ok (some (.int n.toInt))
  else if n.toBinary64.isFinite then .ok (some (.float n.toBinary64))
  else .ok none

end Numeral

/-- A text, blank ends aside, is a number token. -/
def isNumeral (s : List Char) : Bool :=
  (Numeral.ofChars? (Text.trim s)).isSome

/-- Read a text, blank ends aside, as a number. -/
def Number.ofChars? (s : List Char) : Except Failure (Option Number) :=
  match Numeral.ofChars? (Text.trim s) with
  | none => .ok none
  | some n => n.number?

/-- Read a double written in any usual way: a number token with single underscores between
digits, or one of the words for the values that are not finite. -/
def Binary64.ofText? (s : String) : Option Binary64 :=
  let (negative, body) := Numeral.takeSign (Text.trim s.toList)
  let word := String.ofList (body.map Char.toLower)
  if word = "inf" || word = "infinity" then some (.infinite negative)
  else if word = "nan" then some .nan
  else
    let spaced := (body.zip (' ' :: body)).zip (body.drop 1 ++ [' '])
    let placed := spaced.all fun ((c, before), after) =>
      c != '_' || (Text.isDigit before && Text.isDigit after)
    match body with
    | '+' :: _ | '-' :: _ => none
    | _ =>
      if placed then
        (Numeral.ofChars? (body.filter (· != '_'))).map fun n =>
          { n with negative }.toBinary64
      else none

namespace Value

mutual

/-- Every integer in a value is short enough to be printed. -/
def isPrintable : Value → Bool
  | .int n => (toString n.natAbs).length ≤ Numeral.digitLimit
  | .list items => arePrintable items
  | .dict entries => havePrintable entries
  | _ => true

/-- Every integer in some values is short enough to be printed. -/
def arePrintable : List Value → Bool
  | [] => true
  | v :: rest => isPrintable v && arePrintable rest

/-- Every integer in the values of some entries is short enough to be printed. -/
def havePrintable : List (String × Value) → Bool
  | [] => true
  | (_, v) :: rest => isPrintable v && havePrintable rest

end

/-- The text of a value; a failure when an integer in it is longer than the printer takes. -/
def print (v : Value) : Except Failure String :=
  if v.isPrintable then .ok v.plain else .error .tooLongToPrint

end Value

end SolidWorkshop
