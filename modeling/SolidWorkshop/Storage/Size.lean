import SolidWorkshop.Failure
import SolidWorkshop.Number.Decimal
import SolidWorkshop.Number.Numeral

/-!
# Sizes

The size of a file in words: bytes below a kibibyte, otherwise kibibytes or mebibytes with one
place after the point.
-/

namespace SolidWorkshop.Storage

/-- The bytes of a kibibyte. -/
def kibibyte : Nat := 1024

/-- The bytes of a mebibyte. -/
def mebibyte : Nat := 1024 * 1024

/-- A number divided by a count, as a double; none when it is out of range. -/
def quotient? (x : Number) (den : Nat) : Option Binary64 :=
  match x with
  | .int n =>
    match Binary64.ofRatio (n < 0) n.natAbs den with
    | .infinite _ => none
    | q => some q
  | .float (.finite negative units _) => some (.ofRatio negative units (den * Binary64.one))
  | .float x => some x

/-- The number is less than an integer. -/
def below (x : Number) (bound : Int) : Bool :=
  Number.compare? x (.int bound) == some .lt

/-- The size in words. -/
def sizeText (size : Number) : Except Failure String :=
  let scaled (unit : Nat) (name : String) : Except Failure String :=
    match quotient? size unit with
    | some q => .ok (q.fixed 1 ++ " " ++ name)
    | none => .error .quotientTooLarge
  if below size kibibyte then size.toValue.print.map (· ++ " B")
  else if below size mebibyte then scaled kibibyte "KB"
  else scaled mebibyte "MB"

/-- The size that a value stands for, in words; a truth value counts as a number of bytes, and keeps
its own word. -/
def sizeOf (v : Value) : Except Failure String :=
  match v with
  | .bool _ => .ok (v.quoted ++ " B")
  | _ =>
    match Number.ofValue? v with
    | some size => sizeText size
    | none => .error (.notComparable v)

/-- The size of a file in words.  A count beyond the range of doubles, which no file reaches, has
none. -/
def fileSize (bytes : Nat) : String :=
  match sizeText (.int bytes) with
  | .ok words => words
  | .error _ => ""

end SolidWorkshop.Storage
