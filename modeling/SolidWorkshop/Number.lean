import SolidWorkshop.Value

/-!
# Numbers

A number of the source text is an integer of any size or a double, and it stays what its token
made it.  Order and equality compare the exact values.
-/

namespace SolidWorkshop

/-- An integer or a double. -/
inductive Number where
  | int (n : Int)
  | float (x : Binary64)
  deriving DecidableEq

namespace Number

instance : Inhabited Number := ⟨.int 0⟩

/-- The number as a dynamic value. -/
def toValue : Number → Value
  | .int n => .int n
  | .float x => .float x

/-- The number that a value is; a truth value counts as one or zero. -/
def ofValue? : Value → Option Number
  | .float x => some (.float x)
  | v => v.int?.map .int

/-- The text of a number. -/
def text (x : Number) : String :=
  x.toValue.quoted

/-- The exact order of two numbers; none when one of them is undefined. -/
def compare? : Number → Number → Option Ordering
  | .int m, .int n => some (compare m n)
  | .int m, .float y => Binary64.compareInt? m y
  | .float x, .int n => (Binary64.compareInt? n x).map Ordering.swap
  | .float x, .float y => Binary64.compare? x y

/-- Exactly equal in value. -/
def eq (x y : Number) : Bool :=
  compare? x y == some .eq

/-- At most as large in value. -/
def le (x y : Number) : Bool :=
  match compare? x y with
  | some .lt => true
  | some .eq => true
  | _ => false

/-- Neither infinite nor undefined. -/
def isFinite : Number → Bool
  | .int _ => true
  | .float x => x.isFinite

/-- The number as a double; none when an integer is out of range. -/
def toBinary64? : Number → Option Binary64
  | .int n => Binary64.ofInt? n
  | .float x => some x

/-- The difference: exact between integers, otherwise a difference of doubles; none when an
integer beside a double is out of range. -/
def sub? : Number → Number → Option Number
  | .int m, .int n => some (.int (m - n))
  | x, y => do return .float ((← x.toBinary64?).sub (← y.toBinary64?))

end Number

end SolidWorkshop
