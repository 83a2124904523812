import SolidWorkshop.Number.Numeral
import SolidWorkshop.Text.Case

/-!
# Parameter values

A parameter has one of three kinds, and its value is a scalar.  One function writes a value as a
literal; the same literal goes back into the source and into the engine's arguments, so a value
reads identically in both places.
-/

namespace SolidWorkshop

/-- The kind of a parameter. -/
inductive Kind where
  | number
  | bool
  | text
  deriving DecidableEq

namespace Kind

/-- The name of a kind. -/
def name : Kind → String
  | .number => "number"
  | .bool => "bool"
  | .text => "string"

/-- All kinds. -/
def all : List Kind :=
  [.number, .bool, .text]

/-- The kind of a name. -/
def ofName? (s : String) : Option Kind :=
  all.find? (·.name == s)

end Kind

/-- The value of a parameter. -/
inductive Scalar where
  | bool (b : Bool)
  | int (n : Int)
  | float (x : Binary64)
  | text (s : String)
  deriving DecidableEq

namespace Scalar

instance : Inhabited Scalar := ⟨.bool false⟩

/-- The scalar as a dynamic value. -/
def toValue : Scalar → Value
  | .bool b => .bool b
  | .int n => .int n
  | .float x => .float x
  | .text s => .text s

/-- The scalar of a number. -/
def ofNumber : Number → Scalar
  | .int n => .int n
  | .float x => .float x

/-- Equal as values: numbers by exact value, a truth value only to a truth value and a text only
to a text. -/
def eq : Scalar → Scalar → Bool
  | .bool a, .bool b => a == b
  | .text s, .text t => s == t
  | .int m, .int n => m == n
  | .int m, .float y => Number.eq (.int m) (.float y)
  | .float x, .int n => Number.eq (.float x) (.int n)
  | .float x, .float y => Number.eq (.float x) (.float y)
  | _, _ => false

end Scalar

/-- The bound up to which a whole double is written without a point. -/
def wholeLimit : Nat := Nat.pow 10 21

/-- The literal of a number.  A whole double below the limit is written as an integer. -/
def numberLiteral : Value → Except Failure String
  | .bool b => .ok (if b then "1" else "0")
  | .int n => Value.print (.int n)
  | .float x =>
    if !x.isFinite then .error (.notFinite x)
    else
      match x.truncate? with
      | some n =>
        if x.isWhole && n.natAbs < wholeLimit then .ok (toString n) else .ok x.text
      | none => .ok x.text
  | v => v.print

/-- The literal of a value for a parameter of some kind.  Nothing inside a text is escaped. -/
def literal (kind : Kind) (v : Value) : Except Failure String :=
  match kind with
  | .bool => .ok (if v.isTruthy then "true" else "false")
  | .text => do return "\"" ++ (← v.print) ++ "\""
  | .number => numberLiteral v

/-- The word a text is, in small letters and without blank ends. -/
def wordOf (s : String) : String :=
  String.ofList (Text.smalls (Text.trim s.toList))

/-- Refuse a value for a reason that shows it; one that cannot be shown is refused for that. -/
def refuse {α : Type} (reason : Value → Failure) (raw : Value) : Except Failure α :=
  if raw.isPrintable then .error (reason raw) else .error .tooLongToPrint

/-- Take an edited value for a parameter of some kind. -/
def coerce (kind : Kind) (raw : Value) : Except Failure Scalar :=
  match kind with
  | .bool =>
    match raw with
    | .bool b => .ok (.bool b)
    | .text s =>
      if wordOf s = "true" then .ok (.bool true)
      else if wordOf s = "false" then .ok (.bool false)
      else refuse .expectedBool raw
    | _ => refuse .expectedBool raw
  | .text =>
    match raw with
    | .dict _ | .list _ => refuse .expectedText raw
    | .text s => .ok (.text s)
    | v => do return .text (← v.print)
  | .number =>
    match raw with
    | .int n => .ok (.int n)
    | .float x => if x.isFinite then .ok (.float x) else refuse .expectedFinite raw
    | .text s => do
      match ← Number.ofChars? s.toList with
      | some n => return .ofNumber n
      | none => refuse .expectedNumber raw
    | _ => refuse .expectedNumber raw

end SolidWorkshop
