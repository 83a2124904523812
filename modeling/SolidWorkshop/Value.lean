import SolidWorkshop.Number.Decimal
import SolidWorkshop.Text.Quoted

/-!
# Dynamic values

What a request body, an edited value or an answer can hold.  Integers and doubles stay apart,
and the entries of a dictionary keep their order.
-/

namespace SolidWorkshop

/-- A value whose kind is known only when the service runs. -/
inductive Value where
  | null
  | bool (b : Bool)
  | int (n : Int)
  | float (x : Binary64)
  | text (s : String)
  | bytes (b : ByteArray)
  | list (items : List Value)
  | dict (entries : List (String × Value))

namespace Value

instance : Inhabited Value := ⟨.null⟩

/-- The value stored under a key. -/
def get? (key : String) : Value → Option Value
  | .dict entries => entries.lookup key
  | _ => none

/-- The text that a value is. -/
def text? : Value → Option String
  | .text s => some s
  | _ => none

/-- The integer that a value is; a truth value counts as one or zero. -/
def int? : Value → Option Int
  | .int n => some n
  | .bool b => some b.toInt
  | _ => none

/-- A value that counts as true: everything but nothing, false, zero and the empty ones. -/
def isTruthy : Value → Bool
  | .null => false
  | .bool b => b
  | .int n => n != 0
  | .float x => !x.isZero
  | .text s => !s.isEmpty
  | .bytes b => !b.isEmpty
  | .list items => !items.isEmpty
  | .dict entries => !entries.isEmpty

mutual

/-- The form of a value that messages show, with texts in quotes. -/
def quoted : Value → String
  | .null => "None"
  | .bool b => if b then "True" else "False"
  | .int n => toString n
  | .float x => x.text
  | .text s => Text.quoted s
  | .bytes b => Text.quotedBytes b
  | .list items => "[" ++ quotedItems items ++ "]"
  | .dict entries => "\x7b" ++ quotedEntries entries ++ "\x7d"

/-- The items of a list, separated by commas. -/
def quotedItems : List Value → String
  | [] => ""
  | [v] => quoted v
  | v :: rest => quoted v ++ ", " ++ quotedItems rest

/-- The entries of a dictionary, separated by commas. -/
def quotedEntries : List (String × Value) → String
  | [] => ""
  | [(k, v)] => Text.quoted k ++ ": " ++ quoted v
  | (k, v) :: rest => Text.quoted k ++ ": " ++ quoted v ++ ", " ++ quotedEntries rest

end

/-- The text of a value: a text is its own, every other value has its quoted form. -/
def plain : Value → String
  | .text s => s
  | v => v.quoted

/-- The name messages give to the kind of a value. -/
def kindName : Value → String
  | .null => "NoneType"
  | .bool _ => "bool"
  | .int _ => "int"
  | .float _ => "float"
  | .text _ => "str"
  | .bytes _ => "bytes"
  | .list _ => "list"
  | .dict _ => "dict"

/-- A value that is missing or nothing is nothing. -/
def ofOption {α : Type} (f : α → Value) : Option α → Value
  | none => .null
  | some a => f a

end Value

/-- Set the value of a key: a known key keeps its place, a new one goes to the end. -/
def setEntry {κ α : Type} [DecidableEq κ] (key : κ) (value : α) : List (κ × α) → List (κ × α)
  | [] => [(key, value)]
  | (k, v) :: rest => if k = key then (k, value) :: rest else (k, v) :: setEntry key value rest

end SolidWorkshop
