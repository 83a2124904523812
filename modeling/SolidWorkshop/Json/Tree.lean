import SolidWorkshop.Text.Point
import SolidWorkshop.Value

/-!
# Documents

What a JSON document says.  Its texts may hold halves of surrogate pairs; a document without them
is a value.
-/

namespace SolidWorkshop.Json

open Text

/-- What a document says. -/
inductive Tree where
  | null
  | bool (b : Bool)
  | int (n : Int)
  | float (x : Binary64)
  | text (s : List Point)
  | list (items : List Tree)
  | dict (entries : List (List Point × Tree))

namespace Tree

/-- What a document says under a key. -/
def get? (key : String) : Tree → Option Tree
  | .dict entries => entries.lookup (points key)
  | _ => none

mutual

/-- The value that a document is; none when a text of it is no string. -/
def value? : Tree → Option Value
  | .null => some .null
  | .bool b => some (.bool b)
  | .int n => some (.int n)
  | .float x => some (.float x)
  | .text s => (ofPoints? s).map .text
  | .list items => (values? items).map .list
  | .dict entries => (valuesByKey? entries).map .dict

/-- The values that the items of a list are. -/
def values? : List Tree → Option (List Value)
  | [] => some []
  | t :: rest => do return (← value? t) :: (← values? rest)

/-- The entries of a dictionary with the values that they are. -/
def valuesByKey? : List (List Point × Tree) → Option (List (String × Value))
  | [] => some []
  | (key, t) :: rest => do return (← ofPoints? key, ← value? t) :: (← valuesByKey? rest)

end

end Tree

end SolidWorkshop.Json
