import SolidWorkshop.Text.Utf8
import SolidWorkshop.Value

/-!
# Writing values as JSON

A value written on one line.  Texts keep their characters except those that JSON has to escape;
bytes, which JSON cannot hold, become null.
-/

namespace SolidWorkshop.Json

/-- The form of a character inside a text. -/
def escaped (c : Char) : List Char :=
  if c = '"' then ['\\', '"']
  else if c = '\\' then ['\\', '\\']
  else if c.toNat < 0x20 || c.toNat = 0x7f then '\\' :: 'u' :: Text.hex 4 c.toNat
  else [c]

/-- A text in quotes, behind what has been written. -/
def writeText (out : String) (s : String) : String :=
  (s.foldl (fun out c => (escaped c).foldl String.push out) (out.push '"')).push '"'

mutual

/-- A value as JSON, behind what has been written. -/
def writeOnto (out : String) : Value → String
  | .null => out ++ "null"
  | .bool b => out ++ if b then "true" else "false"
  | .int n => out ++ toString n
  | .float x => out ++ x.text
  | .text s => writeText out s
  | .bytes _ => out ++ "null"
  | .list items => (writeItems (out.push '[') items).push ']'
  | .dict entries => (writeEntries (out.push '\x7b') entries).push '\x7d'

/-- The items of a list, separated by commas. -/
def writeItems (out : String) : List Value → String
  | [] => out
  | [v] => writeOnto out v
  | v :: rest => writeItems ((writeOnto out v).push ',') rest

/-- The entries of a dictionary, separated by commas. -/
def writeEntries (out : String) : List (String × Value) → String
  | [] => out
  | [(k, v)] => writeOnto ((writeText out k).push ':') v
  | (k, v) :: rest => writeEntries ((writeOnto ((writeText out k).push ':') v).push ',') rest

end

/-- A value as JSON. -/
def write (v : Value) : String :=
  writeOnto "" v

end SolidWorkshop.Json
