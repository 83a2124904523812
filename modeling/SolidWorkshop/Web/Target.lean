import SolidWorkshop.Text.Utf8
import SolidWorkshop.Url

/-!
# Targets

What a request is about: a path with its escapes resolved, and the entries of a query.
-/

namespace SolidWorkshop.Web

/-- The bytes of a text with its escapes resolved; a mark without two digits stands for itself. -/
def unescapedBytes : List Char → List UInt8
  | '%' :: a :: b :: rest =>
    match Text.hexValue? a, Text.hexValue? b with
    | some high, some low => UInt8.ofNat (16 * high + low) :: unescapedBytes rest
    | _, _ => 37 :: unescapedBytes (a :: b :: rest)
  | c :: rest => c.toString.toUTF8.toList ++ unescapedBytes rest
  | [] => []

/-- A text with its escapes resolved. -/
def unescaped (s : List Char) : String :=
  Text.Utf8.decodeLenient ⟨(unescapedBytes s).toArray⟩

/-- What a request is about. -/
structure Target where
  path : String
  query : List (String × String)

namespace Target

/-- A part of a query; a plus sign stands for a blank. -/
def queryPart (s : List Char) : String :=
  unescaped (s.map fun c => if c = '+' then ' ' else c)

/-- An entry of a query; one without an equals sign has an empty value. -/
def queryEntry (s : List Char) : String × String :=
  (queryPart (s.takeWhile (· != '=')), queryPart ((s.dropWhile (· != '=')).drop 1))

/-- The entries of a query. -/
def queryEntries (query : String) : List (String × String) :=
  ((Text.splitOn '&' query.toList).filter (· != [])).map queryEntry

/-- The address in front of targets that name none. -/
def base : String := "http://service"

/-- The address that a text stands for, on a service. -/
def address (s : String) : Except String Url := do
  let u ← Url.ofText s
  if u.isAbsolute then return u
  else Url.ofText (base ++ u.below.text)

/-- Read a target; a text that is no address is a path. -/
def ofText (s : String) : Target :=
  match address s with
  | .ok u => ⟨unescaped u.path.toList, queryEntries (u.query.getD "")⟩
  | .error _ => ⟨s, []⟩

/-- The value of a name in the query; of several the last one counts. -/
def lookup? (t : Target) (name : String) : Option String :=
  t.query.reverse.lookup name

end Target

end SolidWorkshop.Web
