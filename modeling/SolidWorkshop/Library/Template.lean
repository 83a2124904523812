import SolidWorkshop.Failure
import SolidWorkshop.Text.Digit
import SolidWorkshop.Text.Point

/-!
# Address templates

The addresses of the library are texts with fields in braces.  A field names one of the values
that are known; behind the name may stand a conversion and a form with a width, a fill and a
greatest length.  A brace that is text is written twice.  The templates are strings; the values
may hold halves of surrogate pairs, and so may the addresses.
-/

namespace SolidWorkshop.Library

open Text

/-- The values that fields name. -/
abbrev Fields := List (String × List Point)

/-- A field as it is written. -/
structure Field where
  name : List Char
  conversion : Option Char
  form : List Char
  deriving DecidableEq

/-- A complaint about a template. -/
def malformed {α : Type} (reason : String) : Except Failure α :=
  .error (.templateMalformed reason)

/-- The name of a field and what follows it, with the mark that ends the name.  Inside square
brackets no mark ends it. -/
def takeName (inside : Bool) (done : List Char) : List Char → Except Failure (List Char × List Char)
  | [] => malformed "expected '\x7d' before end of string"
  | c :: rest =>
    if inside then takeName (c != ']') (c :: done) rest
    else if c = '\x7b' then malformed "unexpected '\x7b' in field name"
    else if c = '\x7d' || c = ':' || c = '!' then .ok (done.reverse, c :: rest)
    else takeName (c = '[') (c :: done) rest

/-- The form of a field up to the brace that closes it, and what follows. -/
def takeForm (depth : Nat) (done : List Char) : List Char → Except Failure (List Char × List Char)
  | [] => malformed "unmatched '\x7b' in format spec"
  | c :: rest =>
    if c = '\x7b' then takeForm (depth + 1) (c :: done) rest
    else if c = '\x7d' then
      match depth with
      | 0 => .ok (done.reverse, rest)
      | k + 1 => takeForm k (c :: done) rest
    else takeForm depth (c :: done) rest

/-- The field behind an opening brace, and what follows it. -/
def takeField (s : List Char) : Except Failure (Field × List Char) := do
  let (name, rest) ← takeName false [] s
  match rest with
  | '!' :: rest =>
    match rest with
    | [] => malformed "end of string while looking for conversion specifier"
    | conversion :: rest =>
      match rest with
      | '\x7d' :: rest => return (⟨name, some conversion, []⟩, rest)
      | ':' :: rest =>
        let (form, rest) ← takeForm 0 [] rest
        return (⟨name, some conversion, form⟩, rest)
      | [] => malformed "unmatched '\x7b' in format spec"
      | _ => malformed "expected ':' after conversion specifier"
  | ':' :: rest =>
    let (form, rest) ← takeForm 0 [] rest
    return (⟨name, none, form⟩, rest)
  | _ => return (⟨name, none, []⟩, rest.drop 1)

/-- How the width of a text is filled. -/
inductive Side where
  | left
  | right
  | both
  | sign
  deriving DecidableEq

/-- The side that a mark stands for. -/
def sideOf? : Char → Option Side
  | '<' => some .left
  | '>' => some .right
  | '^' => some .both
  | '=' => some .sign
  | _ => none

/-- The largest number a form may hold. -/
def formLimit : Nat := Nat.pow 2 63 - 1

/-- A number at the start of a form. -/
def takeCount (s : List Point) : Except Failure (Option Nat × List Point) :=
  let digits := (s.map Point.shape).takeWhile isDigit
  let n := digitsValue digits
  if formLimit < n then malformed "Too many decimal digits in format string"
  else .ok (if digits.isEmpty then none else some n, s.drop digits.length)

/-- The fill and the side at the start of a form. -/
def takeSide (s : List Point) : Option Point × Option Side × List Point :=
  match s with
  | fill :: mark :: rest =>
    match sideOf? mark.shape with
    | some side => (some fill, some side, rest)
    | none =>
      match sideOf? fill.shape with
      | some side => (none, some side, mark :: rest)
      | none => (none, none, s)
  | [mark] =>
    match sideOf? mark.shape with
    | some side => (none, some side, [])
    | none => (none, none, s)
  | [] => (none, none, s)

/-- An optional mark at the start of a form. -/
def takeMark (marks : List Char) : List Point → Option Char × List Point
  | p :: rest => if marks.contains p.shape then (some p.shape, rest) else (none, p :: rest)
  | [] => (none, [])

/-- A text in its width: what is missing is filled up. -/
def fillUp (fill : Point) (side : Side) (width : Nat) (s : List Point) : List Point :=
  let missing := width - s.length
  match side with
  | .left | .sign => s ++ List.replicate missing fill
  | .right => List.replicate missing fill ++ s
  | .both => List.replicate (missing / 2) fill ++ s ++ List.replicate (missing - missing / 2) fill

/-- A kind that texts do not have. -/
def unknownKind (p : Point) : Except Failure (List Point) :=
  let code (n : Nat) : String := "\\x" ++ String.ofList (Nat.toDigits 16 n)
  let shown := match p with
    | .char c => if 32 < c.toNat && c.toNat < 128 then c.toString else code c.toNat
    | .half unit => code unit
  malformed ("Unknown format code '" ++ shown ++ "' for object of type 'str'")

/-- A text in a form. -/
def inForm (form s : List Point) : Except Failure (List Point) := do
  let (fill, side, rest) := takeSide form
  let (sign, rest) := takeMark ['+', '-', ' '] rest
  let (coerced, rest) := takeMark ['z'] rest
  let (alternate, rest) := takeMark ['#'] rest
  let (zero, rest) := if fill.isNone then takeMark ['0'] rest else (none, rest)
  let fill := (fill.orElse fun _ => zero.map .char).getD (.char ' ')
  let (width, rest) ← takeCount rest
  let (grouping, rest) := takeMark [','] rest
  let (under, rest) := takeMark ['_'] rest
  if under.isSome && (grouping.isSome || rest.head? == some (.char ',')) then
    throw (.templateMalformed "Cannot specify both ',' and '_'.")
  let (point, rest) := takeMark ['.'] rest
  let (greatest, rest) ← if point.isSome then takeCount rest else pure (none, rest)
  if point.isSome && greatest.isNone then
    throw (.templateMalformed "Format specifier missing precision")
  if 1 < rest.length then
    throw (.templateMalformed
      ("Invalid format specifier '" ++ String.ofList (form.map Point.shape) ++
        "' for object of type 'str'"))
  let kind := rest.head?.getD (.char 's')
  if kind = .char 's' then
    match grouping.orElse fun _ => under with
    | some mark => throw (.templateMalformed ("Cannot specify '" ++ mark.toString ++ "' with 's'."))
    | none => pure ()
  if kind ≠ .char 's' then unknownKind kind
  else if sign = some ' ' then malformed "Space not allowed in string format specifier"
  else if sign.isSome then malformed "Sign not allowed in string format specifier"
  else if coerced.isSome then
    malformed "Negative zero coercion (z) not allowed in string format specifier"
  else if alternate.isSome then
    malformed "Alternate form (#) not allowed in string format specifier"
  else if side = some .sign then malformed "'=' alignment not allowed in string format specifier"
  else
    let s := match greatest with
      | some n => s.take n
      | none => s
    return fillUp fill (side.getD .left) (width.getD 0) s

/-- A text in quotes with escapes for everything beyond ASCII. -/
def quotedAscii (s : List Point) : List Char :=
  (quotedPoints s).flatMap fun c =>
    if c.toNat < 0x80 then [c]
    else if c.toNat < 0x100 then '\\' :: 'x' :: hex 2 c.toNat
    else if c.toNat < 0x10000 then '\\' :: 'u' :: hex 4 c.toNat
    else '\\' :: 'U' :: hex 8 c.toNat

/-- A value after its conversion. -/
def converted (s : List Point) : Option Char → Except Failure (List Point)
  | none => .ok s
  | some 's' => .ok s
  | some 'r' => .ok ((quotedPoints s).map .char)
  | some 'a' => .ok ((quotedAscii s).map .char)
  | some c => malformed ("Unknown conversion specifier " ++ c.toString)

/-- The number a text of digits stands for. -/
def indexOf? (s : List Char) : Except Failure (Option Nat) :=
  if s.isEmpty || !s.all isDigit then .ok none
  else if formLimit < digitsValue s then malformed "Too many decimal digits in format string"
  else .ok (some (digitsValue s))

/-- Go from a value to a part of it. -/
def part (value : List Point) (steps : List Char) : Except Failure (List Point) := do
  match steps with
  | [] => return value
  | '.' :: rest =>
    let name := rest.takeWhile fun c => c != '.' && c != '['
    if name.isEmpty then malformed "Empty attribute in format string"
    else throw (.templateAttribute (String.ofList name))
  | '[' :: rest =>
    let index := rest.takeWhile (· != ']')
    if index.isEmpty then malformed "Empty attribute in format string"
    else
      match ← indexOf? index with
      | none => throw .templateLetter
      | some n =>
        match value[n]? with
        | none => throw (.reported .index "string index out of range")
        | some p =>
          match (rest.dropWhile (· != ']')).drop 1 with
          | [] => return [p]
          | _ => malformed "Only '.' or '[' may follow ']' in format field specifier"
  | _ => return value

/-- The value that a field names. -/
def valueOf (fields : Fields) (name : List Char) : Except Failure (List Point) := do
  let first := name.takeWhile fun c => c != '.' && c != '['
  match ← indexOf? first with
  | some n => throw (.templatePosition n)
  | none =>
    if first.isEmpty then throw (.templatePosition 0)
    else
      match fields.lookup (String.ofList first) with
      | none => throw (.templateName (String.ofList first))
      | some value => part value (name.drop first.length)

/-- Fill in the fields of a template.  The forms of fields may hold fields themselves, down to the
given depth; the fuel bounds the pieces. -/
def expand (fields : Fields) : Nat → Nat → List Char → Except Failure (List Point)
  | 0, _, _ => malformed "Max string recursion exceeded"
  | _ + 1, 0, _ => .ok []
  | depth + 1, fuel + 1, s =>
    match s with
    | [] => .ok []
    | '\x7d' :: '\x7d' :: rest => return .char '\x7d' :: (← expand fields (depth + 1) fuel rest)
    | '\x7d' :: _ => malformed "Single '\x7d' encountered in format string"
    | ['\x7b'] => malformed "Single '\x7b' encountered in format string"
    | '\x7b' :: '\x7b' :: rest => return .char '\x7b' :: (← expand fields (depth + 1) fuel rest)
    | '\x7b' :: rest => do
      let (field, rest) ← takeField rest
      let value ← valueOf fields field.name
      let value ← converted value field.conversion
      let form ← if field.form.contains '\x7b' then expand fields depth fuel field.form
        else pure (field.form.map .char)
      let shown ← inForm form value
      return shown ++ (← expand fields (depth + 1) fuel rest)
    | c :: rest => return .char c :: (← expand fields (depth + 1) fuel rest)

/-- Fill in the fields of a template. -/
def fill (template : String) (fields : Fields) : Except Failure (List Point) := do
  let s := template.toList
  expand fields 2 (s.length + 1) s

end SolidWorkshop.Library
