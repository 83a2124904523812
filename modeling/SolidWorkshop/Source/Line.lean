import SolidWorkshop.Source.Literal
import SolidWorkshop.Text.Split

/-!
# Line shapes

Three shapes of line matter in front of the first definition: a section header, the head of a
definition, which ends the scan, and an assignment with an optional trailing comment.  For an
assignment the exact place of its right-hand side in the line is recorded.
-/

namespace SolidWorkshop.Source

/-- An assignment: its name, its right-hand side with the place where that stands in the line,
and the trailing comment without its slashes and blank ends. -/
structure Assignment where
  name : String
  literal : List Char
  start : Nat
  stop : Nat
  comment : String
  deriving DecidableEq

/-- The character in front of the names that the engine keeps for itself. -/
def sigil : Char := '$'

/-- The name is one that the engine keeps for itself. -/
def Assignment.isSpecial (a : Assignment) : Bool :=
  a.name.toList.head? == some sigil

/-- The shape of a line. -/
inductive Shape where
  | sectionHeader (title : String)
  | stopKeyword (keyword : String)
  | assignment (a : Assignment)
  deriving DecidableEq

/-- A character of a name. -/
def isNameChar (c : Char) : Bool :=
  c.isAlphanum || c = '_'

/-- What stands in square brackets at the start of a text, when it is not empty and holds no
closing bracket, and what follows the brackets. -/
def bracketed? : List Char → Option (List Char × List Char)
  | '[' :: rest =>
    let inner := rest.takeWhile (· != ']')
    match rest.dropWhile (· != ']') with
    | ']' :: after => if inner.isEmpty then none else some (inner, after)
    | _ => none
  | _ => none

/-- The title of a section header, written as a line comment or as a block comment, in a line
without blank ends. -/
def headerTitle? : List Char → Option (List Char)
  | '/' :: '/' :: rest =>
    match bracketed? (Text.trimStart rest) with
    | some (title, after) => if (Text.trimStart after).isEmpty then some title else none
    | none => none
  | '/' :: '*' :: rest =>
    match bracketed? (Text.trimStart rest) with
    | some (title, after) => if Text.trimStart after = ['*', '/'] then some title else none
    | none => none
  | _ => none

/-- The words that begin a definition. -/
def stopWords : List String :=
  ["module", "function"]

/-- The word that begins a definition in a line without blank ends: it is followed by a blank. -/
def stopWord? (s : List Char) : Option String :=
  stopWords.find? fun word =>
    word.toList.isPrefixOf s && (s.drop word.toList.length).head?.any Text.isBlank

/-- The tail of an assignment after its semicolon: nothing, or a comment.  The text of the
comment. -/
def commentOf? (tail : List Char) : Option (List Char) :=
  match Text.trim tail with
  | [] => some []
  | '/' :: '/' :: comment => some (Text.trim comment)
  | _ => none

/-- The right-hand side at the start of a text without a blank start, and what follows the
semicolon after it. -/
def rightHandSide? (s : List Char) : Option (List Char × List Char) :=
  match s with
  | '"' :: _ =>
    match quotedLength? s with
    | none => none
    | some length =>
      match Text.trimStart (s.drop length) with
      | ';' :: tail => some (s.take length, tail)
      | _ => none
  | _ =>
    match s.dropWhile (· != ';') with
    | ';' :: tail =>
      let token := Text.trimEnd (s.takeWhile (· != ';'))
      if token.isEmpty then none else some (token, tail)
    | _ => none

/-- The name at the start of a text, with its sigil, and what follows it. -/
def takeName? (s : List Char) : Option (List Char × List Char) :=
  let (mark, rest) := match s with
    | '$' :: rest => (['$'], rest)
    | _ => ([], s)
  let word := rest.takeWhile isNameChar
  if word.isEmpty then none else some (mark ++ word, rest.dropWhile isNameChar)

/-- Read a line as an assignment. -/
def Assignment.ofLine? (line : List Char) : Option Assignment := do
  let (name, rest) ← takeName? (Text.trimStart line)
  match Text.trimStart rest with
  | '=' :: rest =>
    if rest.head? == some '=' then none
    else
      let rest := Text.trimStart rest
      let (literal, tail) ← rightHandSide? rest
      let comment ← commentOf? tail
      let start := line.length - rest.length
      return ⟨String.ofList name, literal, start, start + literal.length, String.ofList comment⟩
  | _ => none

/-- The shape of a line; none for every other line. -/
def Shape.ofLine? (line : List Char) : Option Shape :=
  let stripped := Text.trim line
  if stripped.isEmpty then none
  else
    match headerTitle? stripped with
    | some title => some (.sectionHeader (String.ofList (Text.trim title)))
    | none =>
      match stopWord? stripped with
      | some word => some (.stopKeyword word)
      | none => (Assignment.ofLine? line).map .assignment

end SolidWorkshop.Source
