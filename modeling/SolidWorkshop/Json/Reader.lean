import SolidWorkshop.Json.Tree
import SolidWorkshop.Number.Numeral
import SolidWorkshop.Text.Utf8

/-!
# Reading JSON

A document is read in one pass over its points.  The values that are still open stand on a
stack, so nesting costs no recursion and the fuel of the pass is the length of the document.
Beside the standard, the words for infinite and undefined numbers are read; of entries with the
same key the last one counts, at the place of the first.
-/

namespace SolidWorkshop.Json

open Text

/-- What is wrong with a document. -/
inductive Problem where
  | valueExpected
  | nameExpected
  | colonExpected
  | commaExpected
  | unterminated
  | badEscape
  | badUnicodeEscape
  | controlCharacter
  | extraData
  | byteOrderMark
  deriving DecidableEq

/-- The words of a problem. -/
def Problem.message : Problem → String
  | .valueExpected => "Expecting value"
  | .nameExpected => "Expecting property name enclosed in double quotes"
  | .colonExpected => "Expecting ':' delimiter"
  | .commaExpected => "Expecting ',' delimiter"
  | .unterminated => "Unterminated string starting at"
  | .badEscape => "Invalid \\escape"
  | .badUnicodeEscape => "Invalid \\uXXXX escape"
  | .controlCharacter => "Invalid control character at"
  | .extraData => "Extra data"
  | .byteOrderMark => "Unexpected UTF-8 BOM (decode using utf-8-sig)"

/-- Why a document cannot be read. -/
inductive ReadError where
  /-- A problem at a place, given as line, column and offset. -/
  | malformed (problem : Problem) (line column offset : Nat)
  /-- An integer has too many digits. -/
  | integer (failure : Failure)
  /-- The bytes are no text. -/
  | undecodable (reason : String)
  /-- A half of a surrogate pair stands where a string is asked for. -/
  | ragged

/-- The words of a read error. -/
def ReadError.message : ReadError → String
  | .malformed problem line column offset =>
    s!"{problem.message}: line {line} column {column} (char {offset})"
  | .integer failure => failure.message
  | .undecodable reason => reason
  | .ragged => "surrogates not allowed"

/-- A problem, placed by how many points of the document were left. -/
inductive Stop where
  | problem (kind : Problem) (left : Nat)
  | integer (failure : Failure)

/-- JSON's own white space. -/
def isSpace (p : Point) : Bool :=
  p = .char ' ' || p = .char '\t' || p = .char '\n' || p = .char '\r'

/-- Without the white space at the start. -/
def skipSpace (s : List Point) : List Point :=
  s.dropWhile isSpace

/-- The value of four hexadecimal digits at the start of a text. -/
def hexQuad? (s : List Point) : Option Nat :=
  match (s.take 4).map Point.shape with
  | [a, b, c, d] => do
    return (((← hexValue? a) * 16 + (← hexValue? b)) * 16 + (← hexValue? c)) * 16 + (← hexValue? d)
  | _ => none

/-- The character of a one-letter escape. -/
def simpleEscape? : Char → Option Char
  | '"' => some '"'
  | '\\' => some '\\'
  | '/' => some '/'
  | 'b' => some '\x08'
  | 'f' => some '\x0c'
  | 'n' => some '\n'
  | 'r' => some '\r'
  | 't' => some '\t'
  | _ => none

/-- Read a numeric escape, whose digits stand at the start of `s`: its point and how many points
it takes up.  A pair of surrogates is one character; a surrogate alone stays a half. -/
def unicodeEscape (s : List Point) : Except Stop (Point × Nat) :=
  match hexQuad? s with
  | none => .error (.problem .badUnicodeEscape (s.length + 1))
  | some unit =>
    if s.length ≤ 4 then .error (.problem .badUnicodeEscape (s.length + 1))
    else if 0xd800 ≤ unit && unit < 0xdc00 then
      match s.drop 4 with
      | .char '\\' :: .char 'u' :: tail =>
        if tail.length ≤ 4 then .ok (.half unit, 4)
        else
          match hexQuad? tail with
          | none => .error (.problem .badUnicodeEscape (tail.length + 1))
          | some low =>
            if 0xdc00 ≤ low && low < 0xe000 then
              .ok (.char (Char.ofNat (0x10000 + (unit - 0xd800) * 0x400 + (low - 0xdc00))), 10)
            else .ok (.half unit, 4)
      | _ => .ok (.half unit, 4)
    else .ok (.ofNat unit, 4)

/-- Read a text up to its closing quote; `opening` is what was left at its opening quote.  The
fuel bounds the pieces. -/
def readString (opening : List Point) : Nat → List Point → List Point →
    Except Stop (List Point × List Point)
  | 0, _, _ => .error (.problem .unterminated opening.length)
  | fuel + 1, done, s =>
    match s with
    | [] => .error (.problem .unterminated opening.length)
    | .char '"' :: rest => .ok (done.reverse, rest)
    | [.char '\\'] => .error (.problem .unterminated opening.length)
    | .char '\\' :: .char 'u' :: rest =>
      match unicodeEscape rest with
      | .error stop => .error stop
      | .ok (p, length) => readString opening fuel (p :: done) (rest.drop length)
    | .char '\\' :: p :: rest =>
      match p.char?.bind simpleEscape? with
      | some c => readString opening fuel (.char c :: done) rest
      | none => .error (.problem .badEscape s.length)
    | .char c :: rest =>
      if c.toNat < 0x20 then .error (.problem .controlCharacter s.length)
      else readString opening fuel (.char c :: done) rest
    | .half unit :: rest => readString opening fuel (.half unit :: done) rest

/-- The token of the longest number at the start of a text, and whether it is a double.  A point
or an exponent without digits is left over. -/
def takeNumber? (s : List Char) : Option (List Char × Bool) :=
  let (sign, body) := match s with
    | '-' :: rest => (['-'], rest)
    | _ => ([], s)
  let whole := match body with
    | '0' :: _ => ['0']
    | _ => body.takeWhile Char.isDigit
  if whole.isEmpty then none
  else
    let rest := body.drop whole.length
    let (fraction, rest) := match rest with
      | '.' :: tail =>
        let digits := tail.takeWhile Char.isDigit
        if digits.isEmpty then ([], rest) else ('.' :: digits, tail.drop digits.length)
      | _ => ([], rest)
    let exponent := match rest with
      | c :: tail =>
        if c = 'e' || c = 'E' then
          let (sign, tail) := match tail with
            | '+' :: t => (['+'], t)
            | '-' :: t => (['-'], t)
            | _ => ([], tail)
          let digits := tail.takeWhile Char.isDigit
          if digits.isEmpty then [] else c :: sign ++ digits
        else []
      | [] => []
    some (sign ++ whole ++ fraction ++ exponent, !(fraction.isEmpty && exponent.isEmpty))

/-- The words that stand for a value. -/
def words : List (List Char × Tree) :=
  [("null".toList, .null), ("true".toList, .bool true), ("false".toList, .bool false),
   ("NaN".toList, .float .nan), ("Infinity".toList, .float (.infinite false)),
   ("-Infinity".toList, .float (.infinite true))]

/-- A point that a word or a number may hold. -/
def inAtom (p : Point) : Bool :=
  p.char?.any fun c => c.isAlphanum || c = '+' || c = '-' || c = '.'

/-- Read a word or a number: its value and what follows it. -/
def readAtom (s : List Point) : Except Stop (Tree × List Point) :=
  let run := (s.takeWhile inAtom).map Point.shape
  match words.find? fun (word, _) => word.isPrefixOf run with
  | some (word, value) => .ok (value, s.drop word.length)
  | none =>
    match takeNumber? run with
    | none => .error (.problem .valueExpected s.length)
    | some (token, isDouble) =>
      let rest := s.drop token.length
      match Numeral.ofChars? token with
      | none => .error (.problem .valueExpected s.length)
      | some numeral =>
        if isDouble then .ok (.float numeral.toBinary64, rest)
        else if Numeral.digitLimit < numeral.whole.length then
          .error (.integer (.tooManyDigits numeral.whole.length))
        else .ok (.int numeral.toInt, rest)

/-- A value that is still open: the items read so far, last one first, or the entries read so
far and the key whose value comes next. -/
inductive Open where
  | items (done : List Tree)
  | entries (done : List (List Point × Tree)) (key : List Point)

/-- Entries, last one first, as a dictionary: the last value of a key counts, at the place of
the first. -/
def dictOf (entries : List (List Point × Tree)) : Tree :=
  .dict (entries.foldr (fun (key, value) done => setEntry key value done) [])

/-- Read the name of an entry and the colon after it. -/
def readName (fuel : Nat) (s : List Point) : Except Stop (List Point × List Point) :=
  match s with
  | .char '"' :: rest => do
    let (key, rest) ← readString s fuel [] rest
    match skipSpace rest with
    | .char ':' :: rest => .ok (key, skipSpace rest)
    | rest => .error (.problem .colonExpected rest.length)
  | _ => .error (.problem .nameExpected s.length)

/-- What the pass does next: read a value, or take up a value just read. -/
inductive Turn where
  | value
  | after (t : Tree)

/-- The pass over a document: what it says and what follows. -/
def pass : Nat → Turn → List Open → List Point → Except Stop (Tree × List Point)
  | 0, _, _, s => .error (.problem .valueExpected s.length)
  | fuel + 1, .value, stack, s =>
    match s with
    | .char '"' :: rest =>
      match readString s (fuel + 1) [] rest with
      | .error stop => .error stop
      | .ok (text, rest) => pass fuel (.after (.text text)) stack rest
    | .char '[' :: rest =>
      match skipSpace rest with
      | .char ']' :: rest => pass fuel (.after (.list [])) stack rest
      | rest => pass fuel .value (.items [] :: stack) rest
    | .char '\x7b' :: rest =>
      match skipSpace rest with
      | .char '\x7d' :: rest => pass fuel (.after (.dict [])) stack rest
      | rest =>
        match readName fuel rest with
        | .error stop => .error stop
        | .ok (key, rest) => pass fuel .value (.entries [] key :: stack) rest
    | _ =>
      match readAtom s with
      | .error stop => .error stop
      | .ok (value, rest) => pass fuel (.after value) stack rest
  | fuel + 1, .after value, stack, s =>
    match stack with
    | [] => .ok (value, s)
    | .items done :: stack =>
      match skipSpace s with
      | .char ']' :: rest => pass fuel (.after (.list (value :: done).reverse)) stack rest
      | .char ',' :: rest => pass fuel .value (.items (value :: done) :: stack) (skipSpace rest)
      | rest => .error (.problem .commaExpected rest.length)
    | .entries done key :: stack =>
      match skipSpace s with
      | .char '\x7d' :: rest => pass fuel (.after (dictOf ((key, value) :: done))) stack rest
      | .char ',' :: rest =>
        match readName fuel (skipSpace rest) with
        | .error stop => .error stop
        | .ok (next, rest) => pass fuel .value (.entries ((key, value) :: done) next :: stack) rest
      | rest => .error (.problem .commaExpected rest.length)

/-- The line and column of an offset, both counted from one. -/
def position (document : List Point) (offset : Nat) : Nat × Nat :=
  let before := document.take offset
  (before.count (.char '\n') + 1, (before.reverse.takeWhile (· != .char '\n')).length + 1)

/-- Read a document. -/
def read (document : List Point) : Except ReadError Tree :=
  let place (stop : Stop) : ReadError :=
    match stop with
    | .integer failure => .integer failure
    | .problem kind left =>
      let offset := document.length - left
      let (line, column) := position document offset
      .malformed kind line column offset
  match document with
  | .char '\ufeff' :: _ => .error (.malformed .byteOrderMark 1 1 0)
  | _ =>
    match pass (2 * document.length + 2) .value [] (skipSpace document) with
    | .error stop => .error (place stop)
    | .ok (t, rest) =>
      match skipSpace rest with
      | [] => .ok t
      | rest => .error (place (.problem .extraData rest.length))

/-- The value that a document is. -/
def Tree.toValue (t : Tree) : Except ReadError Value :=
  t.value?.elim (.error .ragged) .ok

/-- Read a document held in a string as a value. -/
def readText (document : String) : Except ReadError Value := do
  (← read (points document)).toValue

end SolidWorkshop.Json
