import SolidWorkshop.Failure
import SolidWorkshop.Parameter.Scalar
import SolidWorkshop.Text.Utf8

/-!
# Checks

A check takes a value handed in from outside and gives what it stands for, or all complaints
about it.  The checks are generous: a text that reads as a number will do for one, and a whole
double will do for an integer.  Of several parts every one is checked, in their order.
-/

namespace SolidWorkshop.Intake

/-- The outcome of a check. -/
inductive Checked (α : Type) where
  | good (a : α)
  | bad (issues : List Issue)

namespace Checked

/-- Apply a function to what a check gives. -/
def map {α β : Type} (f : α → β) : Checked α → Checked β
  | good a => good (f a)
  | bad issues => bad issues

/-- Apply one outcome to another; the complaints about both are kept. -/
def apply {α β : Type} : Checked (α → β) → Checked α → Checked β
  | good f, good a => good (f a)
  | good _, bad issues => bad issues
  | bad issues, good _ => bad issues
  | bad issues, bad others => bad (issues ++ others)

instance : Applicative Checked where
  map f x := map f x
  pure a := good a
  seq f x := apply f (x ())

/-- A single complaint about a value. -/
def fail {α : Type} (complaint : Complaint) (input : Value) : Checked α :=
  bad [⟨complaint, [], input⟩]

/-- The outcome for a part, seen from one step further out. -/
def under {α : Type} (step : Step) : Checked α → Checked α
  | good a => good a
  | bad issues => bad (issues.map (Issue.under step))

/-- A further check of what a check gives. -/
def andThen {α β : Type} (x : Checked α) (f : α → Checked β) : Checked β :=
  match x with
  | good a => f a
  | bad issues => bad issues

/-- What a check gives, or the failure that names the model it was made for. -/
def orInvalid {α : Type} (model : String) : Checked α → Except Failure α
  | good a => .ok a
  | bad issues => .error (.invalid model issues)

end Checked

/-- A check of one value. -/
abbrev Check (α : Type) := Value → Checked α

/-- White space around numbers: the information separators do not count. -/
def isPadding (c : Char) : Bool :=
  Text.isBlank c && !(0x1c ≤ c.toNat && c.toNat ≤ 0x1f)

/-- A text without the padding at both ends. -/
def unpadded (s : String) : List Char :=
  Text.dropEndWhile isPadding (s.toList.dropWhile isPadding)

/-- A text without single underscores between its characters; none when one stands at an end or
beside another. -/
def withoutUnderscores? (s : List Char) : Option (List Char) :=
  let beside := (s.zip (s.drop 1)).any fun (a, b) => a = '_' && b = '_'
  if s.head? == some '_' || s.getLast? == some '_' || beside then none
  else some (s.filter (· != '_'))

/-- The text that a value carries; a complaint about bytes that are none. -/
def carriedText? : Value → Option (Except Complaint String)
  | .text s => some (.ok s)
  | .bytes b => some ((String.fromUTF8? b).elim (.error .textUndecodable) .ok)
  | _ => none

/-- Digits with an optional tail of a point and zeros, as a number. -/
def wholeDigits? (s : List Char) : Option Nat :=
  let whole := s.takeWhile (· != '.')
  let tail := (s.dropWhile (· != '.')).drop 1
  match withoutUnderscores? whole with
  | none => none
  | some digits =>
    if !digits.isEmpty && digits.all Char.isDigit && tail.all (· == '0') then
      some (Text.digitsValue digits)
    else none

/-- Read a text as an integer. -/
def integerOfText (s : String) : Except Complaint Int :=
  let token := unpadded s
  if Numeral.digitLimit < token.length then .error .integerTooLong
  else
    let (negative, body) := Numeral.takeSign token
    match wholeDigits? body with
    | none => .error .integerUnreadable
    | some n => .ok (if negative then -(n : Int) else n)

/-- Read a text without padding or underscores as a double: only ASCII counts. -/
def plainDouble? (token : List Char) : Option Binary64 :=
  if token.all fun c => c.toNat < 0x80 && c != '_' && !Text.isBlank c then
    Binary64.ofText? (String.ofList token)
  else none

/-- Read a text as a double. -/
def doubleOfText (s : String) : Except Complaint Binary64 :=
  let token := unpadded s
  match plainDouble? token with
  | some x => .ok x
  | none =>
    match (withoutUnderscores? s.toList).bind plainDouble? with
    | some x => .ok x
    | none => .error .numberUnreadable

/-- The words for the two truth values. -/
def truthWords : List (String × Bool) :=
  [("0", false), ("off", false), ("f", false), ("false", false), ("n", false), ("no", false),
   ("1", true), ("on", true), ("t", true), ("true", true), ("y", true), ("yes", true)]

/-- The least integer above all machine integers. -/
def machineLimit : Int := Nat.pow 2 63

/-- The range of machine integers. -/
def isMachineInteger (n : Int) : Bool :=
  -machineLimit ≤ n && n < machineLimit

/-- Read a double as an integer. -/
def integerOfDouble (x : Binary64) : Except Complaint Int :=
  match x.truncate? with
  | none => .error .numberNotFinite
  | some n =>
    if !x.isWhole then .error .integerFractional
    else if isMachineInteger n then .ok n
    else .error .integerTooLong

namespace Check

/-- The outcome of reading a value. -/
def ofReading {α : Type} (input : Value) : Except Complaint α → Checked α
  | .ok a => .good a
  | .error complaint => .fail complaint input

/-- A text. -/
def text : Check String := fun v =>
  match carriedText? v with
  | some reading => ofReading v reading
  | none => .fail .textExpected v

/-- Bytes, or the bytes of a text. -/
def bytes : Check ByteArray
  | .bytes b => .good b
  | .text s => .good s.toUTF8
  | v => .fail .bytesExpected v

/-- The truth value of zero or one. -/
def bit? : Int → Option Bool
  | 0 => some false
  | 1 => some true
  | _ => none

/-- A truth value, or a word or number for one. -/
def truth : Check Bool := fun v =>
  let ofInteger (n : Int) : Checked Bool := ofReading v ((bit? n).elim (.error .boolUnreadable) .ok)
  match v with
  | .bool b => .good b
  | .int n => if isMachineInteger n then ofInteger n else .fail .boolExpected v
  | .float x =>
    match integerOfDouble x with
    | .ok n => ofInteger n
    | .error _ => .fail .boolExpected v
  | _ =>
    match carriedText? v with
    | some (.ok s) =>
      match truthWords.lookup (String.ofList (s.toList.map Char.toLower)) with
      | some b => .good b
      | none => .fail .boolUnreadable v
    | some (.error _) => .fail .boolUnreadable v
    | none => .fail .boolExpected v

/-- An integer. -/
def integer : Check Int := fun v =>
  match v with
  | .bool b => .good b.toInt
  | .int n => .good n
  | .float x => ofReading v (integerOfDouble x)
  | _ =>
    match carriedText? v with
    | some (.ok s) => ofReading v (integerOfText s)
    | some (.error _) => .fail .integerUnreadable v
    | none => .fail .integerExpected v

/-- A double. -/
def double : Check Binary64 := fun v =>
  match v with
  | .bool b => .good ((Binary64.ofInt? b.toInt).getD .zero)
  | .int n => ofReading v ((Binary64.ofInt? n).elim (.error .numberExpected) .ok)
  | .float x => .good x
  | _ =>
    match carriedText? v with
    | some (.ok s) => ofReading v (doubleOfText s)
    | some (.error _) => .fail .numberUnreadable v
    | none => .fail .numberExpected v

/-- An integer within bounds. -/
def integerBetween (low high : Int) : Check Int := fun v =>
  (integer v).andThen fun n =>
    if n < low then .fail (.belowMinimum (.int low)) v
    else if high < n then .fail (.aboveMaximum (.int high)) v
    else .good n

/-- A double within bounds; one that is undefined passes. -/
def doubleBetween (low high : Int) : Check Binary64 := fun v =>
  (double v).andThen fun x =>
    if Binary64.compareInt? low x == some .gt then .fail (.belowMinimum (.int low)) v
    else if Binary64.compareInt? high x == some .lt then .fail (.aboveMaximum (.int high)) v
    else .good x

/-- One of the words that stand for the values of a type. -/
def choice {α : Type} (name : α → String) (all : List α) : Check α := fun v =>
  let complaint := Complaint.choiceUnknown (all.map name)
  match v with
  | .text s =>
    match all.find? (fun a => name a == s) with
    | some a => .good a
    | none => .fail complaint v
  | _ => .fail complaint v

/-- A fixed text. -/
def fixed (word : String) : Check Unit
  | .text s => if s = word then .good () else .fail (.literalExpected word) (.text s)
  | v => .fail (.literalExpected word) v

/-- Nothing, or a value that passes. -/
def optional {α : Type} (check : Check α) : Check (Option α)
  | .null => .good none
  | v => (check v).map some

/-- The items of a list, from a position on. -/
def items {α : Type} (check : Check α) : Nat → List Value → Checked (List α)
  | _, [] => .good []
  | k, v :: rest => List.cons <$> (check v).under (.index k) <*> items check (k + 1) rest

/-- A list. -/
def list {α : Type} (check : Check α) : Check (List α)
  | .list vs => items check 0 vs
  | v => .fail .listExpected v

/-- A dictionary of any values. -/
def dict : Check (List (String × Value))
  | .dict entries => .good entries
  | v => .fail .dictExpected v

/-- A list of outcomes that are tried in order for want of an exact one: the first that is good,
or all complaints. -/
def firstGood {α : Type} (sofar : List Issue) : List (String × Checked α) → Checked α
  | [] => .bad sofar
  | (name, outcome) :: rest =>
    match outcome with
    | .good a => .good a
    | .bad issues => firstGood (sofar ++ issues.map (Issue.under (.key name))) rest

/-- A scalar.  A value keeps its kind; bytes become what their text reads as first. -/
def scalar : Check Scalar
  | .bool b => .good (.bool b)
  | .int n => .good (.int n)
  | .float x => .good (.float x)
  | .text s => .good (.text s)
  | v => firstGood []
      [("bool", (truth v).map .bool), ("int", (integer v).map .int),
       ("float", (double v).map .float), ("str", (text v).map .text)]

/-- An option of a parameter: a number or a text. -/
def option : Check Scalar
  | .int n => .good (.int n)
  | .float x => .good (.float x)
  | .text s => .good (.text s)
  | v => firstGood []
      [("int", (integer v).map .int), ("float", (double v).map .float),
       ("str", (text v).map .text)]

/-- The entries of a record. -/
def record {α : Type} (model : String) (check : List (String × Value) → Checked α) : Check α
  | .dict entries => check entries
  | v => .fail (.recordExpected model) v

/-- A field that has to be there. -/
def required {α : Type} (entries : List (String × Value)) (name : String) (check : Check α) :
    Checked α :=
  Checked.under (.key name)
    (match entries.lookup name with
    | some v => check v
    | none => .fail .missing (.dict entries))

/-- A field with a default. -/
def defaulted {α : Type} (entries : List (String × Value)) (name : String) (check : Check α)
    (default : α) : Checked α :=
  match entries.lookup name with
  | some v => (check v).under (.key name)
  | none => .good default

end Check

end SolidWorkshop.Intake
