import SolidWorkshop.Number.Numeral
import SolidWorkshop.Source.Line

/-!
# Annotations

What the trailing comment of an assignment says about the values it may take: a numeric range, a
list of options, or free text.  A bracketed comment that is no range is a list of options; when
its tokens can be read in more than one way the list is flagged.
-/

namespace SolidWorkshop.Source

/-- What a trailing comment says. -/
inductive Annotation where
  | none
  | range (min : Number) (step : Option Number) (max : Number)
  | options (tokens : List String) (ambiguous : Bool)
  | description (text : String)
  deriving DecidableEq

/-- A text without a quote at its start and one at its end. -/
def unquote (token : List Char) : List Char :=
  let token := if token.head? == some '"' then token.drop 1 else token
  if token.getLast? == some '"' then token.dropLast else token

/-- An option without quotes: none of the characters that structure a comment is in it. -/
def isBareOption (token : List Char) : Bool :=
  !token.isEmpty && token.all fun c => !(['"', ',', ':', '[', ']'].contains c)

/-- An option between two quotes, with no quote inside. -/
def isQuotedOption : List Char → Bool
  | '"' :: rest => rest.getLast? == some '"' && rest.dropLast.all (· != '"')
  | _ => false

/-- Two or three operands of a range: the first, the middle one if there is one, and the last. -/
def operands? : List (List Char) → Option (List Char × Option (List Char) × List Char)
  | [low, high] => some (low, none, high)
  | [low, step, high] => some (low, some step, high)
  | _ => none

/-- Read the inside of a pair of brackets as a range. -/
def range? (inner : List Char) : Except Failure (Option Annotation) :=
  let parts := Text.splitOn ':' (Text.trim inner)
  match operands? parts with
  | none => .ok none
  | some (low, step, high) =>
    if !parts.all isNumeral then .ok none
    else do
      let low ← Number.ofChars? low
      let step ← step.mapM Number.ofChars?
      let high ← Number.ofChars? high
      match low, step, high with
      | some low, none, some high => return some (.range low none high)
      | some low, some (some step), some high => return some (.range low (some step) high)
      | _, _, _ => return none

/-- Read the inside of a pair of brackets as a list of options. -/
def optionsOf (inner : List Char) : Annotation :=
  let tokens := (Text.splitOn ',' inner).map Text.trim
  .options (tokens.map fun token => String.ofList (unquote token))
    (tokens.any fun token => !(isBareOption token || isQuotedOption token))

/-- The inside of the brackets when a text is one pair of brackets. -/
def wholeBracket? (s : List Char) : Option (List Char) :=
  match bracketed? s with
  | some (inner, []) => some inner
  | _ => none

/-- Read a trailing comment. -/
def Annotation.ofChars (comment : List Char) : Except Failure Annotation :=
  let comment := Text.trim comment
  if comment.isEmpty then .ok .none
  else
    match wholeBracket? comment with
    | .none => .ok (.description (String.ofList comment))
    | some inner => do return (← range? inner).getD (optionsOf inner)

namespace Annotation

/-- The name of an annotation's kind. -/
def kindName : Annotation → String
  | .none => "none"
  | .range .. => "range"
  | .options .. => "options"
  | .description _ => "description"

/-- The annotation as a dynamic value. -/
def toValue (a : Annotation) : Value :=
  let shape (low high step : Value) (options : List String) (description : String)
      (ambiguous : Bool) : Value :=
    .dict [("kind", .text a.kindName), ("min", low), ("max", high), ("step", step),
      ("options", .list (options.map .text)), ("description", .text description),
      ("ambiguous", .bool ambiguous)]
  match a with
  | .none => shape .null .null .null [] "" false
  | .range low step high =>
    shape low.toValue high.toValue (.ofOption Number.toValue step) [] "" false
  | .options tokens ambiguous => shape .null .null .null tokens "" ambiguous
  | .description text => shape .null .null .null [] text false

end Annotation

end SolidWorkshop.Source
