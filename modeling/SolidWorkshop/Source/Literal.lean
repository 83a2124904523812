import SolidWorkshop.Parameter.Scalar

/-!
# Literals of the source text

A right-hand side is a literal when it is a truth value, one complete text in double quotes, or a
number in range; anything else is an expression.  Inside quotes a backslash takes the character
after it along, whatever that is.
-/

namespace SolidWorkshop.Source

/-- How many characters of a text that follows an opening quote lead past the closing one. -/
def closingQuote? (count : Nat) : List Char → Option Nat
  | [] => none
  | '"' :: _ => some (count + 1)
  | ['\\'] => none
  | '\\' :: _ :: rest => closingQuote? (count + 2) rest
  | _ :: rest => closingQuote? (count + 1) rest

/-- The length of the quoted text at the start of a text that begins with a quote. -/
def quotedLength? : List Char → Option Nat
  | '"' :: rest => (closingQuote? 0 rest).map (· + 1)
  | _ => none

/-- Read a token as a literal; none for an expression. -/
def Literal.ofChars? (token : List Char) : Except Failure (Option (Kind × Scalar)) :=
  let token := Text.trim token
  if token = "true".toList then .ok (some (.bool, .bool true))
  else if token = "false".toList then .ok (some (.bool, .bool false))
  else if 2 ≤ token.length && token.head? == some '"' && token.getLast? == some '"' then
    if quotedLength? token == some token.length then
      .ok (some (.text, .text (String.ofList (token.drop 1).dropLast)))
    else .ok none
  else do
    return (← Number.ofChars? token).map fun n => (.number, .ofNumber n)

end SolidWorkshop.Source
