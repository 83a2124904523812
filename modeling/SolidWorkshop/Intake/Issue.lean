import SolidWorkshop.Number

/-!
# Issues of an intake

What can be wrong with a value handed in from outside, where in the value it is, and the words
that say so.
-/

namespace SolidWorkshop.Intake

/-- A step on the way from a value to one of its parts. -/
inductive Step where
  | key (name : String)
  | index (position : Nat)
  deriving DecidableEq

/-- The step as messages write it. -/
def Step.text : Step → String
  | .key name => name
  | .index position => toString position

/-- The step as a dynamic value. -/
def Step.toValue : Step → Value
  | .key name => .text name
  | .index position => .int position

/-- What is wrong with a part. -/
inductive Complaint where
  | missing
  | textExpected
  | textUndecodable
  | patternMismatch (pattern : String)
  | boolExpected
  | boolUnreadable
  | integerExpected
  | integerUnreadable
  | integerTooLong
  | integerFractional
  | numberExpected
  | numberUnreadable
  | numberNotFinite
  | choiceUnknown (choices : List String)
  | literalExpected (text : String)
  | listExpected
  | dictExpected
  | bytesExpected
  | recordExpected (model : String)
  | objectExpected
  | tagMissing (tag : String)
  | tagUnknown (tag found : String) (choices : List String)
  | belowMinimum (bound : Number)
  | aboveMaximum (bound : Number)
  | instantExpected
  | instantUnreadable (reason : String)
  | refused (reason : String)
  | bodyUnreadable (reason : String)

/-- Texts in single quotes, separated by commas, with a word before the last one. -/
def listChoices (word : String) : List String → String
  | [] => ""
  | [a] => s!"'{a}'"
  | [a, b] => s!"'{a}'{word}'{b}'"
  | a :: rest => s!"'{a}', " ++ listChoices word rest

namespace Complaint

/-- The short name of a complaint. -/
def code : Complaint → String
  | .missing => "missing"
  | .textExpected => "string_type"
  | .textUndecodable => "string_unicode"
  | .patternMismatch _ => "string_pattern_mismatch"
  | .boolExpected => "bool_type"
  | .boolUnreadable => "bool_parsing"
  | .integerExpected => "int_type"
  | .integerUnreadable => "int_parsing"
  | .integerTooLong => "int_parsing_size"
  | .integerFractional => "int_from_float"
  | .numberExpected => "float_type"
  | .numberUnreadable => "float_parsing"
  | .numberNotFinite => "finite_number"
  | .choiceUnknown _ => "enum"
  | .literalExpected _ => "literal_error"
  | .listExpected => "list_type"
  | .dictExpected => "dict_type"
  | .bytesExpected => "bytes_type"
  | .recordExpected _ => "model_type"
  | .objectExpected => "model_attributes_type"
  | .tagMissing _ => "union_tag_not_found"
  | .tagUnknown .. => "union_tag_invalid"
  | .belowMinimum _ => "greater_than_equal"
  | .aboveMaximum _ => "less_than_equal"
  | .instantExpected => "datetime_type"
  | .instantUnreadable _ => "datetime_from_date_parsing"
  | .refused _ => "value_error"
  | .bodyUnreadable _ => "json_invalid"

/-- A bound as messages write it: a whole double loses its fraction. -/
def boundText : Number → String
  | .int n => toString n
  | .float x => match x.truncate?, x.isWhole with
    | some n, true => toString n
    | _, _ => x.text

/-- The words of a complaint. -/
def message : Complaint → String
  | .missing => "Field required"
  | .textExpected => "Input should be a valid string"
  | .textUndecodable =>
    "Input should be a valid string, unable to parse raw data as a unicode string"
  | .patternMismatch pattern => s!"String should match pattern '{pattern}'"
  | .boolExpected => "Input should be a valid boolean"
  | .boolUnreadable => "Input should be a valid boolean, unable to interpret input"
  | .integerExpected => "Input should be a valid integer"
  | .integerUnreadable => "Input should be a valid integer, unable to parse string as an integer"
  | .integerTooLong => "Unable to parse input string as an integer, exceeded maximum size"
  | .integerFractional =>
    "Input should be a valid integer, got a number with a fractional part"
  | .numberExpected => "Input should be a valid number"
  | .numberUnreadable => "Input should be a valid number, unable to parse string as a number"
  | .numberNotFinite => "Input should be a finite number"
  | .choiceUnknown choices => "Input should be " ++ listChoices " or " choices
  | .literalExpected text => s!"Input should be '{text}'"
  | .listExpected => "Input should be a valid list"
  | .dictExpected => "Input should be a valid dictionary"
  | .bytesExpected => "Input should be a valid bytes"
  | .recordExpected model => s!"Input should be a valid dictionary or instance of {model}"
  | .objectExpected => "Input should be a valid dictionary or object to extract fields from"
  | .tagMissing tag => s!"Unable to extract tag using discriminator '{tag}'"
  | .tagUnknown tag found choices =>
    s!"Input tag '{found}' found using '{tag}' does not match any of the expected tags: "
      ++ listChoices ", " choices
  | .belowMinimum bound => "Input should be greater than or equal to " ++ boundText bound
  | .aboveMaximum bound => "Input should be less than or equal to " ++ boundText bound
  | .instantExpected => "Input should be a valid datetime"
  | .instantUnreadable reason => s!"Input should be a valid datetime or date, {reason}"
  | .refused reason => s!"Value error, {reason}"
  | .bodyUnreadable _ => "JSON decode error"

end Complaint

/-- A complaint about the part of a value that a path leads to. -/
structure Issue where
  complaint : Complaint
  path : List Step
  input : Value

namespace Issue

/-- The issue seen from a value one step further out. -/
def under (step : Step) (issue : Issue) : Issue :=
  { issue with path := step :: issue.path }

/-- The most bytes of a value that a report of an issue shows. -/
def shownBytes : Nat := 50

/-- The longest beginning of a text with at most some bytes. -/
def beginningWithin : Nat → List Char → List Char
  | _, [] => []
  | bytes, c :: rest =>
    if c.utf8Size ≤ bytes then c :: beginningWithin (bytes - c.utf8Size) rest else []

/-- A text with its middle left out when it is long. -/
def shortened (s : String) : String :=
  if s.utf8ByteSize ≤ shownBytes then s
  else
    let half := (shownBytes + 1) / 2
    let cs := s.toList
    String.ofList (beginningWithin half cs) ++ "..."
      ++ String.ofList (beginningWithin (half - 1) cs.reverse).reverse

/-- The lines that report an issue; the last one names the manual about issues, if there is one. -/
def lines (manual : Option String) (issue : Issue) : List String :=
  let place := if issue.path.isEmpty then [] else [".".intercalate (issue.path.map Step.text)]
  let code := issue.complaint.code
  place ++
    ["  " ++ issue.complaint.message ++ " [type=" ++ code ++ ", input_value="
        ++ shortened issue.input.quoted ++ ", input_type=" ++ issue.input.kindName ++ "]"] ++
    (manual.map fun place => "    For further information visit " ++ place ++ code).toList

/-- The issue as a dynamic value. -/
def toValue (issue : Issue) : Value :=
  .dict [("type", .text issue.complaint.code), ("loc", .list (issue.path.map Step.toValue)),
    ("msg", .text issue.complaint.message), ("input", issue.input)]

end Issue

/-- Issues as a dynamic value. -/
def issuesValue (issues : List Issue) : Value :=
  .list (issues.map Issue.toValue)

/-- The report of all issues of a value that was to be of a model. -/
def report (manual : Option String) (model : String) (issues : List Issue) : String :=
  let count := if issues.length = 1 then "1 validation error"
    else toString issues.length ++ " validation errors"
  "\n".intercalate ((count ++ " for " ++ model) :: issues.flatMap (Issue.lines manual))

end SolidWorkshop.Intake
