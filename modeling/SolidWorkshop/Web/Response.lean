import SolidWorkshop.Failure
import SolidWorkshop.Json.Writer

/-!
# Responses

What a caller is sent back.  An answer that follows a model writes an infinite or undefined number
as null; any other answer that holds such a number cannot be written, and the caller is told of an
internal error instead.
-/

namespace SolidWorkshop

namespace Value

mutual

/-- Every number in a value is finite. -/
def isFinite : Value → Bool
  | .float x => x.isFinite
  | .list items => areFinite items
  | .dict entries => haveFinite entries
  | _ => true

/-- Every number in some values is finite. -/
def areFinite : List Value → Bool
  | [] => true
  | v :: rest => isFinite v && areFinite rest

/-- Every number in the values of some entries is finite. -/
def haveFinite : List (String × Value) → Bool
  | [] => true
  | (_, v) :: rest => isFinite v && haveFinite rest

end

mutual

/-- A value with null in the place of every number that is not finite. -/
def onlyFinite : Value → Value
  | .float x => if x.isFinite then .float x else .null
  | .list items => .list (onlyFiniteItems items)
  | .dict entries => .dict (onlyFiniteEntries entries)
  | v => v

/-- Some values with null in the place of every number that is not finite. -/
def onlyFiniteItems : List Value → List Value
  | [] => []
  | v :: rest => onlyFinite v :: onlyFiniteItems rest

/-- Some entries with null in the place of every number that is not finite. -/
def onlyFiniteEntries : List (String × Value) → List (String × Value)
  | [] => []
  | (k, v) :: rest => (k, onlyFinite v) :: onlyFiniteEntries rest

end

end Value

namespace Web

/-- What a response carries. -/
inductive Content where
  | json (v : Value)
  | text (words : String)
  /-- A solid body. -/
  | solid (bytes : ByteArray)
  | nothing

/-- The media type of what a response carries. -/
def Content.mediaType? : Content → Option String
  | .json _ => some "application/json"
  | .text _ => some "text/plain; charset=utf-8"
  | .solid _ => some "model/stl"
  | .nothing => none

/-- The bytes of what a response carries. -/
def Content.bytes : Content → ByteArray
  | .json v => (Json.write v).toUTF8
  | .text words => words.toUTF8
  | .solid bytes => bytes
  | .nothing => .empty

/-- A response. -/
structure Response where
  status : Int
  content : Content

namespace Response

/-- The response of a service that does not know how to go on. -/
def internal : Response :=
  ⟨500, .text "Internal Server Error"⟩

/-- A value as a response, if all its numbers can be written. -/
def strict (status : Int) (v : Value) : Response :=
  if v.isFinite then ⟨status, .json v⟩ else internal

/-- A value that follows a model as a response. -/
def modelled (v : Value) : Response :=
  ⟨200, .json v.onlyFinite⟩

/-- A refusal and what it says. -/
def refused (status : Int) (detail : Value) : Response :=
  strict status (.dict [("detail", detail)])

/-- A refusal in words. -/
def refusedWith (status : Int) (words : String) : Response :=
  refused status (.text words)

/-- A value handed in is refused because of some issues with it. -/
def invalid (issues : List Intake.Issue) : Response :=
  refused 422 (Intake.issuesValue issues)

/-- The response to a failure. -/
def ofFailure : Failure → Response
  | .unknownJob id => refusedWith 404 ("Job not found: " ++ id)
  | failure =>
    match failure.area, failure.status? with
    | .runtime, _ => refusedWith 409 failure.message
    | .timeout, _ => refusedWith 504 failure.message
    | _, some status => refusedWith status failure.message
    | _, none => internal

/-- What a computation gives, or the response to its failure. -/
def ofExcept : Except Failure Response → Response
  | .ok response => response
  | .error failure => ofFailure failure

end Response

end Web

end SolidWorkshop
