import SolidWorkshop.Compile.Request
import SolidWorkshop.Json.Bytes
import SolidWorkshop.Web.Response

/-!
# Bodies of requests

A body is read in one of two ways.  The request for a compile may come in an envelope, and all
complaints about it are in the words of the reader.  Any other body has to be a value of its
model, and complaints say where in the body the value is.
-/

namespace SolidWorkshop.Web

open Intake

/-- Read a request for a compile, and whether it came in an envelope.  Nobody expects a text that
is no string. -/
def readCompileRequest (body : ByteArray) : Except Response (CompileRequest × Bool) :=
  match Json.readBytes body with
  | .error .ragged => .error .internal
  | .error reason => .error (.refusedWith 400 reason.message)
  | .ok v =>
    let read : Except Failure (CompileRequest × Bool) := do
      let payload ← Payload.unwrap v
      let request ← (CompileRequest.check payload.data).orInvalid "CompileRequest"
      return (request, payload.wrapped)
    match read with
    | .ok request => .ok request
    | .error (.invalid _ issues) => .error (.invalid issues)
    | .error failure => .error (.refusedWith 400 failure.message)

/-- The step from a request to its body. -/
def bodyStep : Step := .key "body"

/-- The issue with a body that is no document, and the reader's words for it. -/
def unreadableValue (problem : Json.Problem) (offset : Nat) : Value :=
  let issue : Issue :=
    ⟨.bodyUnreadable problem.message, [bodyStep, .index offset], .dict []⟩
  match issue.toValue with
  | .dict entries => .dict (entries ++ [("ctx", .dict [("error", .text problem.message)])])
  | v => v

/-- Check a body against its model. -/
def checkBody {α : Type} (check : Check α) : Value → Checked α
  | .dict entries => (check (.dict entries)).under bodyStep
  | v => Checked.under bodyStep (.fail .objectExpected v)

/-- Read a body that follows a model. -/
def readModel {α : Type} (check : Check α) (body : ByteArray) : Except Response α :=
  if body.isEmpty then .error (.invalid [⟨.missing, [bodyStep], .null⟩])
  else
    match Json.readBytes body with
    | .error (.malformed problem _ _ offset) =>
      .error (.refused 422 (.list [unreadableValue problem offset]))
    | .error .ragged => .error .internal
    | .error _ => .error (.refusedWith 400 "There was an error parsing the body")
    | .ok v =>
      match checkBody check v with
      | .good a => .ok a
      | .bad issues => .error (.invalid issues)

end SolidWorkshop.Web
