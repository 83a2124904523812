import SolidWorkshop.Compile.Request
import SolidWorkshop.Log

/-!
# Messages

What goes over the channel between a caller and a compile: a request one way, and the other way
lines of the log and then one last message, the result or an error.
-/

namespace SolidWorkshop

open Intake

/-- A source text to be compiled, with its overrides, as it stands in a message. -/
structure CompileMessage where
  source : String
  overrides : List Override

namespace CompileMessage

/-- The type of this message. -/
def tag : String := "compile-request"

/-- Check a message that asks for a compile. -/
def check : Check CompileMessage :=
  Check.record "CompileRequestMessage" fun fields =>
    (fun _ => CompileMessage.mk)
      <$> Check.defaulted fields "type" (Check.fixed tag) ()
      <*> Check.required fields "source_text" Check.text
      <*> overridesField fields

/-- The message as a dynamic value. -/
def toValue (m : CompileMessage) : Value :=
  .dict [("type", .text tag), ("source_text", .text m.source),
    ("overrides", overridesValue m.overrides)]

end CompileMessage

/-- A message to the caller. -/
inductive Reply where
  /-- A line of the log. -/
  | log (line : LogLine)
  /-- The artifact of a finished compile. -/
  | result (artifact : ByteArray) (exitCode : Option Int) (elapsed : Binary64)
  /-- The reason why there is no artifact, and the status it is answered with. -/
  | error (message : String) (status : Int)

namespace Reply

/-- The status of an error without one of its own. -/
def defaultStatus : Int := 500

/-- The last message of a compile. -/
def isTerminal : Reply → Bool
  | .log _ => false
  | .result .. => true
  | .error .. => true

/-- The message as a dynamic value.  The bytes of an artifact and the status of an error are not
in it. -/
def toValue : Reply → Value
  | .log line =>
    .dict [("type", .text "log"), ("text", .text line.text), ("level", .text line.level.name)]
  | .result artifact exitCode elapsed =>
    .dict [("type", .text "result"), ("exit_code", .ofOption .int exitCode),
      ("elapsed", .float elapsed), ("size", .int artifact.size)]
  | .error message _ => .dict [("type", .text "error"), ("message", .text message)]

/-- Check a line of the log. -/
def checkLog : Check Reply :=
  Check.record "LogMessage" fun fields =>
    (fun _ text level => .log ⟨text, level⟩)
      <$> Check.defaulted fields "type" (Check.fixed "log") ()
      <*> Check.required fields "text" Check.text
      <*> Check.defaulted fields "level" (Check.choice Level.name Level.all) .info

/-- Check the result of a compile. -/
def checkResult : Check Reply :=
  Check.record "ResultMessage" fun fields =>
    (fun _ => Reply.result)
      <$> Check.defaulted fields "type" (Check.fixed "result") ()
      <*> Check.required fields "artifact" Check.bytes
      <*> Check.defaulted fields "exit_code" (Check.optional Check.integer) none
      <*> Check.defaulted fields "elapsed" Check.double .zero

/-- Check an error. -/
def checkError : Check Reply :=
  Check.record "ErrorMessage" fun fields =>
    (fun _ => Reply.error)
      <$> Check.defaulted fields "type" (Check.fixed "error") ()
      <*> Check.required fields "message" Check.text
      <*> Check.defaulted fields "status_code" Check.integer defaultStatus

end Reply

/-- Any message of the channel. -/
inductive Message where
  | request (m : CompileMessage)
  | reply (r : Reply)

namespace Message

/-- The name of a message's model. -/
def model : Message → String
  | .request _ => "CompileRequestMessage"
  | .reply (.log _) => "LogMessage"
  | .reply (.result ..) => "ResultMessage"
  | .reply (.error ..) => "ErrorMessage"

/-- The message as a dynamic value. -/
def toValue : Message → Value
  | .request m => m.toValue
  | .reply r => r.toValue

/-- The types of messages and the checks for them. -/
def kinds : List (String × Check Message) :=
  [(CompileMessage.tag, fun v => (CompileMessage.check v).map .request),
   ("log", fun v => (Reply.checkLog v).map .reply),
   ("result", fun v => (Reply.checkResult v).map .reply),
   ("error", fun v => (Reply.checkError v).map .reply)]

/-- Check a message by the type it says it is of. -/
def check : Check Message := fun v =>
  match v with
  | .dict fields =>
    match fields.lookup "type" with
    | none => .fail (.tagMissing "type") v
    | some found =>
      match found with
      | .text tag =>
        match kinds.lookup tag with
        | some check => (check v).under (.key tag)
        | none => .fail (.tagUnknown "type" tag (kinds.map (·.1))) v
      | _ => .fail (.tagUnknown "type" found.plain (kinds.map (·.1))) v
  | _ => .fail .objectExpected v

end Message

end SolidWorkshop
