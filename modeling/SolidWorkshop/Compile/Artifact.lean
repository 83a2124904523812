import SolidWorkshop.Compile.Reply

/-!
# Artifacts

What a compile brings, and the last message that it leads to.
-/

namespace SolidWorkshop.Compile

/-- The artifact of a compile. -/
structure Artifact where
  content : ByteArray
  exitCode : Option Int
  elapsed : Binary64
  definitions : List String

/-- How a compile ends: with an artifact or with a failure.  One that is cancelled ends without a
word. -/
abbrev Ended := Except Failure Artifact

/-- The words for a failure that is none of the service's own. -/
def unexpected (words : String) : String :=
  "Unexpected compile error: " ++ words

/-- The last message of a compile that fails; none when it was cancelled. -/
def failureReply? (failure : Failure) : Option Reply :=
  match failure.area, failure.status? with
  | .cancelled, _ => none
  | _, some status => some (.error failure.message status)
  | _, none => some (.error (unexpected failure.message) Reply.defaultStatus)

/-- The last message of a compile; none when it ends without a word. -/
def Ended.reply? : Ended → Option Reply
  | .ok artifact => some (.result artifact.content artifact.exitCode artifact.elapsed)
  | .error failure => failureReply? failure

end SolidWorkshop.Compile
