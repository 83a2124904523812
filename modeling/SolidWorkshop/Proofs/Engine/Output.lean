import Mathlib.Data.List.Infix
import Mathlib.Tactic.SplitIfs
import SolidWorkshop.Engine.Run

/-!
# Output that can be told

The streams of a run are told to the log line by line.  The reading breaks off at a line that is
longer than the limit, and at nothing else: not for the bytes of a line, not for the length of a
stream.
-/

namespace SolidWorkshop.Engine

/-! ## Stretches without a line end -/

namespace Told

end Told

namespace Run

end Run

end SolidWorkshop.Engine
