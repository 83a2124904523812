import SolidWorkshop.Failure
import SolidWorkshop.Text.Case

/-!
# Verbosity

How much the service writes to its own log.  The loggers of single requests to the library
server are kept quiet: they write warnings at the least.
-/

namespace SolidWorkshop.Service

/-- The names of the levels and their numbers. -/
def verbosityLevels : List (String × Nat) :=
  [("CRITICAL", 50), ("FATAL", 50), ("ERROR", 40), ("WARNING", 30), ("WARN", 30), ("INFO", 20),
   ("DEBUG", 10), ("NOTSET", 0)]

/-- The level of the service's log and that of the request loggers. -/
structure Verbosity where
  root : Nat
  requests : Nat
  deriving DecidableEq

/-- The name that stands for the form of a line instead of a level. -/
def lineForm : String × String :=
  ("BASIC_FORMAT", "%(levelname)s:%(name)s:%(message)s")

/-- The verbosity of a level's name in capital or small letters; an unknown name informs. -/
def Verbosity.ofName (name : String) : Except Failure Verbosity :=
  let name := String.ofList (Text.capitals name.toList)
  if name = lineForm.1 then .error (.unknownLevel lineForm.2)
  else
    let level := (verbosityLevels.lookup name).getD 20
    .ok ⟨level, max level 30⟩

end SolidWorkshop.Service
