import SolidWorkshop.Text.Blank
import SolidWorkshop.Text.Case
import SolidWorkshop.Text.Split

/-!
# The log of a compile

Lines of text with a level.  The lines that the engine writes to its error stream get their
level from their first words.
-/

namespace SolidWorkshop

/-- How serious a line of the log is. -/
inductive Level where
  | info
  | success
  | warning
  | error
  deriving DecidableEq

namespace Level

/-- The name of a level. -/
def name : Level → String
  | .info => "info"
  | .success => "success"
  | .warning => "warning"
  | .error => "error"

/-- All levels. -/
def all : List Level :=
  [.info, .success, .warning, .error]

/-- The level of a name. -/
def ofName? (s : String) : Option Level :=
  all.find? (·.name == s)

/-- The first words of a line that reports an error. -/
def errorHeads : List String :=
  ["ERROR", "TRACE", "PARSER ERROR"]

/-- The first words of a line that reports a warning. -/
def warningHeads : List String :=
  ["WARNING", "DEPRECATED"]

/-- The level of a line from the engine's error stream. -/
def ofDiagnostic (line : List Char) : Level :=
  let head := Text.capitals (Text.trimStart line)
  let begins (words : List String) : Bool := words.any fun word => word.toList.isPrefixOf head
  if begins errorHeads || Text.occursIn "ERROR:".toList head then .error
  else if begins warningHeads then .warning
  else .info

end Level

/-- A line of the log. -/
structure LogLine where
  text : String
  level : Level
  deriving DecidableEq

namespace LogLine

/-- A line that informs. -/
def info (text : String) : LogLine := ⟨text, .info⟩

/-- A line that reports success. -/
def success (text : String) : LogLine := ⟨text, .success⟩

/-- A line that warns. -/
def warning (text : String) : LogLine := ⟨text, .warning⟩

/-- A line that reports an error. -/
def error (text : String) : LogLine := ⟨text, .error⟩

end LogLine

end SolidWorkshop
