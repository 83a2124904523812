import SolidWorkshop.Parameter.Override

/-!
# Engine arguments

How the engine is called for a compile: the file it reads, the file it writes, and one definition
for every override.
-/

namespace SolidWorkshop.Engine

/-- The file that the engine reads. -/
def inputFile : String := "input.scad"

/-- The file that the engine writes. -/
def outputFile : String := "output.stl"

/-- The definitions of some overrides. -/
def expressions (overrides : List Override) : Except Failure (List String) :=
  overrides.mapM Override.expression

/-- The arguments for some definitions. -/
def defineFlags (definitions : List String) : List String :=
  definitions.flatMap fun definition => ["-D", definition]

/-- A definition holds a zero character, with which no process can be started. -/
def holdsZero (definitions : List String) : Bool :=
  definitions.any fun definition => definition.toList.contains '\x00'

/-- The arguments of a compile. -/
def arguments (overrides : List Override) : Except Failure (List String) := do
  return [inputFile, "-o", outputFile] ++ defineFlags (← expressions overrides)

end SolidWorkshop.Engine
