import SolidWorkshop.Parameter.Scalar

/-!
# Overrides

A value that the engine is told to use in the place of a definition in the source text.
-/

namespace SolidWorkshop

/-- A name and the value it stands for. -/
structure Override where
  name : String
  value : Scalar
  kind : Kind
  deriving DecidableEq

namespace Override

/-- The names that can be overridden, as messages write them. -/
def namePattern : String := "^[A-Za-z0-9_]+$"

/-- A name that can be overridden: ASCII letters, digits and underscores. -/
def isName (s : String) : Bool :=
  !s.isEmpty && s.toList.all fun c => c.isAlphanum || c = '_'

/-- The definition that the engine reads. -/
def expression (o : Override) : Except Failure String := do
  return o.name ++ "=" ++ (← literal o.kind o.value.toValue)

/-- The override as a dynamic value. -/
def toValue (o : Override) : Value :=
  .dict [("name", .text o.name), ("value", o.value.toValue), ("type", .text o.kind.name)]

end Override

end SolidWorkshop
