import SolidWorkshop.Source.Extraction

/-!
# Synthesis

Edited values are written back into the source text.  Only the literal on a parameter's line is
replaced; every other character of the text stays as it is.
-/

namespace SolidWorkshop.Source

/-- Write one parameter into the lines of a text. -/
def writeLine (lines : List (List Char)) (d : Descriptor) : Except Failure (List (List Char)) :=
  if (lines.length : Int) ≤ d.line then .error (.stale d.name d.line)
  else
    match Text.place? lines.length d.line with
    | none => .error .outOfRange
    | some place =>
      if lines[place]? = some d.rawLine then do return lines.set place (← d.render)
      else .error (.stale d.name d.line)

/-- The text with the current values of some parameters in it. -/
def synthesize (source : List Char) (descriptors : List Descriptor) :
    Except Failure (List Char) := do
  return Text.unlines (← descriptors.foldlM writeLine (Text.lines source))

/-- Edited values by name, in the order they were given. -/
abbrev Edits := List (String × Value)

/-- Change the last parameter of a name. -/
def updateLast (name : String) (d : Descriptor) (descriptors : List Descriptor) :
    List Descriptor :=
  let after := (descriptors.reverse.takeWhile (·.name != name)).length
  descriptors.set (descriptors.length - after - 1) d

/-- The last parameter of a name. -/
def findLast? (descriptors : List Descriptor) (name : String) : Option Descriptor :=
  descriptors.reverse.find? (·.name == name)

/-- The names among the edits that no parameter has, in the order of their characters. -/
def unknownNames (descriptors : List Descriptor) (edits : Edits) : List String :=
  ((edits.map (·.1)).filter fun name => (findLast? descriptors name).isNone).mergeSort
    fun a b => a ≤ b

/-- Set one value; of parameters with the same name the last one takes it. -/
def applyEdit (descriptors : List Descriptor) (name : String) (raw : Value) :
    Except Failure (List Descriptor) :=
  match findLast? descriptors name with
  | none => .error (.unknownParameters [name])
  | some d =>
    match d.set raw with
    | .ok edited => .ok (updateLast name edited descriptors)
    | .error cause =>
      if cause.area = .parameter then .error (.forParameter name cause) else .error cause

/-- Set values in order up to the first one that is refused: the parameters as they are then, and
the refusal. -/
def applyInOrder (descriptors : List Descriptor) : Edits → List Descriptor × Option Failure
  | [] => (descriptors, none)
  | (name, raw) :: rest =>
    match applyEdit descriptors name raw with
    | .ok edited => applyInOrder edited rest
    | .error failure => (descriptors, some failure)

/-- Set values by name.  Unless every name is known nothing is set; the first value that is
refused ends the work, and what was set before it stays. -/
def applyEdits (descriptors : List Descriptor) (edits : Edits) :
    List Descriptor × Option Failure :=
  match unknownNames descriptors edits with
  | [] => applyInOrder descriptors edits
  | names => (descriptors, some (.unknownParameters names))

/-- Extract the parameters, set values and write them back: the new text and the overrides of all
parameters. -/
def customize (source : List Char) (edits : Edits) : Except Failure (List Char × List Override) := do
  let descriptors ← extract source
  match applyEdits descriptors edits with
  | (_, some failure) => .error failure
  | (edited, none) =>
    let effective ← synthesize source edited
    return (effective, ← edited.mapM Descriptor.toOverride)

end SolidWorkshop.Source
