import SolidWorkshop.Parameter.Descriptor
import SolidWorkshop.Source.Annotation

/-!
# Extraction

The editable assignments in front of the first definition of a source text, in their order, each
with the section it stands in.  Right-hand sides that are not literals are skipped.
-/

namespace SolidWorkshop.Source

/-- The option of a token: for a number, what reads as a number becomes one. -/
def optionOf (kind : Kind) (token : String) : Except Failure Scalar :=
  if kind = .number then do
    match ← Number.ofChars? token.toList with
    | some n => return .ofNumber n
    | none => return .text token
  else .ok (.text token)

/-- A descriptor with what the trailing comment says about it. -/
def annotate (d : Descriptor) : Annotation → Except Failure Descriptor
  | .none => .ok d
  | .range low step high =>
    .ok { d with min := some low, max := some high, step := step, kind := .number, options := none }
  | .options tokens ambiguous => do
    let options ← tokens.mapM (optionOf d.kind)
    return { d with options := some options, ambiguous := ambiguous }
  | .description text => .ok { d with description := text }

/-- The descriptor of an assignment on a line, as far as its comment has nothing to say. -/
def Assignment.descriptor (a : Assignment) (line : Nat) (rawLine : List Char)
    (title : Option String) (kind : Kind) (value : Scalar) : Descriptor :=
  { name := a.name, sectionTitle := title, line := line, rawLine := rawLine,
    rawValue := a.literal, valueStart := a.start, valueEnd := a.stop, comment := a.comment,
    description := "", kind := kind, value := value, default := value, options := none,
    min := none, max := none, step := none, ambiguous := false }

/-- The descriptor of an assignment on a line; none when it cannot be edited. -/
def descriptorOf? (a : Assignment) (line : Nat) (rawLine : List Char) (title : Option String) :
    Except Failure (Option Descriptor) :=
  if a.isSpecial then .ok none
  else do
    match ← Literal.ofChars? a.literal with
    | none => return none
    | some (kind, value) =>
      return some (← annotate (a.descriptor line rawLine title kind value)
        (← Annotation.ofChars a.comment.toList))

/-- Scan lines from the one with the given number on, inside a section. -/
def scan (line : Nat) (title : Option String) : List (List Char) → Except Failure (List Descriptor)
  | [] => .ok []
  | rawLine :: rest =>
    match Shape.ofLine? rawLine with
    | none => scan (line + 1) title rest
    | some (.sectionHeader title) => scan (line + 1) (some title) rest
    | some (.stopKeyword _) => .ok []
    | some (.assignment a) => do
      let found ← descriptorOf? a line rawLine title
      let others ← scan (line + 1) title rest
      return found.toList ++ others

/-- The editable assignments of a source text. -/
def extract (source : List Char) : Except Failure (List Descriptor) :=
  scan 0 none (Text.lines source)

/-- The titles of the sections, in the order of their first parameters; a blank title is none. -/
def sections (descriptors : List Descriptor) : List String :=
  descriptors.foldl (fun seen d =>
    match d.sectionTitle with
    | some title => if title.isEmpty || seen.contains title then seen else seen ++ [title]
    | none => seen) []

/-- The first parameter of a name. -/
def find? (descriptors : List Descriptor) (name : String) : Option Descriptor :=
  descriptors.find? (·.name == name)

/-- The parameters whose options can be read in more than one way. -/
def ambiguousNames (descriptors : List Descriptor) : List String :=
  (descriptors.filter (·.ambiguous)).map (·.name)

end SolidWorkshop.Source
