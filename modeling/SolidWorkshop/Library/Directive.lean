import SolidWorkshop.Text.Blank
import SolidWorkshop.Text.Split

/-!
# Library directives

A source text needs the library when one of its lines begins an include or a use directive for a
file below the library's name.  White space inside a directive may run over the ends of lines.
-/

namespace SolidWorkshop.Library

/-- Some blank characters, possibly none, and then a given text at the start. -/
def followsBlanks (word : List Char) : List Char → Bool
  | [] => word.isEmpty
  | c :: rest => word.isPrefixOf (c :: rest) || (Text.isBlank c && followsBlanks word rest)

/-- The words that begin a directive. -/
def directiveWords : List String :=
  ["include", "use"]

/-- The rest of a directive after its first word names a file below the library. -/
def opensLibrary (library : List Char) (s : List Char) : Bool :=
  match Text.trimStart s with
  | '<' :: rest => followsBlanks (library ++ ['/']) rest
  | _ => false

/-- A text begins, blank characters aside, with a directive for the library. -/
def beginsDirective (library : List Char) (s : List Char) : Bool :=
  let s := Text.trimStart s
  directiveWords.any fun word =>
    word.toList.isPrefixOf s && opensLibrary library (s.drop word.toList.length)

/-- Some line after the current one begins a directive. -/
def directiveBelow (library : List Char) : List Char → Bool
  | [] => false
  | c :: rest => (c = '\n' && beginsDirective library rest) || directiveBelow library rest

/-- A source text needs the library of the given name. -/
def isReferenced (library : String) (source : List Char) : Bool :=
  beginsDirective library.toList source || directiveBelow library.toList source

end SolidWorkshop.Library
