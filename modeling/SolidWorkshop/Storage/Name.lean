import SolidWorkshop.Text.Blank

/-!
# Safe file names

A name chosen from outside becomes a file name: characters that could be more than a letter of
it are replaced, and points and underscores at its ends are dropped.
-/

namespace SolidWorkshop.Storage

/-- A character that stands for itself in a file name. -/
def isSafe (c : Char) : Bool :=
  c.isAlphanum || c = '.' || c = '_' || c = '-'

/-- A character that is dropped at the ends of a file name. -/
def isEdge (c : Char) : Bool :=
  c = '.' || c = '_'

/-- Put a character in front of a name, one underscore for a whole run of unsafe ones.  The first
part says whether the name begins with such a run. -/
def safeStep (c : Char) : Bool × List Char → Bool × List Char
  | (inRun, name) =>
    if isSafe c then (false, c :: name)
    else (true, if inRun then name else '_' :: name)

/-- The name with an underscore in the place of every run of unsafe characters. -/
def replaceRuns (s : List Char) : List Char :=
  (s.foldr safeStep (false, [])).2

/-- A safe file name, or the fallback when nothing is left. -/
def safeName (name fallback : String) : String :=
  let kept := Text.dropEndWhile isEdge ((replaceRuns (Text.trim name.toList)).dropWhile isEdge)
  if kept.isEmpty then fallback else String.ofList kept

end SolidWorkshop.Storage
