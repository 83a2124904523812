import SolidWorkshop.Text.Split

/-!
# Paths

A path is a row of names below a root or below the working directory.  Empty names and single
points say nothing and are left out; double points stay until a path is resolved.
-/

namespace SolidWorkshop.Storage

/-- The names of a path's text, without the ones that say nothing. -/
def components (s : String) : List String :=
  ((Text.splitOn '/' s.toList).map String.ofList).filter fun name => name != "" && name != "."

/-- A path. -/
structure Path where
  /-- The slashes in front: none for a path below the working directory. -/
  root : String
  names : List String
  deriving DecidableEq

namespace Path

/-- Read a path.  Exactly two slashes in front are kept. -/
def ofString (s : String) : Path :=
  let slashes := (s.toList.takeWhile (· == '/')).length
  let root := if slashes = 0 then "" else if slashes = 2 then "//" else "/"
  ⟨root, components s⟩

/-- The text of a path. -/
def text (p : Path) : String :=
  if p.root.isEmpty && p.names.isEmpty then "." else p.root ++ "/".intercalate p.names

/-- The path starts at a root. -/
def isAbsolute (p : Path) : Bool :=
  !p.root.isEmpty

/-- A path below another one; an absolute one takes its place. -/
def join (p q : Path) : Path :=
  if q.isAbsolute then q else ⟨p.root, p.names ++ q.names⟩

/-- Go one name further; double points go back. -/
def follow (done : List String) (name : String) : List String :=
  if name = ".." then done.dropLast else done ++ [name]

/-- The absolute path without double points. -/
def resolve (workingDirectory p : Path) : Path :=
  ⟨"/", (workingDirectory.join p).names.foldl follow []⟩

/-- The path with the home directory in the place of a tilde. -/
def expandHome (home p : Path) : Path :=
  match p.root, p.names with
  | "", "~" :: rest => ⟨home.root, home.names ++ rest⟩
  | _, _ => p

end Path

end SolidWorkshop.Storage
