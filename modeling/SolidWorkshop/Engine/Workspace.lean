import SolidWorkshop.Failure
import SolidWorkshop.Storage.Path

/-!
# Workspaces

Each compile has a file area of its own.  A place in it is a row of names, none of which leads out
of it; the area holds a file or a directory at some places, and with a place it holds the
directories above it.
-/

namespace SolidWorkshop.Engine

/-- A place in a workspace: the names that lead to it. -/
abbrev Place := List String

/-- The directory of the libraries. -/
def libraryRoot : String := "libraries"

/-- Read a place; one that is empty or goes back is refused. -/
def place (relative : String) : Except Failure Place :=
  let names := Storage.components relative
  if names.isEmpty || names.contains ".." then .error (.outsideWorkspace relative) else .ok names

/-- What stands at a place. -/
inductive Entry where
  | file (content : ByteArray)
  | directory
  /-- A file that the system lets nobody read, with its reason. -/
  | sealed (reason : String)

/-- The file area of a compile. -/
structure Workspace where
  /-- The area is there at all. -/
  isPresent : Bool
  entries : List (Place × Entry)

/-- What the system does when two directories are to be made for a compile: the workspace, and in it
the one for libraries. -/
inductive Grant where
  | granted
  /-- The first one cannot be made. -/
  | refused (reason : String)
  /-- The second one cannot be made. -/
  | bare (reason : String)

namespace Workspace

/-- A workspace as it is handed out: with a directory for libraries. -/
def fresh : Workspace :=
  ⟨true, [([libraryRoot], .directory)]⟩

/-- A workspace that has been removed, or has never been made. -/
def removed : Workspace :=
  ⟨false, []⟩

/-- A workspace without the directory for libraries. -/
def bare : Workspace :=
  ⟨true, []⟩

/-- Make a workspace: what there is of it then, and why it cannot be handed out. -/
def make : Grant → Workspace × Option Failure
  | .granted => (fresh, none)
  | .refused reason => (removed, some (.workspaceRefused reason))
  | .bare reason => (bare, some (.workspaceRefused reason))

/-- What stands at a place. -/
def entry? (w : Workspace) (at_ : Place) : Option Entry :=
  if at_.isEmpty then if w.isPresent then some .directory else none
  else w.entries.lookup at_

/-- A file stands at a place. -/
def isFile (w : Workspace) (at_ : Place) : Bool :=
  match w.entry? at_ with
  | some (.file _) | some (.sealed _) => true
  | _ => false

/-- A directory stands at a place. -/
def isDirectory (w : Workspace) (at_ : Place) : Bool :=
  match w.entry? at_ with
  | some .directory => true
  | _ => false

/-- Put something at a place. -/
def put (w : Workspace) (at_ : Place) (entry : Entry) : Workspace :=
  { w with entries := w.entries.filter (fun e => e.1 != at_) ++ [(at_, entry)] }

/-- The places above a place, the outermost first, and the place itself. -/
def chain (at_ : Place) : List Place :=
  (List.range at_.length).map fun k => at_.take (k + 1)

/-- A place that no file system takes. -/
def hasZero (at_ : Place) : Bool :=
  at_.any fun name => name.toList.contains '\x00'

/-- Make a directory at a place that has none. -/
def makeDirectory (w : Workspace) (at_ : Place) : Workspace :=
  if w.isDirectory at_ then w else w.put at_ .directory

/-- Make the directory at a place and those above it, unless a file is in the way. -/
def makeDirectories (w : Workspace) (at_ : Place) : Except Failure Workspace :=
  if hasZero at_ then .error .zeroInPath
  else if (chain at_.dropLast).any w.isFile then .error .pathNotDirectory
  else if w.isFile at_ then .error .pathExists
  else .ok ((chain at_).foldl makeDirectory { w with isPresent := true })

/-- Write a file and make the directories above it: the workspace as it is then, and why the file
could not be written. -/
def write (w : Workspace) (at_ : Place) (content : ByteArray) : Workspace × Option Failure :=
  match w.makeDirectories at_.dropLast with
  | .error failure => (w, some failure)
  | .ok w =>
    if hasZero at_ then (w, some .zeroInPath)
    else if w.isDirectory at_ then (w, some .pathIsDirectory)
    else (w.put at_ (.file content), none)

/-- The content of the file at a place, if it may be read. -/
def read? (w : Workspace) (at_ : Place) : Option ByteArray :=
  match w.entry? at_ with
  | some (.file content) => some content
  | _ => none

/-- Why the file at a place may not be read. -/
def denial? (w : Workspace) (at_ : Place) : Option String :=
  match w.entry? at_ with
  | some (.sealed reason) => some reason
  | _ => none

/-- Read the file at a place, if there is one. -/
def read (w : Workspace) (at_ : Place) : Except Failure (Option ByteArray) :=
  match w.denial? at_ with
  | some reason => .error (.accessDenied reason)
  | none => .ok (w.read? at_)

/-- Write a file at a place given by its text. -/
def writeAt (w : Workspace) (relative : String) (content : ByteArray) :
    Workspace × Option Failure :=
  match place relative with
  | .error failure => (w, some failure)
  | .ok at_ => w.write at_ content

/-- The content of the file at a place given by its text, if there is one. -/
def readAt (w : Workspace) (relative : String) : Except Failure (Option ByteArray) :=
  (place relative).bind w.read

/-- The text of the place for a library's file. -/
def libraryPath (library relative : String) : String :=
  libraryRoot ++ "/" ++ library ++ "/" ++ relative

/-- Write the files of a library, from a count on.  A file with a place that is refused is left
out; anything else in the way ends the work. -/
def stageFrom (count : Nat) (w : Workspace) (library : String) :
    List (String × ByteArray) → Workspace × Except Failure Nat
  | [] => (w, .ok count)
  | (relative, content) :: rest =>
    match w.writeAt (libraryPath library relative) content with
    | (w, none) => stageFrom (count + 1) w library rest
    | (w, some failure) =>
      if failure.area = .value then stageFrom count w library rest else (w, .error failure)

/-- Write the files of a library: the workspace, and how many were written. -/
def stage (w : Workspace) (library : String) (files : List (String × ByteArray)) :
    Workspace × Except Failure Nat :=
  stageFrom 0 w library files

/-- The text of a place. -/
def placeText (at_ : Place) : String :=
  "/".intercalate at_

/-- All entries in the order of their places' texts. -/
def listing (w : Workspace) : List (String × Entry) :=
  (w.entries.map fun (at_, entry) => (placeText at_, entry)).mergeSort fun a b => a.1 ≤ b.1

end Workspace

/-- A workspace in use. -/
structure Instance where
  workspace : Workspace
  closed : Bool

namespace Instance

/-- A workspace handed out. -/
def create : Instance :=
  ⟨.fresh, false⟩

/-- Give a workspace back; unless workspaces are kept it is removed.  A second time does
nothing. -/
def close (i : Instance) (keep : Bool) : Instance :=
  if i.closed then i
  else ⟨if keep then i.workspace else .removed, true⟩

end Instance

end SolidWorkshop.Engine
