import SolidWorkshop.Intake.Check
import SolidWorkshop.Storage.Path
import SolidWorkshop.Text.Case

/-!
# Settings

The settings of the service, read from the variables of its environment.  A variable's name is
the field's name behind a mark, in capital or small letters.  The engine is looked for in several
places when no variable names it.
-/

namespace SolidWorkshop.Service

open Intake Storage

/-- The settings of the service. -/
structure Settings where
  serviceName : String
  host : String
  port : Int
  logLevel : String
  engine : Path
  engineTimeout : Number
  engineProbeTimeout : Number
  keepWorkspaces : Bool
  libraryName : String
  libraryRepo : String
  libraryVersion : String
  libraryListingUrl : String
  libraryFileUrl : String
  libraryFileSuffix : String
  dependencyBatchSize : Int
  httpTimeout : Binary64
  storageDir : Path
  workspacesSubdir : String
  artifactsSubdir : String
  maxConcurrentJobs : Int
  maxQueueSize : Int
  syncWaitTimeout : Number
  finishedJobTtl : Number
  cleanupInterval : Number
  maxJobRecords : Int
  apiKey : Option String

namespace Settings

/-- Where the list of the library's files is found. -/
def defaultListingUrl : String :=
  "https://data.jsdelivr.com/v1/packages/gh/\x7brepo\x7d@\x7bversion\x7d?structure=flat"

/-- Where a file of the library is found. -/
def defaultFileUrl : String :=
  "https://cdn.jsdelivr.net/gh/\x7brepo\x7d@\x7bversion\x7d/\x7bpath\x7d"

/-- Where the workspaces are. -/
def workspacesDir (s : Settings) : Path :=
  s.storageDir.join (Path.ofString s.workspacesSubdir)

/-- Where the artifacts are. -/
def artifactsDir (s : Settings) : Path :=
  s.storageDir.join (Path.ofString s.artifactsSubdir)

end Settings

/-- A file of the working directory and its mode. -/
structure File where
  path : Path
  mode : Nat

/-- What the settings are read from. -/
structure Environment where
  bindings : List (String × String)
  files : List File
  workingDirectory : Path
  serviceRoot : Path

namespace Environment

/-- The value of the variable with exactly this name. -/
def exactly (e : Environment) (name : String) : String :=
  (e.bindings.lookup name).getD ""

/-- The mark in front of the names of the service's variables. -/
def mark : String := "scad_"

/-- The value of the variable of a field; of several that differ in their capitals the last one
counts. -/
def field? (e : Environment) (name : String) : Option String :=
  let wanted := (mark ++ name).toList
  (e.bindings.reverse.find? fun (key, _) => Text.smalls key.toList == wanted).map (·.2)

/-- The home directory. -/
def home (e : Environment) : Path :=
  Path.ofString (e.exactly "HOME")

/-- A row of names leads to a file or a directory of the working directory. -/
def present (e : Environment) (names : List String) : Bool :=
  names.isEmpty || e.files.any fun file => names.isPrefixOf file.path.names

/-- Every step of a path below the working directory leads to something. -/
def leads (e : Environment) (done : List String) : List String → Bool
  | [] => e.present done
  | name :: rest =>
    e.present done && (e.files.all fun file => file.path.names != done) &&
      e.leads (Path.follow done name) rest

/-- The names of a path below the working directory. -/
def within? (e : Environment) (p : Path) : Option (List String) :=
  let base := e.workingDirectory.names
  if !p.isAbsolute then some p.names
  else if base.isPrefixOf p.names then some (p.names.drop base.length)
  else none

/-- A path leads to something. -/
def leadsTo (e : Environment) (p : Path) : Bool :=
  match e.within? p with
  | some names => e.leads [] names
  | none => p.names.isEmpty

/-- A path leads to a file that can be run. -/
def runs (e : Environment) (p : Path) : Bool :=
  match e.within? p with
  | some names =>
    e.leads [] names &&
      e.files.any fun file => file.path.names == names.foldl Path.follow [] && file.mode &&& 0o111 != 0
  | none => false

/-- The first place of the search path that holds a program of the given name. -/
def search? (e : Environment) (program : String) : Option String :=
  let path := e.exactly "PATH"
  if path.isEmpty then none
  else
    let places := (Text.splitOn ':' path.toList).map String.ofList
    (places.map fun place =>
      if place.isEmpty || place.endsWith "/" then place ++ program
      else place ++ "/" ++ program).find? fun candidate => e.runs (Path.ofString candidate)

/-- The places where the engine is looked for. -/
def engineCandidates (e : Environment) : List String :=
  [Text.trimmed (e.exactly "OPENSCAD_PATH"), Text.trimmed (e.exactly "OPENSCAD_EXEC"),
   (e.search? "openscad").getD "", (e.search? "openscad-nightly").getD "", "/usr/bin/openscad",
   "/usr/local/bin/openscad", "/Applications/OpenSCAD.app/Contents/MacOS/OpenSCAD"]

/-- The engine that is used when no variable names one. -/
def defaultEngine (e : Environment) : Path :=
  let paths := (e.engineCandidates.filter (· != "")).map fun c =>
    Path.expandHome e.home (Path.ofString c)
  (paths.find? e.leadsTo).getD (Path.ofString "/usr/bin/openscad")

/-- The absolute place of the engine. -/
def placeEngine (e : Environment) (p : Path) : Path :=
  Path.resolve e.workingDirectory (Path.expandHome e.home p)

/-- A field read from its variable, or its default. -/
def read {α : Type} (e : Environment) (name : String) (check : Check α) (default : α) : Checked α :=
  match e.field? name with
  | some s => (check (.text s)).under (.key name)
  | none => .good default

/-- The settings that the environment asks for. -/
def settings (e : Environment) : Checked Settings :=
  let path : Check Path := fun v => (Check.text v).map Path.ofString
  let count (low high : Int) : Check Number := fun v =>
    (Check.integerBetween low high v).map .int
  Settings.mk
    <$> e.read "service_name" Check.text "scad-customizer-service"
    <*> e.read "host" Check.text "0.0.0.0"
    <*> e.read "port" Check.integer 8110
    <*> e.read "log_level" Check.text "INFO"
    <*> (e.placeEngine <$> e.read "openscad_executable" path e.defaultEngine)
    <*> e.read "engine_timeout_seconds" (count 5 3600) (.int 300)
    <*> e.read "engine_probe_timeout_seconds" (count 1 600) (.int 60)
    <*> e.read "keep_workspaces" Check.truth false
    <*> e.read "library_name" Check.text "BOSL2"
    <*> e.read "library_repo" Check.text "BelfrySCAD/BOSL2"
    <*> e.read "library_version" Check.text "master"
    <*> e.read "library_listing_url" Check.text Settings.defaultListingUrl
    <*> e.read "library_file_url" Check.text Settings.defaultFileUrl
    <*> e.read "library_file_suffix" Check.text ".scad"
    <*> e.read "dependency_batch_size" (Check.integerBetween 1 64) 8
    <*> e.read "http_timeout_seconds" (Check.doubleBetween 1 600) (.ofDecimal false 60 0)
    <*> e.read "storage_dir" path (e.serviceRoot.join (Path.ofString "data"))
    <*> e.read "workspaces_subdir" Check.text "workspaces"
    <*> e.read "artifacts_subdir" Check.text "artifacts"
    <*> e.read "max_concurrent_jobs" (Check.integerBetween 1 16) 1
    <*> e.read "max_queue_size" (Check.integerBetween 1 10000) 32
    <*> e.read "sync_wait_timeout_seconds" (count 10 3600) (.int 600)
    <*> e.read "finished_job_ttl_seconds" (count 60 86400) (.int 1800)
    <*> e.read "cleanup_interval_seconds" (count 5 3600) (.int 30)
    <*> e.read "max_job_records" (Check.integerBetween 10 200000) 500
    <*> e.read "api_key" (Check.optional Check.text) none

end Environment

/-- The settings as a dynamic value. -/
def Settings.toValue (s : Settings) : Value :=
  .dict [
    ("service_name", .text s.serviceName),
    ("host", .text s.host),
    ("port", .int s.port),
    ("log_level", .text s.logLevel),
    ("openscad_executable", .text s.engine.text),
    ("engine_timeout_seconds", s.engineTimeout.toValue),
    ("engine_probe_timeout_seconds", s.engineProbeTimeout.toValue),
    ("keep_workspaces", .bool s.keepWorkspaces),
    ("library_name", .text s.libraryName),
    ("library_repo", .text s.libraryRepo),
    ("library_version", .text s.libraryVersion),
    ("library_listing_url", .text s.libraryListingUrl),
    ("library_file_url", .text s.libraryFileUrl),
    ("library_file_suffix", .text s.libraryFileSuffix),
    ("dependency_batch_size", .int s.dependencyBatchSize),
    ("http_timeout_seconds", .float s.httpTimeout),
    ("storage_dir", .text s.storageDir.text),
    ("workspaces_subdir", .text s.workspacesSubdir),
    ("artifacts_subdir", .text s.artifactsSubdir),
    ("max_concurrent_jobs", .int s.maxConcurrentJobs),
    ("max_queue_size", .int s.maxQueueSize),
    ("sync_wait_timeout_seconds", s.syncWaitTimeout.toValue),
    ("finished_job_ttl_seconds", s.finishedJobTtl.toValue),
    ("cleanup_interval_seconds", s.cleanupInterval.toValue),
    ("max_job_records", .int s.maxJobRecords),
    ("api_key", .ofOption .text s.apiKey),
    ("workspaces_dir", .text s.workspacesDir.text),
    ("artifacts_dir", .text s.artifactsDir.text)]

end SolidWorkshop.Service
