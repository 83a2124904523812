import SolidWorkshop.Flight
import SolidWorkshop.Json.Bytes
import SolidWorkshop.Library.Client
import SolidWorkshop.Library.Directive
import SolidWorkshop.Library.Template
import SolidWorkshop.Log

/-!
# Resolution of the library

The library's files are listed, and those that are sources are downloaded in batches.  A file
that cannot be downloaded is left out; without a listing there is no library.  What has been
found is kept, so that it is found once.
-/

namespace SolidWorkshop.Library

/-- Which library is used, and where it is found. -/
structure Config where
  name : String := "BOSL2"
  repo : String := "BelfrySCAD/BOSL2"
  version : String := "master"
  listingUrl : String :=
    "https://data.jsdelivr.com/v1/packages/gh/\x7brepo\x7d@\x7bversion\x7d?structure=flat"
  fileUrl : String := "https://cdn.jsdelivr.net/gh/\x7brepo\x7d@\x7bversion\x7d/\x7bpath\x7d"
  fileSuffix : String := ".scad"
  batchSize : Int := 8

/-- The path of a file, as the listing gives it. -/
abbrev Path := List Text.Point

/-- The files of a library by path, in the order of the listing. -/
abbrev Files := List (Path × ByteArray)

/-- The files whose paths are strings.  No other path can be written to. -/
def Files.named (files : Files) : List (String × ByteArray) :=
  files.filterMap fun (path, content) => (Text.ofPoints? path).map (·, content)

namespace Config

/-- The library and its version, as messages name them. -/
def label (c : Config) : String :=
  c.name ++ "@" ++ c.version

/-- How many files are requested together: at least one. -/
def batch (c : Config) : Nat :=
  max 1 c.batchSize.toNat

/-- The values that the addresses' fields name. -/
def fields (c : Config) : Fields :=
  [("repo", Text.points c.repo), ("version", Text.points c.version)]

/-- The address of the file of a path. -/
def address (c : Config) (path : Path) : Except Failure (List Text.Point) :=
  fill c.fileUrl (c.fields ++ [("path", path)])

/-- The path of a listed file; none when it is no source. -/
def pathOf? (c : Config) (entry : Json.Tree) : Option Path :=
  let name := match entry with
    | .dict _ => (entry.get? "name").getD .null
    | t => t
  match name with
  | .text s =>
    if (Text.points c.fileSuffix).isSuffixOf s then some (s.dropWhile (· == .char '/')) else none
  | _ => none

/-- The paths of a listing. -/
def paths (c : Config) (listing : Json.Tree) : Except Failure (List Path) :=
  match listing.get? "files" with
  | some (.list entries) => .ok (entries.filterMap c.pathOf?)
  | _ => .error (.listingMalformed c.label)

/-- Read a listing. -/
def readListing (c : Config) (body : ByteArray) : Except Failure (List Path) :=
  match Json.readTree body with
  | .error e => .error (.listingUnavailable c.label e.message)
  | .ok listing => c.paths listing

end Config

/-- What a resolution did: the lines it told the log, those it told together with its answer, the
requests, and how it ended. -/
structure Resolution where
  log : List LogLine
  closing : List LogLine
  requests : List String
  outcome : Except Failure Files

/-- All lines of a resolution. -/
def Resolution.lines (r : Resolution) : List LogLine :=
  r.log ++ r.closing

/-- A failure of a kind that counts as a bad value. -/
def isBadValue (failure : Failure) : Bool :=
  failure.area = .value || failure.area = .encoding

/-- Request the listing: the requests, and the paths of the sources. -/
def list (c : Config) (client : Client) (server : Server) :
    List String × Except Failure (List Path) :=
  match fill c.listingUrl c.fields with
  | .error failure => ([], .error failure)
  | .ok address =>
    let fetched := client.fetch server address
    (fetched.requests,
      match fetched.result with
      | .error (.refused failure) =>
        .error (if isBadValue failure then .listingUnavailable c.label failure.message else failure)
      | .error (.exchange reason) => .error (.listingUnavailable c.label reason)
      | .ok body => c.readListing body)

/-- Request one file: the requests, and its body if it could be downloaded. -/
def download (c : Config) (client : Client) (server : Server) (path : Path) :
    List String × Except Failure (Option ByteArray) :=
  match c.address path with
  | .error failure => ([], .error failure)
  | .ok address =>
    let fetched := client.fetch server address
    (fetched.requests,
      match fetched.result with
      | .error (.refused failure) => .error failure
      | .error (.exchange _) => .ok none
      | .ok body => .ok (some body))

/-- The first failure among some outcomes, or all of them. -/
def firstFailure {α : Type} : List (Except Failure α) → Except Failure (List α)
  | [] => .ok []
  | .error failure :: _ => .error failure
  | .ok a :: rest => (firstFailure rest).map (a :: ·)

/-- Put the bodies that could be downloaded among the files; a known path gets its new body. -/
def collect (files : Files) (bodies : List (Path × Option ByteArray)) : Files :=
  bodies.foldl (fun files (path, body) =>
    match body with
    | some body => setEntry path body files
    | none => files) files

/-- A list cut into batches; the fuel bounds their number. -/
def batches {α : Type} (size : Nat) : Nat → List α → List (List α)
  | 0, _ => []
  | fuel + 1, items =>
    if items.isEmpty then [] else items.take size :: batches size fuel (items.drop size)

/-- What downloading did: a line of the log for every batch, the requests, and how it ended. -/
structure Download where
  log : List LogLine
  requests : List String
  outcome : Except Failure Files

/-- Download batch after batch.  A file whose address cannot be built ends the work after its
batch has been requested. -/
def downloadAll (c : Config) (client : Client) (server : Server) (total done : Nat)
    (files : Files) : List (List Path) → Download
  | [] => ⟨[], [], .ok files⟩
  | batch :: rest =>
    let fetched := batch.map (download c client server)
    let requests := fetched.flatMap (·.1)
    match firstFailure (fetched.map (·.2)) with
    | .error failure => ⟨[], requests, .error failure⟩
    | .ok bodies =>
      let done := done + batch.length
      let line := LogLine.info
        (c.name ++ ": " ++ toString done ++ "/" ++ toString total ++ " files")
      let later := downloadAll c client server total done (collect files (batch.zip bodies)) rest
      ⟨line :: later.log, requests ++ later.requests, later.outcome⟩

/-- The lines of the log at the end of a resolution. -/
def closing (c : Config) (total : Nat) (files : Files) : List LogLine :=
  let missing := total - files.length
  (if missing = 0 then []
    else [LogLine.warning
      (c.name ++ ": " ++ toString missing ++ " file(s) could not be downloaded.")])
    ++ [LogLine.success (c.name ++ " ready (" ++ toString files.length ++ " files).")]

/-- Find the library.  The line of the last batch is told together with the answer; without a
batch all lines are. -/
def resolve (c : Config) (client : Client) (server : Server) : Resolution :=
  let opening := LogLine.info ("Resolving " ++ c.label ++ "...")
  let (requests, listed) := list c client server
  match listed with
  | .error failure => ⟨[opening], [], requests, .error failure⟩
  | .ok paths =>
    let total := paths.length
    let announced := LogLine.info (c.name ++ ": downloading " ++ toString total ++ " files...")
    let found := downloadAll c client server total 0 [] (batches c.batch total paths)
    let requests := requests ++ found.requests
    match found.outcome with
    | .error failure => ⟨opening :: announced :: found.log, [], requests, .error failure⟩
    | .ok files =>
      match found.log.getLast? with
      | none => ⟨[], opening :: announced :: closing c total files, requests, .ok files⟩
      | some last =>
        ⟨opening :: announced :: found.log.dropLast, last :: closing c total files, requests,
          .ok files⟩

/-- The key under which the library is kept. -/
abbrev Key := String × String

/-- The library and its version. -/
def Config.key (c : Config) : Key :=
  (c.name, c.version)

/-- The libraries found so far, and those being found. -/
abbrev Store := Flight.State Key Files

/-- The libraries found so far, as messages name them. -/
def Store.labels (s : Store) : List String :=
  s.keys.map fun (name, version) => name ++ "@" ++ version

/-- The line of the log for a library that is there already. -/
def cachedLine (c : Config) (files : Files) : LogLine :=
  .info (c.name ++ " (" ++ toString files.length ++ " files) loaded from cache.")

/-- What some callers who ask at once are given. -/
structure Shared where
  store : Store
  log : List LogLine
  requests : List String
  results : List (Except Failure Files)

/-- Several callers ask for the library at once: the first one's question finds it, and the
others wait for the same answer. -/
def askAll (c : Config) (client : Client) (server : Server) (store : Store) (callers : Nat) :
    Shared :=
  match store.peek? c.key with
  | some files =>
    ⟨store, List.replicate callers (cachedLine c files), [], List.replicate callers (.ok files)⟩
  | none =>
    let found := resolve c client server
    let (store, outcomes) := store.share c.key callers (.ofExcept found.outcome)
    ⟨store, if callers = 0 then [] else found.lines, if callers = 0 then [] else found.requests,
      outcomes.map Outcome.toExcept⟩

end SolidWorkshop.Library
