import SolidWorkshop.Text.Split

/-!
# Routes

Which of the service's endpoints a path and a method lead to.  An endpoint's path is met exactly,
but for one line end behind it; a path that differs from one by slashes at its end is led there.
-/

namespace SolidWorkshop.Web

/-- What a request can ask for over a path. -/
inductive Endpoint where
  | overview
  | health
  | parameters
  | synthesize
  | run
  | submit
  | job (id : String)
  | result (id : String)
  | artifact (id : String)
  | cancel (id : String)
  /-- A page that describes the service. -/
  | description
  deriving DecidableEq

/-- Where a request is led. -/
inductive Route where
  | found (endpoint : Endpoint)
  | unknown
  /-- The path is known, but not with this method. -/
  | wrongMethod
  /-- The path is known without its last slashes, or with one. -/
  | moved
  deriving DecidableEq

namespace Endpoint

/-- The endpoints with paths that do not vary, by method. -/
def fixed : List (String × String × Endpoint) :=
  [("/", "GET", overview), ("/health", "GET", health), ("/parameters", "POST", parameters),
   ("/synthesize", "POST", synthesize), ("/run", "POST", run), ("/jobs", "POST", submit),
   ("/tool/schema", "GET", description), ("/openapi.json", "GET", description),
   ("/docs", "GET", description), ("/docs/oauth2-redirect", "GET", description),
   ("/redoc", "GET", description)]

/-- A path is met, perhaps with a line end behind it. -/
def isMet (path wanted : String) : Bool :=
  path = wanted || path = wanted ++ "\n"

/-- The endpoints of a job, by method. -/
def ofJob (path : String) : List (String × Endpoint) :=
  match (Text.splitOn '/' path.toList).map String.ofList with
  | ["", "jobs", id] => if id.isEmpty then [] else [("GET", job id), ("DELETE", cancel id)]
  | ["", "jobs", id, part] =>
    if id.isEmpty then []
    else if isMet part "result" then [("GET", result id)]
    else if isMet part "artifact" then [("GET", artifact id)]
    else []
  | _ => []

/-- The endpoints of a path, by method. -/
def ofPath (path : String) : List (String × Endpoint) :=
  (fixed.filter fun entry => isMet path entry.1).map (·.2) ++ ofJob path

end Endpoint

namespace Route

/-- The path without its last slashes, or with one more when there are none. -/
def otherSpelling (path : String) : String :=
  if path.endsWith "/" then
    String.ofList (path.toList.reverse.dropWhile (· == '/')).reverse
  else path ++ "/"

/-- Where a request with a method and a path is led. -/
def find (method path : String) : Route :=
  match Endpoint.ofPath path with
  | [] =>
    if path ≠ "/" && !(Endpoint.ofPath (otherSpelling path)).isEmpty then .moved else .unknown
  | endpoints =>
    match endpoints.lookup method with
    | some endpoint => .found endpoint
    | none => .wrongMethod

end Route

end SolidWorkshop.Web
