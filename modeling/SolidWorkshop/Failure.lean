import SolidWorkshop.Intake.Issue

/-!
# Failures

Every way in which a request can fail, each with its cause.  The words of a failure, the area
it belongs to and the status it is answered with are read off the cause.

A right-hand side that is no literal, an abnormal exit of the engine and a library file that
cannot be downloaded are not failures.
-/

namespace SolidWorkshop

/-- The area a failure belongs to.  The first seven are the areas of the service itself. -/
inductive Area where
  | service
  | parameter
  | descriptor
  | engine
  | library
  | artifact
  | channel
  | value
  | key
  | index
  | overflow
  | runtime
  | timeout
  | fileExists
  | isDirectory
  | notDirectory
  | system
  | permission
  | encoding
  | url
  | intake
  | cancelled
  deriving DecidableEq

/-- The status that answers a failure of one of the service's own areas. -/
def Area.status? : Area → Option Nat
  | .service => some 500
  | .parameter => some 400
  | .descriptor => some 409
  | .engine => some 503
  | .library => some 502
  | .artifact => some 422
  | .channel => some 500
  | _ => none

/-- A failure and its cause. -/
inductive Failure where
  /-- An integer token is longer than the reader takes. -/
  | tooManyDigits (count : Nat)
  /-- An integer is longer than the printer takes. -/
  | tooLongToPrint
  /-- An infinite or undefined number has no literal. -/
  | notFinite (x : Binary64)
  /-- An integer is out of the range of doubles. -/
  | integerTooLarge
  /-- A quotient of integers is out of the range of doubles. -/
  | quotientTooLarge
  | expectedBool (raw : Value)
  | expectedText (raw : Value)
  | expectedNumber (raw : Value)
  | expectedFinite (raw : Value)
  | unknownParameters (names : List String)
  /-- The value edited for a parameter is refused. -/
  | forParameter (name : String) (cause : Failure)
  /-- The line a descriptor was taken from has changed. -/
  | stale (name : String) (line : Int)
  | engineMissing (path : String)
  | engineNotStarted (path reason : String)
  | engineSilent (path : String) (seconds : Number)
  | engineStatus (path : String) (status : Int)
  | listingUnavailable (library reason : String)
  | listingMalformed (library : String)
  | artifactMissing
  | workerStopped
  /-- A compile reports a failure in words of its own. -/
  | reported (area : Area) (message : String)
  | outsideWorkspace (path : String)
  /-- A name with a zero character in it. -/
  | zeroInPath
  /-- A name that is longer than a file's may be. -/
  | nameTooLong (path : String)
  | pathExists
  | pathIsDirectory
  | pathNotDirectory
  /-- What stands at a place may not be read. -/
  | accessDenied (reason : String)
  /-- A directory for a compile cannot be made. -/
  | workspaceRefused (reason : String)
  /-- The engine process cannot be started. -/
  | spawnFailed (reason : String)
  /-- An argument for the engine holds a zero character. -/
  | zeroInArgument
  /-- A line of engine output exceeds the limit; whether its end was seen. -/
  | lineTooLong (ended : Bool)
  | urlRefused (reason : String)
  /-- A half of a surrogate pair is to be encoded. -/
  | unencodable (unit : Nat)
  | templateName (name : String)
  | templatePosition (position : Nat)
  | templateMalformed (reason : String)
  | templateAttribute (name : String)
  /-- A letter of a value is asked for by something that is no number. -/
  | templateLetter
  /-- A value that is no number is compared with one. -/
  | notComparable (v : Value)
  | notAnObject
  | unreadable (reason : String)
  | queueFull
  | duplicateJob (id : String)
  | unknownJob (id : String)
  | jobRunning
  | jobUnfinished (id : String) (seconds : Number)
  | notHolding (call : Nat)
  | outOfRange
  | invalid (model : String) (issues : List Intake.Issue)
  | unknownLevel (name : String)
  | cancelled

namespace Failure

/-- The area of a failure. -/
def area : Failure → Area
  | .tooManyDigits _ | .tooLongToPrint | .notFinite _ => .value
  | .integerTooLarge | .quotientTooLarge => .overflow
  | .expectedBool _ | .expectedText _ | .expectedNumber _ | .expectedFinite _ => .parameter
  | .unknownParameters _ | .forParameter .. => .parameter
  | .stale .. => .descriptor
  | .engineMissing _ | .engineNotStarted .. | .engineSilent .. | .engineStatus .. => .engine
  | .listingUnavailable .. | .listingMalformed _ => .library
  | .artifactMissing => .artifact
  | .workerStopped => .channel
  | .reported area _ => area
  | .outsideWorkspace _ | .zeroInPath => .value
  | .pathExists => .fileExists
  | .pathIsDirectory => .isDirectory
  | .pathNotDirectory => .notDirectory
  | .workspaceRefused _ | .spawnFailed _ | .nameTooLong _ => .system
  | .accessDenied _ => .permission
  | .zeroInArgument | .lineTooLong _ => .value
  | .urlRefused _ => .url
  | .unencodable _ => .encoding
  | .templateName _ => .key
  | .templatePosition _ => .index
  | .templateMalformed _ => .value
  | .templateAttribute _ | .templateLetter | .notComparable _ => .value
  | .notAnObject | .unreadable _ => .value
  | .queueFull | .duplicateJob _ | .jobRunning => .runtime
  | .unknownJob _ | .notHolding _ => .key
  | .jobUnfinished .. => .timeout
  | .outOfRange => .index
  | .invalid .. => .intake
  | .unknownLevel _ => .value
  | .cancelled => .cancelled

/-- The status that answers a failure of the service's own areas. -/
def status? (failure : Failure) : Option Nat :=
  failure.area.status?

/-- The words of a failure. -/
def message : Failure → String
  | .tooManyDigits count =>
    "Exceeds the limit (4300 digits) for integer string conversion: value has "
      ++ toString count ++ " digits; use sys.set_int_max_str_digits() to increase the limit"
  | .tooLongToPrint =>
    "Exceeds the limit (4300 digits) for integer string conversion; "
      ++ "use sys.set_int_max_str_digits() to increase the limit"
  | .notFinite x => "Cannot serialize non-finite number: " ++ x.text
  | .integerTooLarge => "int too large to convert to float"
  | .quotientTooLarge => "integer division result too large for a float"
  | .expectedBool raw => "Expected a boolean, got " ++ raw.quoted
  | .expectedText raw => "Expected a string, got " ++ raw.quoted
  | .expectedNumber raw => "Expected a number, got " ++ raw.quoted
  | .expectedFinite raw => "Expected a finite number, got " ++ raw.quoted
  | .unknownParameters names => "Unknown parameter(s): " ++ ", ".intercalate names
  | .forParameter name cause => name ++ ": " ++ cause.message
  | .stale name line =>
    s!"Parameter '{name}' no longer matches line " ++ toString (line + 1) ++ " of the source"
  | .engineMissing path => "OpenSCAD executable not found or not executable: " ++ path
  | .engineNotStarted path reason => s!"Cannot start {path}: {reason}"
  | .engineSilent path seconds =>
    s!"{path} --version did not answer within " ++ seconds.text ++ "s"
  | .engineStatus path status => s!"{path} --version exited with status " ++ toString status
  | .listingUnavailable library reason => s!"Could not list {library} files: {reason}"
  | .listingMalformed library => s!"Unexpected listing format for {library}"
  | .artifactMissing => "Output STL was not generated. Check your .scad code."
  | .workerStopped => "Compile worker stopped without a result"
  | .reported .key message => Text.quoted message
  | .reported _ message => message
  | .outsideWorkspace path =>
    "Refusing to stage outside the workspace: " ++ Text.quoted path
  | .zeroInPath | .zeroInArgument => "embedded null byte"
  | .nameTooLong path => "[Errno 36] File name too long: " ++ Text.quoted path
  | .pathExists | .pathIsDirectory | .pathNotDirectory => ""
  | .accessDenied reason => reason
  | .workspaceRefused reason => reason
  | .spawnFailed reason => reason
  | .lineTooLong ended =>
    if ended then "Separator is found, but chunk is longer than limit"
    else "Separator is not found, and chunk exceed the limit"
  | .urlRefused reason => reason
  | .unencodable unit =>
    "'utf-8' codec can't encode character '\\u" ++ String.ofList (Text.hex 4 unit)
      ++ "' in position 0: surrogates not allowed"
  | .templateName name => Text.quoted name
  | .templatePosition position =>
    "Replacement index " ++ toString position ++ " out of range for positional args tuple"
  | .templateMalformed reason => reason
  | .templateAttribute name => s!"'str' object has no attribute '{name}'"
  | .templateLetter => "string indices must be integers, not 'str'"
  | .notComparable v =>
    s!"'<' not supported between instances of '{v.kindName}' and 'int'"
  | .notAnObject => "Request body must be a JSON object"
  | .unreadable reason => reason
  | .queueFull => "Job queue is full, retry later"
  | .duplicateJob id => "Duplicate job_id: " ++ id
  | .unknownJob id => Text.quoted ("Job not found: " ++ id)
  | .jobRunning => "Running compiles cannot be cancelled"
  | .jobUnfinished id seconds => s!"Job '{id}' did not finish within " ++ seconds.text ++ "s"
  | .notHolding call => toString call
  | .outOfRange => "list index out of range"
  | .invalid model issues => Intake.report none model issues
  | .unknownLevel name => "Unknown level: " ++ Text.quoted name
  | .cancelled => ""

/-- Two steps succeed together when the first succeeds, and the second with what it led to. -/
theorem bind_eq_ok_iff {α β : Type} {x : Except Failure α} {f : α → Except Failure β} {b : β} :
    x >>= f = .ok b ↔ ∃ a, x = .ok a ∧ f a = .ok b := by
  cases x with
  | error failure => simp [bind, Except.bind]
  | ok a => simp [bind, Except.bind]

/-- A success is known by its value. -/
theorem eq_ok_of_toOption {α : Type} {x : Except Failure α} {a : α} (h : x.toOption = some a) :
    x = .ok a := by
  cases x with
  | error failure => simp [Except.toOption] at h
  | ok b => simpa [Except.toOption] using h

end Failure

end SolidWorkshop
