import SolidWorkshop.Proofs.Library.Files

/-!
# The download of one file

A file is downloaded by requests of its own, one after another: an address is requested, and with
its answer the client goes on to the next one or comes to an end.  What happens to a download, one
thing at a time, is what a fetch does at once.
-/

namespace SolidWorkshop.Library

/-- How far the download of a file has come. -/
inductive Transfer where
  /-- What the client does next. -/
  | ready (x : Exchange)
  /-- A request for an address is outstanding. -/
  | asked (address : String) (hear : Answer → Exchange)

namespace Transfer

/-- The download of a file before its first request. -/
def ofPath (c : Config) (client : Client) (path : Path) : Transfer :=
  match c.address path with
  | .error failure => .ready (.ended (.error (.refused failure)))
  | .ok address => .ready (client.get address)

/-- The request is outstanding. -/
def isAsked : Transfer → Bool
  | .asked .. => true
  | .ready _ => false

/-- What the download has brought, once it is over. -/
def result? : Transfer → Option (Except FetchError ByteArray)
  | .ready (.ended result) => some (result.bind Response.accepted)
  | _ => none

end Transfer

/-- A request is sent, or its answer has come, for an entry of the list of files. -/
inductive Event where
  | sent (entry : Nat) (address : String)
  | answered (entry : Nat) (address : String)
  deriving DecidableEq

namespace Event

/-- The entry whose file the request is about. -/
def entry : Event → Nat
  | .sent entry _ => entry
  | .answered entry _ => entry

/-- The request is sent. -/
def isSent : Event → Bool
  | .sent .. => true
  | .answered .. => false

/-- The address that is requested. -/
def request? : Event → Option String
  | .sent _ address => some address
  | .answered .. => none

end Event

/-- Requests that are answered one after another. -/
def roundTrips (entry : Nat) (addresses : List String) : List Event :=
  addresses.flatMap fun address => [.sent entry address, .answered entry address]

theorem filterMap_roundTrips (entry : Nat) (addresses : List String) :
    (roundTrips entry addresses).filterMap Event.request? = addresses := by
  induction addresses with
  | nil => rfl
  | cons address addresses ih => exact congrArg (address :: ·) ih

namespace Transfer

variable (server : Server)

/-- The requests that are still to be sent, and what they bring. -/
def rest : Transfer → Fetched
  | .ready x => x.fetched server
  | .asked address hear => (hear (server.answer address)).fetched server

/-- What is still to happen for an entry. -/
def toCome (entry : Nat) (tr : Transfer) : List Event :=
  match tr with
  | .asked address _ => .answered entry address :: roundTrips entry (tr.rest server).requests
  | .ready _ => roundTrips entry (tr.rest server).requests

/-- One thing that happens to a download. -/
inductive Moves (entry : Nat) : Transfer → Event → Transfer → Prop
  | send (address : String) (hear : Answer → Exchange) :
    Moves entry (.ready (.request address hear)) (.sent entry address) (.asked address hear)
  | receive (address : String) (hear : Answer → Exchange) :
    Moves entry (.asked address hear) (.answered entry address)
      (.ready (hear (server.answer address)))

variable {server : Server} {entry : Nat} {tr next : Transfer} {e : Event}

theorem Moves.entry_eq
    (h : Moves server entry tr e next) :
    e.entry = entry := by
  cases h with
  | send => rfl
  | receive => rfl

/-- What happens is the first of what was still to happen. -/
theorem Moves.toCome_eq
    (h : Moves server entry tr e next) :
    tr.toCome server entry = e :: next.toCome server entry := by
  cases h with
  | send => rfl
  | receive => rfl

theorem Moves.result_eq
    (h : Moves server entry tr e next) :
    (next.rest server).result = (tr.rest server).result := by
  cases h with
  | send => rfl
  | receive => rfl

/-- With everything that happens less is still to happen. -/
theorem Moves.length_toCome
    (h : Moves server entry tr e next) (other : Nat) :
    (tr.toCome server other).length = (next.toCome server other).length + 1 := by
  obtain ⟨e', h'⟩ : ∃ e', Moves server other tr e' next := by
    cases h with
    | send address hear => exact ⟨_, .send address hear⟩
    | receive address hear => exact ⟨_, .receive address hear⟩
  rw [h'.toCome_eq, List.length_cons]

/-- A download that is not over can go on. -/
theorem exists_moves (server : Server) (entry : Nat) (h : tr.result? = none) :
    ∃ e next, Moves server entry tr e next := by
  cases tr with
  | asked address hear => exact ⟨_, _, .receive address hear⟩
  | ready x =>
    cases x with
    | ended result => contradiction
    | request address hear => exact ⟨_, _, .send address hear⟩

theorem isAsked_of_ended
    (h : tr.result?.isSome = true) :
    tr.isAsked = false := by
  cases tr with
  | ready x => rfl
  | asked address hear => contradiction

/-- A download that is over has brought what it was to bring. -/
theorem rest_of_result?
    {result : Except FetchError ByteArray} (h : tr.result? = some result) :
    tr.rest server = ⟨[], result⟩ := by
  cases tr with
  | asked address hear => contradiction
  | ready x =>
    cases x with
    | request address hear => contradiction
    | ended brought =>
      obtain rfl := Option.some.inj h
      rfl

theorem toCome_of_result?
    {result : Except FetchError ByteArray} (h : tr.result? = some result) (entry : Nat) :
    tr.toCome server entry = [] := by
  cases tr with
  | asked address hear => contradiction
  | ready x => rw [toCome, rest_of_result? h, roundTrips, List.flatMap_nil]

/-- The download of a file, from its first request on, is what its fetch is. -/
theorem rest_ofPath (c : Config) (client : Client) (path : Path) :
    ((ofPath c client path).rest server).requests = (download c client server path).1 ∧
      ((ofPath c client path).rest server).result.toOption = body? c client server path := by
  unfold ofPath body? download
  cases c.address path with
  | error failure => exact ⟨rfl, rfl⟩
  | ok address =>
    refine ⟨rfl, ?_⟩
    dsimp only [rest]
    change (client.fetch server address).result.toOption = _
    cases (client.fetch server address).result with
    | ok body => rfl
    | error cause =>
      cases cause with
      | exchange reason => rfl
      | refused failure => rfl

theorem ofPath_cases (c : Config) (client : Client) (path : Path) :
    ∃ x, ofPath c client path = .ready x := by
  unfold ofPath
  split
  · exact ⟨_, rfl⟩
  · exact ⟨_, rfl⟩

theorem toCome_ofPath (c : Config) (client : Client) (path : Path) (entry : Nat) :
    (ofPath c client path).toCome server entry =
      roundTrips entry (download c client server path).1 := by
  rw [← (rest_ofPath c client path).1]
  obtain ⟨x, h⟩ := ofPath_cases c client path
  rw [h]
  rfl

theorem isAsked_ofPath (c : Config) (client : Client) (path : Path) :
    (ofPath c client path).isAsked = false := by
  obtain ⟨x, h⟩ := ofPath_cases c client path
  rw [h]
  rfl

end Transfer

end SolidWorkshop.Library
