import SolidWorkshop.Failure
import SolidWorkshop.Library.Server
import SolidWorkshop.Text.Point

/-!
# Clients

The files of a library are fetched by a client that is not part of the service.  Given the text of
an address, the client refuses it, or it sends one request after another until it comes back with a
response or with an error.  What it does is a tree: behind every request stands what it does with
each answer.
-/

namespace SolidWorkshop.Library

/-- Why nothing was fetched. -/
inductive FetchError where
  /-- The exchange failed, or its status is no success. -/
  | exchange (reason : String)
  /-- The client does not take the address. -/
  | refused (failure : Failure)

/-- What a client comes back with. -/
structure Response where
  status : Int
  body : ByteArray
  /-- The client's words for the status when it is no success. -/
  complaint : String

/-- The body of a response, if its status is a success. -/
def Response.accepted (r : Response) : Except FetchError ByteArray :=
  if Int.fdiv r.status 100 = 2 then .ok r.body else .error (.exchange r.complaint)

/-- What a client does about an address. -/
inductive Exchange where
  | ended (result : Except FetchError Response)
  /-- It sends a request for an address and goes on from the answer. -/
  | request (address : String) (hear : Answer → Exchange)

/-- The requests of a fetch, and what it brought. -/
structure Fetched where
  requests : List String
  result : Except FetchError ByteArray

namespace Exchange

/-- What an exchange with a server comes to. -/
def fetched (server : Server) : Exchange → Fetched
  | .ended result => ⟨[], result.bind Response.accepted⟩
  | .request address hear =>
    let later := (hear (server.answer address)).fetched server
    ⟨address :: later.requests, later.result⟩

/-- After each request the exchange goes on only where its answer directs to another place. -/
def IsDirected : Exchange → Prop
  | .ended _ => True
  | .request _ hear => ∀ answer, (hear answer).IsDirected ∧
      (¬answer.Directs → ∃ result, hear answer = .ended result)

end Exchange

/-- A client. -/
structure Client where
  get : List Text.Point → Exchange

namespace Client

/-- Fetch what stands at an address. -/
def fetch (client : Client) (server : Server) (text : List Text.Point) : Fetched :=
  (client.get text).fetched server

/-- A point that no address holds: a half of a surrogate pair, or a control character of ASCII. -/
def isForeign : Text.Point → Bool
  | .char c => c.toNat < 0x20 || c.toNat = 0x7f
  | .half _ => true

/-- What is known of a client from its documentation. -/
structure IsRegular (client : Client) : Prop where
  /-- An address that is not refused is requested. -/
  requests : ∀ text result, client.get text = .ended result →
    ∃ failure, result = .error (.refused failure)
  /-- Requests follow each other only by direction. -/
  directed : ∀ text, (client.get text).IsDirected
  /-- An address that holds a foreign point is refused. -/
  refuses : ∀ text p, p ∈ text → isForeign p = true →
    ∃ failure, client.get text = .ended (.error (.refused failure))

end Client

end SolidWorkshop.Library
