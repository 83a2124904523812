/-!
# The library server

What a request for an address is answered with.  The server is a table of addresses; with it the
answer to a request is a function of its address.
-/

namespace SolidWorkshop.Library

/-- What a request is answered with. -/
inductive Answer where
  /-- A status, the place the answer directs to, and a body. -/
  | reply (status : Int) (location : Option String) (body : ByteArray)
  /-- The exchange broke off. -/
  | broken (reason : String)

/-- A server: the answers by address, and the one for all other addresses. -/
structure Server where
  routes : List (String × Answer)

namespace Server

/-- The mark in the place of an address that stands for all others. -/
def anywhere : String := "*"

/-- What is found at an address that the server does not know. -/
def notFound : Answer :=
  .reply 404 none ByteArray.empty

/-- The answer to a request for an address. -/
def answer (s : Server) (address : String) : Answer :=
  (s.routes.lookup address).getD ((s.routes.lookup anywhere).getD notFound)

/-- The server with further routes; a known address gets its new answer. -/
def extend (s : Server) (routes : List (String × Answer)) : Server :=
  ⟨routes ++ s.routes.filter fun route => (routes.lookup route.1).isNone⟩

end Server

/-- The statuses that direct to another place. -/
def directing : List Int :=
  [301, 302, 303, 307, 308]

/-- The answer directs to another place. -/
def Answer.Directs (answer : Answer) : Prop :=
  ∃ status location body, answer = .reply status (some location) body ∧ status ∈ directing

end SolidWorkshop.Library
