import Blocklist.Fetch.Client
-- The network as a fetch sees it. How a request is sent for an address, which redirections it
-- follows and how a body is unpacked is not the business of this program, so that a network
-- says at once what all of that comes to.
namespace Blocklist.Fetch

-- What a request ends in
inductive Reaction where
  -- no reply has come
  | failed (t : Trouble)
  | reply (r : Reply)

structure Exchange where
  -- milliseconds from the request until as much has come as is read
  took : Nat
  reaction : Reaction

-- What comes of a request of a client for an address
abbrev Network : Type := Client → String → Exchange

-- The network in which nothing can be reached
def Network.unreachable : Network := fun _ _ => ⟨0, .failed ⟨false, "no connection"⟩⟩

-- What came of a fetch
structure Fetched where
  took : Nat
  body : Except FetchError Body

namespace Client

-- What is kept of a reaction
def accept (c : Client) : Reaction → Except FetchError Body
  | .failed t => .error (.ofRequest t)
  | .reply r => c.receive r

def fetch (c : Client) (network : Network) (url : String) : Fetched :=
  ⟨(network c url).took, c.accept (network c url).reaction⟩

end Client

namespace Fetched

def text (f : Fetched) : Except FetchError String := f.body.map Body.text

def truncated (f : Fetched) : Bool :=
  match f.body with
  | .ok body => body.truncated
  | .error _ => false

end Fetched

end Blocklist.Fetch
