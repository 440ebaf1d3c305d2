import Blocklist.Fetch.Body
-- The client that fetches lists: what it asks with, and what it keeps of a reply.
namespace Blocklist.Fetch

-- What may stand in a header: no control characters but tabs
def isHeaderByte (byte : UInt8) : Bool :=
  (0x20 ≤ byte && byte != 0x7F) || byte == 0x09

def isHeaderText (text : String) : Bool :=
  (Text.encode text.toList).all isHeaderByte

structure Client where
  -- the name by which it asks
  agent : String
  agent_fits : isHeaderText agent = true
  -- in milliseconds
  timeout : Nat
  -- bytes of a body that are kept
  maxBody : Nat

-- The reply in which a request ends
structure Reply where
  status : Status
  -- the body as it comes, unpacked
  chunks : List (List UInt8)
  ending : Ending

namespace Client

-- Seconds that a fetch may take, unless told otherwise
def standardTimeout : Nat := 12

def standardAgent : String := "shieldgen/0.1.0"

def standardMaxBody : Nat := 2097152

def create (agent : String) (timeout maxBody : Nat) : Except FetchError Client :=
  if h : isHeaderText agent = true then .ok ⟨agent, h, timeout, maxBody⟩
  else .error .invalidHeader

-- What is kept of a reply
def receive (c : Client) (r : Reply) : Except FetchError Body :=
  if r.status.isSuccess then Body.read c.maxBody r.chunks r.ending
  else .error (.rejected r.status)

-- What is said of a body of which not all is kept
def cutRemark (c : Client) (url : String) : String :=
  "Truncated body of " ++ url ++ " at " ++ toString c.maxBody ++ " bytes"

end Client

end Blocklist.Fetch
