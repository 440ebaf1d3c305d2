import Blocklist.Fetch.Error
import Blocklist.Text.Utf8
-- Reading of a body that comes in chunks. Only so many bytes are kept, and reading stops
-- as soon as there are as many.
namespace Blocklist.Fetch

-- How the chunks of a body end
inductive Ending where
  | complete
  | failed (t : Trouble)

-- What has been kept of a body
structure Kept (cap : Nat) where
  bytes : List UInt8
  fits : bytes.length ≤ cap

namespace Kept

variable {cap : Nat}

def empty : Kept cap := ⟨[], Nat.zero_le cap⟩

-- Number of bytes that may still be kept
def room (k : Kept cap) : Nat := cap - k.bytes.length

theorem length_add_room (k : Kept cap) : k.bytes.length + k.room = cap :=
  Nat.add_sub_cancel' k.fits

-- Keep as much of a chunk as there is room for
def add (k : Kept cap) (chunk : List UInt8) : Kept cap where
  bytes := k.bytes ++ chunk.take k.room
  fits := by
    have h := k.length_add_room
    simp only [List.length_append, List.length_take]
    omega

end Kept

-- Bytes of a body and whether reading stopped because there were enough
structure Body where
  bytes : List UInt8
  truncated : Bool
  deriving DecidableEq

namespace Body

def text (b : Body) : String :=
  String.ofList (Text.decodeLossy b.bytes)

-- Read on after what has been kept
def readOn {cap : Nat} (k : Kept cap) (ending : Ending) :
    List (List UInt8) → Except FetchError Body
  | [] =>
    match ending with
    | .complete => .ok ⟨k.bytes, false⟩
    | .failed t => .error (.ofBody t)
  | chunk :: rest =>
    if k.room ≤ chunk.length then .ok ⟨(k.add chunk).bytes, true⟩
    else readOn (k.add chunk) ending rest

-- Read a body of which at most `cap` bytes are kept
def read (cap : Nat) (chunks : List (List UInt8)) (ending : Ending) : Except FetchError Body :=
  readOn (Kept.empty : Kept cap) ending chunks

end Body

end Blocklist.Fetch
