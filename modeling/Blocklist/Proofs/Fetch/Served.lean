import Blocklist.Fetch.Network
import Blocklist.Proofs.Fetch.Body
-- What a network serves for a list, without the steps that a client takes to get it.
namespace Blocklist.Fetch

-- The first bytes of the body of a reply, no more than `cap`. There are none if the body
-- breaks off before there are as many.
def Reply.capped? (cap : Nat) (r : Reply) : Option (List UInt8) :=
  match r.ending with
  | .complete => some (r.chunks.flatten.take cap)
  | .failed _ =>
    if r.chunks ≠ [] ∧ cap ≤ r.chunks.flatten.length then some (r.chunks.flatten.take cap)
    else none

-- The text that a network serves a client for an address: of the body of a reply that reports
-- success, up to the cap
def served? (network : Network) (c : Client) (cap : Nat) (url : String) : Option String :=
  match (network c url).reaction with
  | .failed _ => none
  | .reply r =>
    if r.status.isSuccess then
      (r.capped? cap).map fun bytes => String.ofList (Text.decodeLossy bytes)
    else none

variable {c : Client} {network : Network}

theorem read_toOption (cap : Nat) (r : Reply) :
    (Body.read cap r.chunks r.ending).toOption.map Body.bytes = r.capped? cap := by
  rw [Body.read_eq]
  unfold Reply.capped?
  by_cases henough : r.chunks ≠ [] ∧ cap ≤ r.chunks.flatten.length
  · rw [if_pos henough]
    cases r.ending with
    | complete => rfl
    | failed t => exact (if_pos henough).symm
  · rw [if_neg henough]
    cases r.ending with
    | complete => exact congrArg some (Body.take_of_not_enough henough).symm
    | failed t => exact (if_neg henough).symm

theorem receive_toOption (r : Reply) :
    ((c.receive r).map Body.text).toOption =
      if r.status.isSuccess then
        (r.capped? c.maxBody).map fun bytes => String.ofList (Text.decodeLossy bytes)
      else none := by
  unfold Client.receive
  split
  case isFalse => rfl
  case isTrue hsuccess =>
    rw [← read_toOption]
    cases Body.read c.maxBody r.chunks r.ending <;> rfl

-- A fetch gives the text that the network serves, or fails
theorem fetch_toOption (c : Client) (network : Network) (url : String) :
    (c.fetch network url).text.toOption = served? network c c.maxBody url := by
  unfold served? Fetched.text Client.fetch
  cases (network c url).reaction with
  | failed t => rfl
  | reply r => exact receive_toOption r

-- A client with a cap of its own

theorem isHeaderText_standardAgent : isHeaderText Client.standardAgent = true := by decide

def Client.keeping (maxBody : Nat) : Client :=
  ⟨Client.standardAgent, isHeaderText_standardAgent, 12000, maxBody⟩

-- A reply that reports success

theorem three_digits : 100 ≤ 200 ∧ 200 ≤ 999 := by decide

def Reply.success (chunks : List (List UInt8)) (ending : Ending) : Reply :=
  ⟨⟨200, three_digits⟩, chunks, ending⟩

end Blocklist.Fetch
