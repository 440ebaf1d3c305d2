import Blocklist.Proofs.Fetch.Served
import Mathlib.Algebra.Ring.Nat
-- Reading of a body with bytes that carry no bound. The room for more is a difference, and
-- nothing but the loop sees to it that this does not go below zero.
namespace Blocklist.Fetch

open Text

namespace Body

-- The room that is left, unless there are more bytes than may be kept
def room? (cap : Nat) (bytes : List UInt8) : Option Nat :=
  if bytes.length ≤ cap then some (cap - bytes.length) else none

-- The loop over chunks. There is no result if it crashes.
def readPlain? (cap : Nat) (ending : Ending) :
    List UInt8 → List (List UInt8) → Option (Except FetchError Body)
  | bytes, [] => some (ending.give bytes)
  | bytes, chunk :: rest => do
    let room ← room? cap bytes
    if room ≤ chunk.length then return .ok ⟨bytes ++ chunk.take room, true⟩
    else readPlain? cap ending (bytes ++ chunk) rest

theorem room?_kept {cap : Nat} (k : Kept cap) : room? cap k.bytes = some k.room :=
  if_pos k.fits

-- What has been kept never exceeds the cap, chunk after chunk
theorem readPlain?_kept {cap : Nat} (k : Kept cap) (chunks : List (List UInt8))
    (ending : Ending) : readPlain? cap ending k.bytes chunks = some (readOn k ending chunks) := by
  induction chunks generalizing k with
  | nil => cases ending <;> rfl
  | cons chunk rest ih =>
      simp only [readPlain?, room?_kept, Option.bind_eq_bind, Option.bind_some, readOn]
      by_cases henough : k.room ≤ chunk.length
      · rw [if_pos henough, if_pos henough]
        rfl
      · rw [if_neg henough, if_neg henough, ← ih,
          Kept.bytes_add_of_lt (Nat.lt_of_not_le henough)]

theorem readPlain?_eq (cap : Nat) (chunks : List (List UInt8)) (ending : Ending) :
    readPlain? cap ending [] chunks = some (read cap chunks ending) :=
  readPlain?_kept Kept.empty chunks ending

variable {cap : Nat} {chunks : List (List UInt8)} {ending : Ending}

theorem enough_iff : 1 ≤ chunks.length ∧ cap ≤ (chunks.map List.length).sum ↔
    chunks ≠ [] ∧ cap ≤ chunks.flatten.length := by
  rw [List.length_flatten, Nat.succ_le_iff, List.length_pos_iff]

theorem read_eq_error {e : FetchError} : read cap chunks ending = .error e ↔
    (∃ t, ending = .failed t ∧ e = .ofBody t) ∧
      ¬ (chunks ≠ [] ∧ cap ≤ chunks.flatten.length) := by
  rw [read_eq]
  by_cases henough : chunks ≠ [] ∧ cap ≤ chunks.flatten.length
  · rw [if_pos henough]
    exact iff_of_false nofun fun h => h.2 henough
  · rw [if_neg henough, and_iff_left henough]
    cases ending <;> simp [Ending.give, eq_comm]

theorem bytes_of_read {body : Body} (h : read cap chunks ending = .ok body) :
    body.bytes = chunks.flatten.take cap := by
  rw [read_eq] at h
  by_cases henough : chunks ≠ [] ∧ cap ≤ chunks.flatten.length
  · rw [if_pos henough] at h
    cases h
    rfl
  · rw [if_neg henough] at h
    cases ending with
    | failed t => cases h
    | complete =>
        cases h
        exact (take_of_not_enough henough).symm

-- With room for a byte, to read no chunk and to read empty ones is the same
theorem read_of_pos (hcap : 0 < cap) (chunks : List (List UInt8)) (ending : Ending) :
    read cap chunks ending =
      if cap ≤ chunks.flatten.length then .ok ⟨chunks.flatten.take cap, true⟩
      else ending.give chunks.flatten := by
  have hsome : cap ≤ chunks.flatten.length → chunks ≠ [] := by
    rintro hlength rfl
    exact absurd hlength (Nat.not_le.mpr hcap)
  simp only [read_eq, and_iff_right_of_imp hsome]

end Body

open Body

-- The body of a reply that reports success is read without a crash. What comes of it is the
-- text of its first bytes, or the failure in which the body ends before there are enough; how
-- the bytes are spread over chunks makes no difference.
theorem chunks_make_no_difference (c : Client) (r : Reply) (hsuccess : r.status.isSuccess = true) :
    readPlain? c.maxBody r.ending [] r.chunks = some (c.receive r) ∧
    (∀ body, c.receive r = .ok body →
      body.bytes.length ≤ c.maxBody ∧
      body.text = String.ofList
        (decodeLossy (r.chunks.flatten.take (min c.maxBody r.chunks.flatten.length)))) ∧
    (∀ e, c.receive r = .error e ↔ (∃ t, r.ending = .failed t ∧ e = .ofBody t) ∧
      ¬ (1 ≤ r.chunks.length ∧ c.maxBody ≤ (r.chunks.map List.length).sum)) ∧
    (0 < c.maxBody → ∀ other : Reply, other.status.isSuccess = true →
      other.chunks.flatten = r.chunks.flatten → other.ending = r.ending →
      c.receive other = c.receive r) := by
  have hreceive : ∀ reply : Reply, reply.status.isSuccess = true →
      c.receive reply = read c.maxBody reply.chunks reply.ending :=
    fun _ h => if_pos h
  rw [hreceive r hsuccess]
  refine ⟨readPlain?_eq _ _ _, fun body hbody => ?_, fun e => ?_, ?_⟩
  · have hbytes := bytes_of_read hbody
    refine ⟨?_, ?_⟩
    · rw [hbytes]
      exact List.length_take_le _ _
    · rw [Body.text, hbytes, ← List.take_eq_take_min]
  · rw [read_eq_error, enough_iff]
  · intro hcap other hother hflatten hending
    rw [hreceive other hother, read_of_pos hcap, read_of_pos hcap, hflatten, hending]

-- A body that breaks off with the byte at which the cap is reached, in the middle of a
-- character, and comes with an empty chunk or in one piece
def timeUp : Trouble := ⟨true, "operation timed out"⟩

def brokenReply (chunks : List (List UInt8)) : Reply := .success chunks (.failed timeUp)

def twoByteClient : Client := .keeping 2

theorem chunks_make_no_difference_broken :
    readPlain? 2 (.failed timeUp) [] [[0x61], [], [0xC3]] =
      some (twoByteClient.receive (brokenReply [[0x61], [], [0xC3]])) ∧
    (∀ body, twoByteClient.receive (brokenReply [[0x61], [], [0xC3]]) = .ok body →
      body.text = "a\uFFFD") ∧
    (∀ e, twoByteClient.receive (brokenReply [[0x61], [], [0xC3]]) ≠ .error e) ∧
    twoByteClient.receive (brokenReply [[0x61, 0xC3]]) =
      twoByteClient.receive (brokenReply [[0x61], [], [0xC3]]) := by
  obtain ⟨hplain, htext, herror, hsame⟩ :=
    chunks_make_no_difference twoByteClient (brokenReply [[0x61], [], [0xC3]]) rfl
  refine ⟨hplain, fun body hbody => (htext body hbody).2, fun e he => ?_, ?_⟩
  · exact ((herror e).mp he).2 ⟨by decide, by decide⟩
  · exact hsame (by decide) (brokenReply [[0x61, 0xC3]]) rfl rfl rfl

end Blocklist.Fetch
