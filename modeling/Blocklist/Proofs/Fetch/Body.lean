import Blocklist.Fetch.Body
import Mathlib.Data.List.Basic
-- What is kept of a body does not depend on how it comes in chunks: as many of its first
-- bytes as the cap allows.
namespace Blocklist.Fetch

-- What reading a body comes to when its chunks have ended
def Ending.give (ending : Ending) (bytes : List UInt8) : Except FetchError Body :=
  match ending with
  | .complete => .ok ⟨bytes, false⟩
  | .failed t => .error (.ofBody t)

variable {cap : Nat}

-- All of a chunk is kept that leaves room
theorem Kept.bytes_add_of_lt {k : Kept cap} {chunk : List UInt8} (h : chunk.length < k.room) :
    (k.add chunk).bytes = k.bytes ++ chunk := by
  simp only [Kept.add]
  rw [List.take_of_length_le (Nat.le_of_lt h)]

namespace Body

-- Reading stops as soon as there are enough bytes, and then it does not matter how the
-- body would have ended
theorem readOn_eq (k : Kept cap) (chunks : List (List UInt8)) (ending : Ending) :
    readOn k ending chunks =
      if chunks ≠ [] ∧ cap ≤ k.bytes.length + chunks.flatten.length then
        .ok ⟨(k.bytes ++ chunks.flatten).take cap, true⟩
      else ending.give (k.bytes ++ chunks.flatten) := by
  induction chunks generalizing k with
  | nil => cases ending <;> simp [readOn, Ending.give]
  | cons chunk rest ih =>
      have hroom := k.length_add_room
      simp only [readOn, List.flatten_cons, List.length_append]
      by_cases henough : k.room ≤ chunk.length
      · have htake : (k.bytes ++ (chunk ++ rest.flatten)).take cap =
            k.bytes ++ chunk.take k.room := by
          rw [List.take_append, List.take_of_length_le k.fits, ← Kept.room,
            List.take_append_of_le_length henough]
        rw [if_pos henough, if_pos ⟨List.cons_ne_nil _ _, by omega⟩, htake]
        rfl
      · rw [if_neg henough, ih, Kept.bytes_add_of_lt (Nat.lt_of_not_le henough)]
        cases rest with
        | nil =>
            have hless : ¬ cap ≤ k.bytes.length + chunk.length := by omega
            simp [hless]
        | cons next rest => simp [Nat.add_assoc]

theorem read_eq (cap : Nat) (chunks : List (List UInt8)) (ending : Ending) :
    read cap chunks ending =
      if chunks ≠ [] ∧ cap ≤ chunks.flatten.length then .ok ⟨chunks.flatten.take cap, true⟩
      else ending.give chunks.flatten := by
  rw [read, readOn_eq]
  simp [Kept.empty]

-- Nothing is cut off as long as the cap is not reached
theorem take_of_not_enough {chunks : List (List UInt8)}
    (h : ¬ (chunks ≠ [] ∧ cap ≤ chunks.flatten.length)) :
    chunks.flatten.take cap = chunks.flatten := by
  by_cases hnone : chunks = []
  · rw [hnone, List.flatten_nil, List.take_nil]
  · have := not_and.mp h hnone
    exact List.take_of_length_le (by omega)

end Body

end Blocklist.Fetch
