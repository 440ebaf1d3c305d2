import Blocklist.Proofs.Fetch.Capped
import Blocklist.Proofs.Text.Longest
-- Bodies that are text. A cap takes characters from their end, and changes none of the characters
-- before it.
namespace Blocklist.Fetch

open Text

-- Of a body that is text, a fetch gives the characters that fit under the cap, with one U+FFFD
-- behind them if the cap splits the next one
theorem capped_text_has_whole_characters (c : Client) (network : Network) (url : String)
    (r : Reply) (body : String) (hreply : (network c url).reaction = .reply r)
    (hsuccess : r.status.isSuccess = true) (hbody : r.chunks.flatten = encode body.toList) :
    (r.ending = .complete → ∃ text, (c.fetch network url).text = .ok text) ∧
    ∀ text, (c.fetch network url).text = .ok text →
      ∃ kept, LongestWithin c.maxBody body.toList kept ∧
        (SplitsCharacter c.maxBody body.toList → text.toList = kept ++ ['\uFFFD']) ∧
        (¬ SplitsCharacter c.maxBody body.toList → text.toList = kept) ∧
        (encode text.toList).length ≤ c.maxBody + 2 := by
  refine ⟨exists_text_of_complete hreply hsuccess, fun text htext => ?_⟩
  obtain rfl := eq_decodeLossy_of_fetch hreply hsuccess htext
  obtain ⟨kept, hkept⟩ := exists_longestWithin c.maxBody body.toList
  rw [hbody, String.toList_ofList]
  exact ⟨kept, hkept, hkept.decodeLossy_take.1, hkept.decodeLossy_take.2,
    hkept.length_decodeLossy_take_le⟩

-- A cap one byte short of the end of a character of four bytes, which come in two chunks
def smileBody : String := "é😀."

def smileReply : Reply := .success [[0xC3, 0xA9, 0xF0, 0x9F], [0x98, 0x80, 0x2E]] .complete

theorem splitsCharacter_smile : SplitsCharacter 5 smileBody.toList :=
  ⟨['é'], '😀', ['.'], by decide⟩

theorem capped_text_has_whole_characters_smile :
    ∃ text kept, ((Client.keeping 5).fetch (.replying smileReply) hostsUrl).text = .ok text ∧
      LongestWithin 5 smileBody.toList kept ∧ text.toList = kept ++ ['\uFFFD'] ∧
      (encode text.toList).length ≤ 7 := by
  obtain ⟨hcomes, htext⟩ := capped_text_has_whole_characters (.keeping 5)
    (.replying smileReply) hostsUrl smileReply smileBody rfl rfl (by decide)
  obtain ⟨text, hfetch⟩ := hcomes rfl
  obtain ⟨kept, hkept, hsplit, -, hlength⟩ := htext text hfetch
  exact ⟨text, kept, hfetch, hkept, hsplit splitsCharacter_smile, hlength⟩

end Blocklist.Fetch
