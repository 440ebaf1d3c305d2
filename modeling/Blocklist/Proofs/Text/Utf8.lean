import Blocklist.Text.Utf8
-- Text that has been encoded as UTF-8 is decoded as it was.
namespace Blocklist.Text

-- The code of a character is one byte of ASCII, or has none
theorem encodeChar_cases (c : Char) :
    (c.toNat < 0x80 ∧ String.utf8EncodeChar c = [UInt8.ofNat c.toNat]) ∨
      ∀ byte ∈ String.utf8EncodeChar c, 0x80 ≤ byte.toNat := by
  have hvalid : c.toNat.isValidChar := c.valid
  have hbyte : ∀ n, 0x80 ≤ n → n < 256 → 0x80 ≤ (UInt8.ofNat n).toNat := fun n hleast hn => by
    rwa [UInt8.toNat_ofNat', Nat.mod_eq_of_lt hn]
  unfold String.utf8EncodeChar
  simp only [Char.toNat_val]
  split
  · exact .inl ⟨by omega, rfl⟩
  · right
    split
    · simp only [List.mem_cons, List.not_mem_nil, or_false, forall_eq_or_imp, forall_eq]
      exact ⟨hbyte _ (by omega) (by omega), hbyte _ (by omega) (by omega)⟩
    · split
      · simp only [List.mem_cons, List.not_mem_nil, or_false, forall_eq_or_imp, forall_eq]
        exact ⟨hbyte _ (by omega) (by omega), hbyte _ (by omega) (by omega),
          hbyte _ (by omega) (by omega)⟩
      · simp only [List.mem_cons, List.not_mem_nil, or_false, forall_eq_or_imp, forall_eq]
        exact ⟨hbyte _ (by omega) (by omega), hbyte _ (by omega) (by omega),
          hbyte _ (by omega) (by omega), hbyte _ (by omega) (by omega)⟩

theorem encode_append (text more : List Char) :
    encode (text ++ more) = encode text ++ encode more :=
  List.flatMap_append

theorem encode_cons (c : Char) (text : List Char) :
    encode (c :: text) = String.utf8EncodeChar c ++ encode text :=
  List.flatMap_cons

theorem encode_singleton (c : Char) : encode [c] = String.utf8EncodeChar c :=
  List.flatMap_singleton _ _

namespace Decoder

variable {d : Decoder} {b : Nat}

theorem lead_one (h : b < 0x80) : d.lead b = d.push (Char.ofNat b) := by
  simp [lead, h]

theorem lead_two (h : 0xC2 ≤ b) (h' : b < 0xE0) : d.lead b = d.await 1 0x80 0xBF (b - 0xC0) := by
  unfold lead
  rw [if_neg (by omega), if_neg (by omega), if_pos h']

theorem lead_three (h : 0xE0 ≤ b) (h' : b < 0xF0) :
    d.lead b =
      d.await 2 (if b = 0xE0 then 0xA0 else 0x80) (if b = 0xED then 0x9F else 0xBF) (b - 0xE0) := by
  unfold lead
  rw [if_neg (by omega), if_neg (by omega), if_neg (by omega), if_pos h']

theorem lead_four (h : 0xF0 ≤ b) (h' : b < 0xF5) :
    d.lead b =
      d.await 3 (if b = 0xF0 then 0x90 else 0x80) (if b = 0xF4 then 0x8F else 0xBF) (b - 0xF0) := by
  unfold lead
  rw [if_neg (by omega), if_neg (by omega), if_neg (by omega), if_neg (by omega), if_pos h']

theorem step_none (h : d.pending = none) (byte : UInt8) : d.step byte = d.lead byte.toNat := by
  simp [step, h]

-- A byte within the bounds goes on with a character, and may be its last
theorem step_await {owed low high code : Nat} {byte : UInt8} (h : low ≤ byte.toNat)
    (h' : byte.toNat ≤ high) :
    (d.await owed low high code).step byte =
      if owed ≤ 1 then d.push (Char.ofNat (code * 0x40 + (byte.toNat - 0x80)))
      else d.await (owed - 1) 0x80 0xBF (code * 0x40 + (byte.toNat - 0x80)) := by
  simp only [step, await, h, h', decide_true, Bool.and_self, ite_true]
  rfl

theorem foldl_step_encodeChar (h : d.pending = none) (c : Char) :
    (String.utf8EncodeChar c).foldl step d = d.push c := by
  have hvalid : c.toNat.isValidChar := c.valid
  have hchar : ∀ n, n = c.toNat → Char.ofNat n = c := fun n hn => hn ▸ Char.ofNat_toNat c
  have hbyte : ∀ n < 256, (UInt8.ofNat n).toNat = n := fun n hn =>
    (UInt8.toNat_ofNat').trans (Nat.mod_eq_of_lt hn)
  unfold String.utf8EncodeChar
  simp only [Char.toNat_val]
  split
  · have h0 := hbyte c.toNat (by omega)
    rw [List.foldl_cons, List.foldl_nil, step_none h, h0, lead_one (by omega), hchar _ rfl]
  · split
    · have h0 := hbyte (c.toNat / 64 % 32 + 192) (by omega)
      have h1 := hbyte (c.toNat % 64 + 128) (by omega)
      simp only [List.foldl_cons, List.foldl_nil]
      rw [step_none h, h0, lead_two (by omega) (by omega), step_await (by omega) (by omega), h1,
        if_pos (by omega), hchar _ (by omega)]
    · split
      · have h0 := hbyte (c.toNat / 4096 % 16 + 224) (by omega)
        have h1 := hbyte (c.toNat / 64 % 64 + 128) (by omega)
        have h2 := hbyte (c.toNat % 64 + 128) (by omega)
        simp only [List.foldl_cons, List.foldl_nil]
        rw [step_none h, h0, lead_three (by omega) (by omega),
          step_await (by split <;> omega) (by split <;> omega), h1, if_neg (by omega),
          step_await (by omega) (by omega), h2, if_pos (by omega), hchar _ (by omega)]
      · have h0 := hbyte (c.toNat / 262144 % 8 + 240) (by omega)
        have h1 := hbyte (c.toNat / 4096 % 64 + 128) (by omega)
        have h2 := hbyte (c.toNat / 64 % 64 + 128) (by omega)
        have h3 := hbyte (c.toNat % 64 + 128) (by omega)
        simp only [List.foldl_cons, List.foldl_nil]
        rw [step_none h, h0, lead_four (by omega) (by omega),
          step_await (by split <;> omega) (by split <;> omega), h1, if_neg (by omega),
          step_await (by omega) (by omega), h2, if_neg (by omega),
          step_await (by omega) (by omega), h3, if_pos (by omega), hchar _ (by omega)]

theorem foldl_step_encode (h : d.pending = none) (text : List Char) :
    (encode text).foldl step d = ⟨none, text.reverse ++ d.chars, d.replaced⟩ := by
  induction text generalizing d with
  | nil => rw [← h]; rfl
  | cons c text ih =>
      rw [encode, List.flatMap_cons, List.foldl_append, foldl_step_encodeChar h, ← encode,
        ih rfl]
      simp [push]

end Decoder

theorem decodeBytes_encode (text : List Char) :
    decodeBytes (encode text) = ⟨none, text.reverse, false⟩ := by
  rw [decodeBytes, Decoder.foldl_step_encode rfl]
  simp [Decoder.start, Decoder.finish]

theorem decodeLossy_encode (text : List Char) : decodeLossy (encode text) = text := by
  rw [decodeLossy, decodeBytes_encode, List.reverse_reverse]

theorem decode?_encode (text : List Char) : decode? (encode text) = some text := by
  simp [decode?, decodeBytes_encode]

end Blocklist.Text
