import Blocklist.Proofs.Text.Decoder
import Mathlib.Data.List.Infix
-- Text that is cut after a number of bytes. What is left of it are the characters that fit, and
-- one U+FFFD if the cut is in the middle of the next one.
namespace Blocklist.Text

variable {cap : Nat} {text kept before : List Char} {c : Char}

theorem length_encode_le (h : kept <+: text) : (encode kept).length ≤ (encode text).length := by
  obtain ⟨more, rfl⟩ := h
  rw [encode_append, List.length_append]
  omega

-- The most characters from the start of a text whose code has no more than `cap` bytes
structure LongestWithin (cap : Nat) (text kept : List Char) : Prop where
  begins : kept <+: text
  fits : (encode kept).length ≤ cap
  longest : ∀ other, other <+: text → (encode other).length ≤ cap → other <+: kept

-- Some of the bytes of a character are among the first `cap`, and some are not
def SplitsCharacter (cap : Nat) (text : List Char) : Prop :=
  ∃ before c after, text = before ++ c :: after ∧
    (encode before).length < cap ∧ cap < (encode (before ++ [c])).length

-- A beginning is the longest that fits if the next character does not
theorem longestWithin_of_next (hfits : (encode kept).length ≤ cap) {rest : List Char}
    (hnext : ∀ c ∈ rest.head?, cap < (encode (kept ++ [c])).length) :
    LongestWithin cap (kept ++ rest) kept where
  begins := List.prefix_append _ _
  fits := hfits
  longest other hother hless := by
    rcases List.prefix_or_prefix_of_prefix hother (List.prefix_append kept rest) with h | h
    · exact h
    · obtain ⟨more, rfl⟩ := h
      cases more with
      | nil => rw [List.append_nil]
      | cons c more =>
          obtain ⟨after, rfl⟩ := (List.prefix_append_right_inj kept).mp hother
          have hbegins : kept ++ [c] <+: kept ++ c :: more := ⟨more, by simp⟩
          have hlength := length_encode_le hbegins
          have hbeyond := hnext c rfl
          omega

theorem exists_longestWithin (cap : Nat) (text : List Char) :
    ∃ kept, LongestWithin cap text kept := by
  suffices h : ∃ kept rest, text = kept ++ rest ∧ (encode kept).length ≤ cap ∧
      ∀ c ∈ rest.head?, cap < (encode (kept ++ [c])).length by
    obtain ⟨kept, rest, rfl, hfits, hnext⟩ := h
    exact ⟨kept, longestWithin_of_next hfits hnext⟩
  induction text generalizing cap with
  | nil => exact ⟨[], [], rfl, Nat.zero_le cap, nofun⟩
  | cons c text ih =>
      have hcons : ∀ text, (encode (c :: text)).length =
          (encode [c]).length + (encode text).length := fun text => by
        rw [encode_cons, encode_singleton, List.length_append]
      by_cases hfits : (encode [c]).length ≤ cap
      · obtain ⟨kept, rest, rfl, hkept, hnext⟩ := ih (cap - (encode [c]).length)
        refine ⟨c :: kept, rest, rfl, ?_, fun d hd => ?_⟩
        · rw [hcons]
          omega
        · have hbeyond := hnext d hd
          rw [List.cons_append, hcons]
          omega
      · refine ⟨[], c :: text, rfl, Nat.zero_le cap, fun d hd => ?_⟩
        obtain rfl := Option.some.inj hd
        rw [List.nil_append]
        omega

namespace LongestWithin

theorem lt_length_of_next (h : LongestWithin cap text kept) (hnext : kept ++ [c] <+: text) :
    cap < (encode (kept ++ [c])).length := by
  by_contra hless
  have hlength := (h.longest _ hnext (Nat.le_of_not_lt hless)).length_le
  rw [List.length_append, List.length_singleton] at hlength
  omega

-- The character that is split is the next one
theorem splitsCharacter_iff (h : LongestWithin cap text kept) :
    SplitsCharacter cap text ↔ (encode kept).length < cap ∧ ∃ c, kept ++ [c] <+: text := by
  constructor
  · rintro ⟨before, c, after, rfl, hless, hbeyond⟩
    have hnext : before ++ [c] <+: before ++ c :: after := ⟨after, by simp⟩
    -- the longest has the characters before it, and not the character itself
    obtain ⟨more, hmore⟩ := h.longest before (List.prefix_append _ _) (Nat.le_of_lt hless)
    cases more with
    | nil =>
        rw [List.append_nil] at hmore
        exact hmore ▸ ⟨hless, c, hnext⟩
    | cons d more =>
        exfalso
        have hboth : before ++ d :: more <+: before ++ c :: after := hmore ▸ h.begins
        obtain rfl := (List.cons_prefix_cons.mp ((List.prefix_append_right_inj before).mp hboth)).1
        have hkept : before ++ [d] <+: kept := ⟨more, by simpa using hmore⟩
        have hlength := length_encode_le hkept
        have hfits := h.fits
        omega
  · rintro ⟨hless, c, hnext⟩
    obtain ⟨after, hafter⟩ := hnext
    refine ⟨kept, c, after, by simpa using hafter.symm, hless, ?_⟩
    exact h.lt_length_of_next ⟨after, hafter⟩

-- The first bytes are those of the longest beginning, and some of the next character
theorem take_encode (h : LongestWithin cap text kept) :
    ((encode text).take cap = encode kept ∧ ¬ SplitsCharacter cap text) ∨
      ∃ c first rest, SplitsCharacter cap text ∧
        first ++ rest = String.utf8EncodeChar c ∧ first ≠ [] ∧ rest ≠ [] ∧
        (encode text).take cap = encode kept ++ first := by
  obtain ⟨rest, hrest⟩ := h.begins
  have htake : (encode text).take cap =
      encode kept ++ (encode rest).take (cap - (encode kept).length) := by
    rw [← hrest, encode_append, List.take_append, List.take_of_length_le h.fits]
  by_cases hsplits : SplitsCharacter cap text
  · obtain ⟨hless, c, hnext⟩ := h.splitsCharacter_iff.mp hsplits
    have hbeyond := h.lt_length_of_next hnext
    obtain ⟨after, rfl⟩ : ∃ after, rest = c :: after := by
      obtain ⟨after, hafter⟩ := hnext
      have hboth : kept ++ rest = kept ++ c :: after := by
        rw [hrest, ← hafter, List.append_assoc, List.singleton_append]
      exact ⟨after, List.append_cancel_left hboth⟩
    rw [encode_append, encode_singleton, List.length_append] at hbeyond
    have hcode : (encode (c :: after)).take (cap - (encode kept).length) =
        (String.utf8EncodeChar c).take (cap - (encode kept).length) := by
      rw [encode_cons]
      exact List.take_append_of_le_length (by omega)
    refine .inr ⟨c, _, _, hsplits, List.take_append_drop (cap - (encode kept).length) _, ?_, ?_,
      htake.trans (congrArg _ hcode)⟩
    · rw [← List.length_pos_iff, List.length_take]
      omega
    · rw [← List.length_pos_iff, List.length_drop]
      omega
  · refine .inl ⟨?_, hsplits⟩
    cases rest with
    | nil =>
        have hnone : encode [] = [] := rfl
        rw [htake, hnone, List.take_nil, List.append_nil]
    | cons c after =>
        have hnext : kept ++ [c] <+: text := ⟨after, by simpa using hrest⟩
        have hfull : cap ≤ (encode kept).length := by
          by_contra hless
          exact hsplits (h.splitsCharacter_iff.mpr ⟨Nat.lt_of_not_le hless, c, hnext⟩)
        rw [htake, Nat.sub_eq_zero_of_le hfull, List.take_zero, List.append_nil]

theorem decodeLossy_take (h : LongestWithin cap text kept) :
    (SplitsCharacter cap text →
      decodeLossy ((encode text).take cap) = kept ++ ['\uFFFD']) ∧
    (¬ SplitsCharacter cap text → decodeLossy ((encode text).take cap) = kept) := by
  rcases h.take_encode with ⟨htake, hwhole⟩ | ⟨c, first, rest, hsplits, hcode, hfirst, hrest, htake⟩
  · refine ⟨fun hsplits => absurd hsplits hwhole, fun _ => ?_⟩
    rw [htake, decodeLossy_encode]
  · refine ⟨fun _ => ?_, fun hwhole => absurd hsplits hwhole⟩
    rw [htake, decodeLossy, decodeBytes, List.foldl_append, Decoder.foldl_step_encode rfl,
      Decoder.chars_of_cut rfl hcode hfirst hrest, List.reverse_cons, Decoder.start,
      List.append_nil, List.reverse_reverse]

-- In place of a part of a character stands one of three bytes
theorem length_decodeLossy_take_le (h : LongestWithin cap text kept) :
    (encode (decodeLossy ((encode text).take cap))).length ≤ cap + 2 := by
  have hfits := h.fits
  by_cases hsplits : SplitsCharacter cap text
  · have hless := (h.splitsCharacter_iff.mp hsplits).1
    have hthree : (encode ['\uFFFD']).length = 3 := by decide
    rw [h.decodeLossy_take.1 hsplits, encode_append, List.length_append, hthree]
    omega
  · rw [h.decodeLossy_take.2 hsplits]
    omega

end LongestWithin

end Blocklist.Text
