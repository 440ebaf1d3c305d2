import Blocklist.Proofs.Text.Utf8
import Blocklist.Service.Query
import Mathlib.Data.List.TakeDrop
-- Forms in queries. A text may be written in more than one way, and each is read as that text.
namespace Blocklist

open Text

namespace Service

variable {front rest : List UInt8} {n : Nat}

def upperHex (n : Nat) : Char :=
  if n < 10 then Char.ofNat (n + 0x30) else Char.ofNat (n - 10 + 0x41)

-- The code of a byte
def percent (byte : UInt8) : List Char :=
  ['%', upperHex (byte.toNat / 16), upperHex (byte.toNat % 16)]

-- Bytes without a percent sign stand for themselves
theorem unescape_append (h : 0x25 ∉ front) (rest : List UInt8) :
    unescape (front ++ rest) = front ++ unescape rest := by
  induction front with
  | nil => rfl
  | cons byte front ih =>
      obtain ⟨hbyte, hfront⟩ := not_or.mp (List.mem_cons.not.mp h)
      rw [List.cons_append, unescape.eq_2 byte (front ++ rest) ?_, ih hfront, List.cons_append]
      rintro high low others rfl _
      exact hbyte rfl

-- A hexadecimal digit is one byte, and is read as its value
theorem exists_hexByte (h : n < 16) : ∃ byte : UInt8,
    String.utf8EncodeChar (upperHex n) = [byte] ∧ hexValue? (Char.ofNat byte.toNat) = some n := by
  have hall : ∀ n : Fin 16,
      String.utf8EncodeChar (upperHex n) = [UInt8.ofNat (upperHex n).toNat] ∧
        hexValue? (Char.ofNat (UInt8.ofNat (upperHex n).toNat).toNat) = some n.val := by decide
  exact ⟨_, hall ⟨n, h⟩⟩

theorem unescape_percent (byte : UInt8) (rest : List UInt8) :
    unescape (encode (percent byte) ++ rest) = byte :: unescape rest := by
  have hbyte : byte.toNat < 256 := byte.toNat_lt
  obtain ⟨high, hhigh, hhighValue⟩ := exists_hexByte (n := byte.toNat / 16) (by omega)
  obtain ⟨low, hlow, hlowValue⟩ := exists_hexByte (n := byte.toNat % 16) (by omega)
  have hcode : encode (percent byte) = [0x25, high, low] := by
    rw [percent, encode_cons, encode_cons, encode_singleton, hhigh, hlow]
    rfl
  have hvalue : byte.toNat / 16 * 16 + byte.toNat % 16 = byte.toNat := Nat.div_add_mod' _ _
  rw [hcode]
  simp only [List.cons_append, List.nil_append, unescape, hhighValue, hlowValue, hvalue,
    UInt8.ofNat_toNat]

theorem unescape_flatMap_percent (bytes rest : List UInt8) :
    unescape (encode (bytes.flatMap percent) ++ rest) = bytes ++ unescape rest := by
  induction bytes with
  | nil => rfl
  | cons byte bytes ih =>
      rw [List.flatMap_cons, encode_append, List.append_assoc, unescape_percent, ih,
        List.cons_append]

theorem plus_not_mem_percent (byte : UInt8) : '+' ∉ percent byte := by
  have hall : ∀ n : Fin 16, '+' ≠ upperHex n := by decide
  have hbyte : byte.toNat < 256 := byte.toNat_lt
  have hhigh := hall ⟨byte.toNat / 16, by omega⟩
  have hlow := hall ⟨byte.toNat % 16, by omega⟩
  simp [percent, hhigh, hlow]

end Service

namespace Text

-- The byte of a percent sign is only in its own code
theorem eq_percent_of_mem_encodeChar {c : Char} (h : 0x25 ∈ String.utf8EncodeChar c) :
    c = '%' := by
  rcases encodeChar_cases c with ⟨hascii, hcode⟩ | hbeyond
  · rw [hcode] at h
    have hsame := congrArg UInt8.toNat (List.mem_singleton.mp h)
    rw [UInt8.toNat_ofNat', Nat.mod_eq_of_lt (by omega)] at hsame
    rw [← Char.ofNat_toNat c, ← hsame]
    rfl
  · exact absurd (hbeyond _ h) (by decide)

end Text

-- A text is split at the first character that is not like those before it
theorem span_append_cons {p : Char → Bool} {c : Char} (front rest : List Char)
    (hfront : front.all p = true) (hc : p c = false) :
    (front ++ c :: rest).span p = (front, c :: rest) := by
  have heach := List.all_eq_true.mp hfront
  rw [List.span_eq_takeWhile_dropWhile, List.takeWhile_append_of_pos heach,
    List.dropWhile_append_of_pos heach, List.takeWhile_cons_of_neg (by simp [hc]),
    List.dropWhile_cons_of_neg (by simp [hc]), List.append_nil]

namespace Service

variable {text written : List Char}

-- How a form may write a text: each character as it is, a space as a plus, or any character
-- in the percent codes of its bytes
inductive Writes : List Char → List Char → Prop
  | nil : Writes [] []
  | plain {c : Char} {text written : List Char} (plus : c ≠ '+') (percent : c ≠ '%')
      (rest : Writes text written) : Writes (c :: text) (c :: written)
  | space {text written : List Char} (rest : Writes text written) :
      Writes (' ' :: text) ('+' :: written)
  | coded {c : Char} {code text written : List Char}
      (code_eq : (encode [c]).flatMap Service.percent = code) (rest : Writes text written) :
      Writes (c :: text) (code ++ written)

theorem map_plus_eq_self (h : '+' ∉ text) :
    (text.map fun c => if c = '+' then ' ' else c) = text := by
  refine (List.map_congr_left fun c hc => if_neg ?_).trans text.map_id
  rintro rfl
  exact h hc

theorem writes_self (hplus : '+' ∉ text) (hpercent : '%' ∉ text) : Writes text text := by
  induction text with
  | nil => exact .nil
  | cons c text ih =>
    rw [List.mem_cons, not_or] at hplus hpercent
    exact .plain (Ne.symm hplus.1) (Ne.symm hpercent.1) (ih hplus.2 hpercent.2)

theorem Writes.unescape (h : Writes text written) :
    Service.unescape (encode (written.map fun c => if c = '+' then ' ' else c)) =
      encode text := by
  induction h with
  | nil => rfl
  | @plain c _ _ plus percent _ ih =>
    have hpercent : 0x25 ∉ String.utf8EncodeChar c := mt eq_percent_of_mem_encodeChar percent
    rw [List.map_cons, if_neg plus, encode_cons, unescape_append hpercent, ih,
      encode_cons]
  | space _ ih =>
    rw [List.map_cons, if_pos rfl, encode_cons, unescape_append (by decide), ih,
      encode_cons]
  | @coded c _ _ _ code_eq _ ih =>
    subst code_eq
    have hplus : '+' ∉ (encode [c]).flatMap Service.percent := fun hmem =>
      have ⟨byte, _, hbyte⟩ := List.mem_flatMap.mp hmem
      plus_not_mem_percent byte hbyte
    rw [List.map_append, map_plus_eq_self hplus, encode_append,
      unescape_flatMap_percent, ih, encode_singleton, encode_cons]

-- A text is read from each of its writings
theorem Writes.formDecode (h : Writes text written) :
    Service.formDecode written = String.ofList text := by
  rw [Service.formDecode, h.unescape, decodeLossy_encode]

-- A name with its value, as an item of a form
inductive WritesPair : String × String → List Char → Prop
  | mk {name value : String} {writtenName writtenValue : List Char}
      (name_written : Writes name.toList writtenName)
      (value_written : Writes value.toList writtenValue)
      (equals : '=' ∉ writtenName) (and_name : '&' ∉ writtenName) (and_value : '&' ∉ writtenValue) :
      WritesPair (name, value) (writtenName ++ '=' :: writtenValue)

-- Items one after the other
inductive WritesForm : List (String × String) → List Char → Prop
  | nil : WritesForm [] []
  | last {pair : String × String} {item : List Char} (item_written : WritesPair pair item) :
      WritesForm [pair] item
  | cons {pair : String × String} {pairs : List (String × String)} {item query : List Char}
      (item_written : WritesPair pair item) (rest : WritesForm pairs query) :
      WritesForm (pair :: pairs) (item ++ '&' :: query)

theorem WritesPair.formPairs {pair : String × String} {item : List Char}
    (h : WritesPair pair item) : Service.formPairs item = [pair] := by
  cases h with
  | @mk name value writtenName writtenValue name_written value_written equals and_name and_value =>
    have hbefore : writtenName.all (· != '=') = true :=
      List.all_eq_true.mpr fun c hc => bne_iff_ne.mpr fun hsame => equals (hsame ▸ hc)
    have hspan : (writtenName ++ '=' :: writtenValue).span (· != '=') =
        (writtenName, '=' :: writtenValue) := span_append_cons writtenName writtenValue hbefore rfl
    have hpair : formPair (writtenName ++ '=' :: writtenValue) = (name, value) := by
      simp only [formPair, hspan, List.tail_cons, name_written.formDecode,
        value_written.formDecode, String.ofList_toList]
    have hwhole : '&' ∉ writtenName ++ '=' :: writtenValue := by simp [and_name, and_value]
    simp [Service.formPairs, List.splitOn_eq_singleton hwhole, hpair]

theorem formPairs_append (query more : List Char) :
    formPairs (query ++ '&' :: more) = formPairs query ++ formPairs more := by
  simp only [formPairs, List.splitOn_append_cons_self, List.filter_append, List.map_append]

-- A form is read as what it was written from
theorem WritesForm.formPairs {pairs : List (String × String)} {query : List Char}
    (h : WritesForm pairs query) : Service.formPairs query = pairs := by
  induction h with
  | nil => rfl
  | last item_written => exact item_written.formPairs
  | cons item_written _ ih =>
    rw [formPairs_append, item_written.formPairs, ih, List.singleton_append]

theorem limitValues_append (query more : List Char) :
    limitValues (query ++ '&' :: more) = limitValues query ++ limitValues more := by
  simp only [limitValues, formPairs_append, List.filter_append, List.map_append]

end Service

end Blocklist
