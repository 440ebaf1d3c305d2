import Blocklist.Proofs.Dataset.Columns
import Blocklist.Proofs.Text.Decoder
import Mathlib.Data.Set.List
-- Tables that are text. Commas, quotes and line ends are ASCII, so that no character is cut, and
-- each cell of such a table is text again.
namespace Blocklist.Csv

open Text

variable {r : Reader} {bytes more : Bytes} {byte : UInt8} {c : Char}

-- Bytes that are the code of a text
def IsText (bytes : Bytes) : Prop := ∃ text, encode text = bytes

theorem isText_nil : IsText [] := ⟨[], rfl⟩

theorem IsText.append (h : IsText bytes) (h' : IsText more) : IsText (bytes ++ more) := by
  obtain ⟨text, rfl⟩ := h
  obtain ⟨text', rfl⟩ := h'
  exact ⟨text ++ text', encode_append text text'⟩

theorem isText_flatMap {α : Type} {f : α → Bytes} {xs : List α} (h : ∀ x ∈ xs, IsText (f x)) :
    IsText (xs.flatMap f) := by
  induction xs with
  | nil => exact isText_nil
  | cons x xs ih =>
      obtain ⟨hx, hxs⟩ := List.forall_mem_cons.mp h
      rw [List.flatMap_cons]
      exact hx.append (ih hxs)

namespace Reader

-- A step acts on the record, or keeps its byte in a field
theorem step_cases (r : Reader) (byte : UInt8) :
    (∃ mode, r.step byte = { r with mode := mode }) ∨ r.step byte = r.endField ∨
      r.step byte = r.endRecord ∨ ∃ mode, r.step byte = r.keep mode byte := by
  have hbare : r.bare byte = r.endField ∨ r.bare byte = r.endRecord ∨
      ∃ mode, r.bare byte = r.keep mode byte := by
    unfold bare
    split
    case isTrue => exact .inl rfl
    case isFalse =>
      split
      case isTrue => exact .inr (.inl rfl)
      case isFalse => exact .inr (.inr ⟨_, rfl⟩)
  have hopen : (∃ mode, r.open? byte = { r with mode := mode }) ∨ r.open? byte = r.endField ∨
      r.open? byte = r.endRecord ∨ ∃ mode, r.open? byte = r.keep mode byte := by
    unfold open?
    split
    case isTrue => exact .inl ⟨_, rfl⟩
    case isFalse => exact .inr hbare
  unfold step
  split
  case h_1 =>
    split
    case isTrue => exact .inl ⟨r.mode, rfl⟩
    case isFalse => exact hopen
  case h_2 => exact hopen
  case h_3 => exact .inr hbare
  case h_4 =>
    split
    case isTrue => exact .inl ⟨_, rfl⟩
    case isFalse => exact .inr (.inr (.inr ⟨_, rfl⟩))
  case h_5 =>
    split
    case isTrue => exact .inr (.inr (.inr ⟨_, rfl⟩))
    case isFalse => exact .inr hbare

-- Beyond ASCII every byte is kept
theorem step_beyond (r : Reader) (hbyte : 0x80 ≤ byte.toNat) :
    ∃ mode, r.step byte = r.keep mode byte := by
  have hne : ∀ b : UInt8, b.toNat < 0x80 → (byte == b) = false := by
    intro b hb
    apply beq_false_of_ne
    rintro rfl
    omega
  have hend : isLineEnd byte = false := by
    rw [isLineEnd, hne 0x0A (by decide), hne 0x0D (by decide)]
    rfl
  have hbare : r.bare byte = r.keep .plain byte := by
    rw [bare, hne 0x2C (by decide), hend]
    rfl
  have hopen : r.open? byte = r.keep .plain byte := by
    rw [open?, hne 0x22 (by decide), hbare]
    rfl
  unfold step
  split
  case h_1 => exact ⟨_, by rw [hend, hopen]; rfl⟩
  case h_2 => exact ⟨_, hopen⟩
  case h_3 => exact ⟨_, hbare⟩
  case h_4 => exact ⟨_, by rw [hne 0x22 (by decide)]; rfl⟩
  case h_5 => exact ⟨_, by rw [hne 0x22 (by decide), hbare]; rfl⟩

theorem foldl_step_beyond (r : Reader) (hbytes : ∀ byte ∈ bytes, 0x80 ≤ byte.toNat) :
    ∃ mode, bytes.foldl step r = { r with mode := mode, field := bytes.reverse ++ r.field } := by
  induction bytes generalizing r with
  | nil => exact ⟨r.mode, rfl⟩
  | cons byte bytes ih =>
      obtain ⟨hbyte, hbytes⟩ := List.forall_mem_cons.mp hbytes
      obtain ⟨mode, hstep⟩ := step_beyond r hbyte
      obtain ⟨mode', hfold⟩ := ih (r.keep mode byte) hbytes
      refine ⟨mode', ?_⟩
      rw [List.foldl_cons, hstep, hfold]
      simp [keep]

-- All that has been read is text, cell by cell
structure Textual (r : Reader) : Prop where
  field : IsText r.field.reverse
  fields : ∀ cell ∈ r.fields, IsText cell
  records : ∀ record ∈ r.records, ∀ cell ∈ record, IsText cell

namespace Textual

theorem start : Textual start := ⟨isText_nil, nofun, nofun⟩

theorem endField (h : Textual r) : Textual r.endField :=
  ⟨isText_nil, List.forall_mem_cons.mpr ⟨h.field, h.fields⟩, h.records⟩

theorem endRecord (h : Textual r) : Textual r.endRecord :=
  ⟨isText_nil, nofun, List.forall_mem_cons.mpr
    ⟨fun cell hcell => h.endField.fields cell (List.mem_reverse.mp hcell), h.records⟩⟩

theorem keep (h : Textual r) (hbytes : IsText bytes) (mode : Mode) :
    Textual { r with mode := mode, field := bytes.reverse ++ r.field } := by
  refine ⟨?_, h.fields, h.records⟩
  rw [List.reverse_append, List.reverse_reverse]
  exact h.field.append hbytes

-- The bytes of a character are read together
theorem foldl_step_encodeChar (h : Textual r) (c : Char) :
    Textual ((String.utf8EncodeChar c).foldl step r) := by
  have hcode : IsText (String.utf8EncodeChar c) := ⟨[c], encode_singleton c⟩
  rcases encodeChar_cases c with ⟨-, hone⟩ | hbeyond
  · rw [hone] at hcode ⊢
    rw [List.foldl_cons, List.foldl_nil]
    rcases r.step_cases (UInt8.ofNat c.toNat) with ⟨mode, hstep⟩ | hstep | hstep | ⟨mode, hstep⟩
    · exact hstep ▸ ⟨h.field, h.fields, h.records⟩
    · exact hstep ▸ h.endField
    · exact hstep ▸ h.endRecord
    · exact hstep ▸ h.keep hcode mode
  · obtain ⟨mode, hfold⟩ := r.foldl_step_beyond hbeyond
    exact hfold ▸ h.keep hcode mode

theorem foldl_step_encode (h : Textual r) (text : List Char) :
    Textual ((encode text).foldl step r) := by
  induction text generalizing r with
  | nil => exact h
  | cons c text ih =>
      rw [encode_cons, List.foldl_append]
      exact ih (h.foldl_step_encodeChar c)

theorem finish (h : Textual r) : ∀ record ∈ r.finish, ∀ cell ∈ record, IsText cell := by
  intro record hrecord
  unfold Reader.finish at hrecord
  split at hrecord
  · exact h.records record (List.mem_reverse.mp hrecord)
  · exact h.endRecord.records record (List.mem_reverse.mp hrecord)

end Textual

end Reader

-- A byte order mark is the code of a character of its own
theorem isText_withoutMark (text : List Char) : IsText (withoutMark (encode text)) := by
  unfold withoutMark
  split
  case h_1 rest hmark =>
    have hcode : (0xEF :: 0xBB :: 0xBF :: rest : Bytes) = String.utf8EncodeChar '\uFEFF' ++ rest :=
      rfl
    rw [hcode] at hmark
    have hbegins : ['\uFEFF'] <+: text := by
      have hread := Decoder.chars_foldl_step (Decoder.start.push '\uFEFF') rest
      have hfold : rest.foldl Decoder.step (Decoder.start.push '\uFEFF') =
          (encode text).foldl Decoder.step Decoder.start := by
        rw [hmark, List.foldl_append, Decoder.foldl_step_encodeChar rfl]
      rw [hfold, ← decodeBytes, decodeBytes_encode] at hread
      exact List.reverse_suffix.mp hread
    obtain ⟨more, rfl⟩ := hbegins
    rw [List.singleton_append, encode_cons] at hmark
    exact ⟨more, List.append_cancel_left hmark⟩
  case h_2 => exact ⟨text, rfl⟩

theorem isText_of_mem_records (text : List Char) :
    ∀ record ∈ records (encode text), ∀ cell ∈ record, IsText cell := by
  obtain ⟨more, hmore⟩ := isText_withoutMark text
  rw [records, ← hmore]
  exact (Reader.Textual.start.foldl_step_encode more).finish

-- Quotes that are doubled are characters that are doubled
theorem isText_flatMap_double (text : List Char) : IsText ((encode text).flatMap double) := by
  rw [encode, List.flatMap_assoc]
  refine isText_flatMap fun c _ => ?_
  have hcode : IsText (String.utf8EncodeChar c) := ⟨[c], encode_singleton c⟩
  rcases encodeChar_cases c with ⟨-, hone⟩ | hbeyond
  · rw [hone] at hcode ⊢
    rw [List.flatMap_singleton, double]
    split
    case isTrue => exact hcode.append hcode
    case isFalse => exact hcode
  · have hsingle : ∀ byte ∈ String.utf8EncodeChar c, double byte = [byte] := by
      intro byte hbyte
      rw [double, if_neg]
      intro hquote
      rw [eq_of_beq hquote] at hbyte
      exact absurd (hbeyond _ hbyte) (by decide)
    rw [List.flatMap_congr hsingle, List.flatMap_singleton']
    exact hcode

theorem IsText.quote (h : IsText bytes) : IsText (quote bytes) := by
  obtain ⟨text, rfl⟩ := h
  have hmark : IsText [0x22] := ⟨['\"'], rfl⟩
  exact hmark.append ((isText_flatMap_double text).append hmark)

theorem isText_lineEnd (ending : LineEnd) : IsText ending.bytes := by
  cases ending with
  | lineFeed => exact ⟨['\n'], rfl⟩
  | carriageReturn => exact ⟨['\r'], rfl⟩
  | both => exact ⟨['\r', '\n'], rfl⟩

theorem isText_writeRecord {record : List Bytes} (h : ∀ field ∈ record, IsText field)
    (ending : LineEnd) : IsText (writeRecord record ending) := by
  refine IsText.append ?_ (isText_lineEnd ending)
  induction record with
  | nil => exact isText_nil
  | cons field rest ih =>
      obtain ⟨hfield, hrest⟩ := List.forall_mem_cons.mp h
      cases rest with
      | nil => simpa using hfield.quote
      | cons next rest =>
          have hcomma : IsText [0x2C] := ⟨[','], rfl⟩
          rw [List.map_cons, List.map_cons, List.intercalate_cons_cons]
          exact (hfield.quote.append hcomma).append (ih hrest)

theorem isText_write {table : List (List Bytes × LineEnd)}
    (h : ∀ line ∈ table, ∀ field ∈ line.1, IsText field) : IsText (write table) :=
  isText_flatMap fun line hline => isText_writeRecord (h line hline) line.2

end Blocklist.Csv

namespace Blocklist.Dataset

open Csv Text

theorem cellBytes_ofList (text : List Char) : cellBytes (String.ofList text) = encode text := by
  rw [cellBytes, String.toList_ofList]

-- What a text is read as: records with cells of text
def IsTable (text : String) (table : List (List String)) : Prop :=
  records (encode text.toList) = table.map (List.map cellBytes)

theorem exists_table (text : String) : ∃ table, IsTable text table := by
  have hrecords : ∀ record ∈ records (encode text.toList),
      record ∈ Set.range (List.map cellBytes) := by
    intro record hrecord
    rw [Set.range_list_map]
    intro cell hcell
    obtain ⟨text, rfl⟩ := isText_of_mem_records _ record hrecord cell hcell
    exact ⟨String.ofList text, cellBytes_ofList text⟩
  have hall : records (encode text.toList) ∈ Set.range (List.map (List.map cellBytes)) := by
    rw [Set.range_list_map]
    exact hrecords
  obtain ⟨table, htable⟩ := hall
  exact ⟨table, htable.symm⟩

-- Each table can be written, if its records have cells
theorem exists_text_of_table {table : List (List String)} (h : ∀ cells ∈ table, cells ≠ []) :
    ∃ text, IsTable text table := by
  have hcells : ∀ line ∈ table.map fun cells => (cells.map cellBytes, LineEnd.lineFeed),
      line.1 ≠ [] := by
    intro line hline
    obtain ⟨cells, hcells, rfl⟩ := List.mem_map.mp hline
    exact List.map_eq_nil_iff.not.mpr (h cells hcells)
  obtain ⟨text, htext⟩ : IsText (write (table.map fun cells =>
      (cells.map cellBytes, LineEnd.lineFeed))) := by
    refine isText_write fun line hline field hfield => ?_
    obtain ⟨cells, -, rfl⟩ := List.mem_map.mp hline
    obtain ⟨cell, -, rfl⟩ := List.mem_map.mp hfield
    exact ⟨cell.toList, rfl⟩
  refine ⟨String.ofList text, ?_⟩
  rw [IsTable, String.toList_ofList, htext, records_write hcells, List.map_map]
  rfl

end Blocklist.Dataset
