import Blocklist.Dataset.Csv
-- Tables in which every field is quoted. Such a table is read back as it was written,
-- whatever bytes are in its fields and however its records end.
namespace Blocklist.Csv

inductive LineEnd where
  | lineFeed
  | carriageReturn
  | both
  deriving DecidableEq, Repr

def LineEnd.bytes : LineEnd → Bytes
  | .lineFeed => [0x0A]
  | .carriageReturn => [0x0D]
  | .both => [0x0D, 0x0A]

-- A quote inside a field is written twice
def double (b : UInt8) : Bytes := if b == 0x22 then [b, b] else [b]

def quote (field : Bytes) : Bytes := 0x22 :: (field.flatMap double ++ [0x22])

def writeRecord (record : List Bytes) (ending : LineEnd) : Bytes :=
  [0x2C].intercalate (record.map quote) ++ ending.bytes

-- The records of a table, each with its own line end
def write (table : List (List Bytes × LineEnd)) : Bytes :=
  table.flatMap fun line => writeRecord line.1 line.2

namespace Reader

variable {r : Reader} {field : Bytes} {record : List Bytes} {done : List (List Bytes)}

-- A reader that has read these records and is at the start of a line
def atLine (done : List (List Bytes)) : Reader := ⟨.betweenRecords, [], [], done⟩

-- A field may begin here
structure Begins (r : Reader) : Prop where
  mode : r.mode = .betweenRecords ∨ r.mode = .fieldStart
  field : r.field = []

theorem begins_atLine (done : List (List Bytes)) : (atLine done).Begins := ⟨.inl rfl, rfl⟩

theorem begins_endField (r : Reader) : r.endField.Begins := ⟨.inr rfl, rfl⟩

theorem foldl_step_double (hmode : r.mode = .quoted) (b : UInt8) :
    (double b).foldl step r = r.keep .quoted b := by
  unfold double
  split
  case isTrue hquote =>
    rw [eq_of_beq hquote]
    simp [step, hmode, keep]
  case isFalse hother => simp [step, hmode, hother]

theorem foldl_step_doubled (hmode : r.mode = .quoted) (field : Bytes) :
    (field.flatMap double).foldl step r = { r with field := field.reverse ++ r.field } := by
  induction field generalizing r with
  | nil => rfl
  | cons b field ih =>
      rw [List.flatMap_cons, List.foldl_append, foldl_step_double hmode, ih rfl]
      simp [keep, hmode]

-- After a quoted field the reader holds its bytes, and waits for a comma or a line end
theorem foldl_step_quote (h : r.Begins) (field : Bytes) :
    (quote field).foldl step r = { r with mode := .closingQuote, field := field.reverse } := by
  have hopen : r.step 0x22 = { r with mode := .quoted } := by
    rcases h.mode with hmode | hmode <;> simp [step, hmode, open?, isLineEnd]
  rw [quote, List.foldl_cons, List.foldl_append, hopen, foldl_step_doubled rfl]
  simp [step, h.field]

theorem step_comma (hmode : r.mode = .closingQuote) : r.step 0x2C = r.endField := by
  simp [step, hmode, bare]

-- Both bytes of a line end make one end of the record
theorem foldl_step_lineEnd (hmode : r.mode = .closingQuote) (ending : LineEnd) :
    ending.bytes.foldl step r = r.endRecord := by
  have hend : ∀ b, isLineEnd b = true → r.step b = r.endRecord := by
    intro b hb
    have hcomma : b ≠ 0x2C ∧ b ≠ 0x22 := by
      constructor <;> rintro rfl <;> exact absurd hb (by decide)
    simp [step, hmode, bare, hb, hcomma]
  have hagain : r.endRecord.step 0x0A = r.endRecord := rfl
  cases ending with
  | lineFeed => exact hend 0x0A rfl
  | carriageReturn => exact hend 0x0D rfl
  | both => simp [LineEnd.bytes, hend 0x0D rfl, hagain]

-- By induction on the fields. Each but the last is ended by a comma.
theorem foldl_step_writeRecord (h : r.Begins) (hrecord : record ≠ []) (ending : LineEnd) :
    (writeRecord record ending).foldl step r =
      atLine ((r.fields.reverse ++ record) :: r.records) := by
  induction record generalizing r with
  | nil => exact absurd rfl hrecord
  | cons field rest ih =>
      cases rest with
      | nil =>
          simp [writeRecord, foldl_step_quote h, foldl_step_lineEnd, endRecord, endField, atLine]
      | cons next rest =>
          have hsplit : writeRecord (field :: next :: rest) ending =
              quote field ++ 0x2C :: writeRecord (next :: rest) ending := by
            simp [writeRecord, List.intercalate_cons_cons]
          rw [hsplit, List.foldl_append, List.foldl_cons, foldl_step_quote h, step_comma rfl,
            ih (begins_endField _) (List.cons_ne_nil _ _)]
          simp [endField]

theorem foldl_step_write {table : List (List Bytes × LineEnd)} (h : ∀ line ∈ table, line.1 ≠ [])
    (done : List (List Bytes)) :
    (write table).foldl step (atLine done) = atLine ((table.map Prod.fst).reverse ++ done) := by
  induction table generalizing done with
  | nil => rfl
  | cons line table ih =>
      have hline := foldl_step_writeRecord (begins_atLine done) (h line List.mem_cons_self) line.2
      have htable := ih (fun other hother => h other (List.mem_cons_of_mem line hother))
      rw [write, List.flatMap_cons, List.foldl_append, hline, ← write, htable]
      simp [atLine]

end Reader

-- A table begins with a quote, which is no byte order mark
theorem withoutMark_write {table : List (List Bytes × LineEnd)} (h : ∀ line ∈ table, line.1 ≠ []) :
    withoutMark (write table) = write table := by
  cases table with
  | nil => rfl
  | cons line table =>
      obtain ⟨field, rest, hrecord⟩ := List.exists_cons_of_ne_nil (h line List.mem_cons_self)
      have hquote : ∃ bytes, write (line :: table) = 0x22 :: bytes := by
        cases rest <;>
          simp [write, writeRecord, hrecord, quote, List.intercalate_cons_cons]
      obtain ⟨bytes, hbytes⟩ := hquote
      rw [hbytes]
      rfl

theorem records_write {table : List (List Bytes × LineEnd)} (h : ∀ line ∈ table, line.1 ≠ []) :
    records (write table) = table.map Prod.fst := by
  have hread := Reader.foldl_step_write h []
  rw [List.append_nil] at hread
  rw [records, withoutMark_write h, Reader.start, ← Reader.atLine, hread]
  simp [Reader.atLine, Reader.finish]

end Blocklist.Csv
