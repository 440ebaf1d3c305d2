import Blocklist.Dataset.Basic
import Blocklist.Proofs.Dataset.Quoted
-- Tables that come in parts. After a line end outside quotes the reader starts afresh, so
-- that each part is read as if the others were not there.
namespace Blocklist.Csv

namespace Reader

variable {r : Reader} {b : UInt8} {done : List (List Bytes)}

-- The reader, had it read these records before
def behind (done : List (List Bytes)) (r : Reader) : Reader :=
  { r with records := r.records ++ done }

theorem bare_behind : (r.behind done).bare b = (r.bare b).behind done := by
  unfold bare
  split
  case isTrue => rfl
  case isFalse => split <;> rfl

theorem open?_behind : (r.behind done).open? b = (r.open? b).behind done := by
  unfold open?
  split
  case isTrue => rfl
  case isFalse => exact bare_behind

-- What has been read before has no influence on a step
theorem step_behind : (r.behind done).step b = (r.step b).behind done := by
  have hmode : (r.behind done).mode = r.mode := rfl
  unfold step
  rw [hmode]
  cases r.mode with
  | betweenRecords =>
      by_cases hend : isLineEnd b = true
      · simp only [hend, if_true]
      · simp only [hend, open?_behind]
        rfl
  | fieldStart => exact open?_behind
  | plain => exact bare_behind
  | quoted => by_cases hquote : b == 0x22 <;> simp only [hquote] <;> rfl
  | closingQuote =>
      by_cases hquote : b == 0x22
      · simp only [hquote]
        rfl
      · simp only [hquote, bare_behind]
        rfl

theorem foldl_step_behind (bytes : Bytes) :
    bytes.foldl step (r.behind done) = (bytes.foldl step r).behind done := by
  induction bytes generalizing r with
  | nil => rfl
  | cons b bytes ih => rw [List.foldl_cons, List.foldl_cons, step_behind, ih]

theorem finish_behind : (r.behind done).finish = done.reverse ++ r.finish := by
  have hmode : (r.behind done).mode = r.mode := rfl
  unfold finish
  rw [hmode]
  by_cases hbetween : r.mode == .betweenRecords <;>
    simp [hbetween, behind, endRecord, endField]

-- Between records nothing of a field or of a record is left over
def Clean (r : Reader) : Prop := r.mode = .betweenRecords → r.field = [] ∧ r.fields = []

theorem clean_start : start.Clean := fun _ => ⟨rfl, rfl⟩

theorem clean_of_mode (h : r.mode ≠ .betweenRecords) : r.Clean := fun hmode => absurd hmode h

theorem clean_bare : (r.bare b).Clean := by
  unfold bare
  split
  case isTrue => exact clean_of_mode (by simp [endField])
  case isFalse =>
    split
    case isTrue => exact fun _ => ⟨rfl, rfl⟩
    case isFalse => exact clean_of_mode (by simp [keep])

theorem clean_open? : (r.open? b).Clean := by
  unfold open?
  split
  case isTrue => exact clean_of_mode (by simp)
  case isFalse => exact clean_bare

theorem Clean.step (h : r.Clean) (b : UInt8) : (r.step b).Clean := by
  unfold Reader.step
  split
  case h_1 =>
    split
    case isTrue => exact h
    case isFalse => exact clean_open?
  case h_2 => exact clean_open?
  case h_3 => exact clean_bare
  case h_4 => split <;> exact clean_of_mode (by simp [keep])
  case h_5 =>
    split
    case isTrue => exact clean_of_mode (by simp [keep])
    case isFalse => exact clean_bare

theorem Clean.foldl_step (h : r.Clean) (bytes : Bytes) : (bytes.foldl Reader.step r).Clean := by
  induction bytes generalizing r with
  | nil => exact h
  | cons b bytes ih => exact ih (h.step b)

theorem Clean.eq_atLine (h : r.Clean) (hmode : r.mode = .betweenRecords) :
    r = atLine r.records := by
  obtain ⟨mode, field, fields, records⟩ := r
  obtain ⟨rfl, rfl⟩ := h hmode
  cases hmode
  rfl

theorem bare_lineEnd (hb : isLineEnd b = true) : (r.bare b).mode = .betweenRecords := by
  have hcomma : (b == 0x2C) = false := by
    apply beq_false_of_ne
    rintro rfl
    exact absurd hb (by decide)
  rw [bare, hcomma, hb]
  rfl

-- A line end leads to the start of a line, unless it stands in quotes
theorem step_lineEnd (hb : isLineEnd b = true) (hmode : (r.step b).mode ≠ .quoted) :
    (r.step b).mode = .betweenRecords := by
  have hquote : (b == 0x22) = false := by
    apply beq_false_of_ne
    rintro rfl
    exact absurd hb (by decide)
  have hopen : (r.open? b).mode = .betweenRecords := by
    rw [open?, hquote]
    exact bare_lineEnd hb
  unfold step at hmode ⊢
  split
  case h_1 hbetween =>
    rw [if_pos hb]
    exact hbetween
  case h_2 => exact hopen
  case h_3 => exact bare_lineEnd hb
  case h_4 hquoted =>
    rw [hquoted, hquote] at hmode
    exact absurd rfl hmode
  case h_5 =>
    rw [hquote]
    exact bare_lineEnd hb

end Reader

-- The reader after the bytes of a table
def readerAfter (bytes : Bytes) : Reader := (withoutMark bytes).foldl Reader.step Reader.start

-- The bytes end right after a line end, and outside quotes
structure EndsLine (bytes : Bytes) : Prop where
  last : ∃ front b, bytes = front ++ [b] ∧ Reader.isLineEnd b = true
  outside : (readerAfter bytes).mode ≠ .quoted

-- The bytes of a table that begins with one record, which names the columns
structure IsHeader (bytes : Bytes) : Prop where
  ends : EndsLine bytes
  single : ∃ names, records bytes = [names]

-- The records that come after the line end of another one
def laterRecords (bytes : Bytes) : List (List Bytes) :=
  (bytes.foldl Reader.step Reader.start).finish

-- No part of a mark is a line end, so that a mark ends before a line end or there is none
theorem withoutMark_lineEnd {b : UInt8} (hb : Reader.isLineEnd b = true) (front : Bytes) :
    ∃ kept, ∀ more, withoutMark (front ++ b :: more) = kept ++ b :: more := by
  match front with
  | [] =>
    have hfirst : b ≠ 0xEF := by
      rintro rfl
      exact absurd hb (by decide)
    exact ⟨[], fun more => by simp [withoutMark, hfirst]⟩
  | [x] =>
    have hsecond : b ≠ 0xBB := by
      rintro rfl
      exact absurd hb (by decide)
    exact ⟨[x], fun more => by simp [withoutMark, hsecond]⟩
  | [x, y] =>
    have hthird : b ≠ 0xBF := by
      rintro rfl
      exact absurd hb (by decide)
    exact ⟨[x, y], fun more => by simp [withoutMark, hthird]⟩
  | x :: y :: z :: rest =>
    by_cases hmark : x = 0xEF ∧ y = 0xBB ∧ z = 0xBF
    · obtain ⟨rfl, rfl, rfl⟩ := hmark
      exact ⟨rest, fun more => rfl⟩
    · refine ⟨x :: y :: z :: rest, fun more => ?_⟩
      unfold withoutMark
      split
      case h_1 heq =>
        cases heq
        exact absurd ⟨rfl, rfl, rfl⟩ hmark
      case h_2 => rfl

variable {bytes : Bytes}

-- The reader is at the start of a line, and has the records of the bytes behind it
theorem EndsLine.foldl_step (h : EndsLine bytes) (more : Bytes) :
    readerAfter (bytes ++ more) =
      more.foldl Reader.step (Reader.start.behind (records bytes).reverse) := by
  obtain ⟨⟨front, b, rfl, hb⟩, houtside⟩ := h
  obtain ⟨kept, hkept⟩ := withoutMark_lineEnd hb front
  have hwhole : readerAfter (front ++ [b]) = (kept.foldl Reader.step Reader.start).step b := by
    rw [readerAfter, hkept, List.foldl_append, List.foldl_cons, List.foldl_nil]
  have hclean := (Reader.clean_start.foldl_step kept).step b
  rw [hwhole] at houtside
  have hmode := Reader.step_lineEnd hb houtside
  have hrecords : records (front ++ [b]) =
      ((kept.foldl Reader.step Reader.start).step b).records.reverse := by
    rw [records, ← readerAfter, hwhole, Reader.finish, hmode]
    rfl
  rw [readerAfter, List.append_assoc, List.singleton_append, hkept, List.foldl_append,
    List.foldl_cons, hclean.eq_atLine hmode, hrecords, List.reverse_reverse]
  rfl

-- The records of the first part stay, and the rest is read as a table without a mark
theorem records_append (h : EndsLine bytes) (more : Bytes) :
    records (bytes ++ more) = records bytes ++ laterRecords more := by
  have hread := congrArg Reader.finish (h.foldl_step more)
  rw [Reader.foldl_step_behind, Reader.finish_behind, List.reverse_reverse] at hread
  exact hread

end Blocklist.Csv

namespace Blocklist.Dataset

open Blocklist.Csv Blocklist.Text

-- Each record is judged by itself, under the names of the first
theorem ofRecords_append (header : List Csv.Bytes) (first second : List (List Csv.Bytes)) :
    ofRecords (header :: (first ++ second)) =
      ⟨(ofRecords (header :: first)).rows ++ (ofRecords (header :: second)).rows,
        (ofRecords (header :: first)).skipped + (ofRecords (header :: second)).skipped⟩ := by
  simp [ofRecords]

theorem ofBytes_append {header first : Csv.Bytes} (hheader : IsHeader header)
    (hfirst : EndsLine (header ++ first)) (second : Csv.Bytes) :
    ofBytes (header ++ first ++ second) =
      ⟨(ofBytes (header ++ first)).rows ++ (ofBytes (header ++ second)).rows,
        (ofBytes (header ++ first)).skipped + (ofBytes (header ++ second)).skipped⟩ := by
  obtain ⟨names, hnames⟩ := hheader.single
  have hrecords : ∀ more, records (header ++ more) = names :: laterRecords more := by
    intro more
    rw [records_append hheader.ends, hnames, List.singleton_append]
  have hboth : records (header ++ first ++ second) =
      names :: (laterRecords first ++ laterRecords second) := by
    rw [records_append hfirst, hrecords, List.cons_append]
  simp only [ofBytes, hboth, hrecords]
  exact ofRecords_append names (laterRecords first) (laterRecords second)

-- A part of a table that ends at a line end, and whatever comes after it, are read as if each
-- of them stood alone under the header
theorem parts_are_read_apart {header first : Csv.Bytes} (hheader : IsHeader header)
    (hfirst : EndsLine (header ++ first)) (second : Csv.Bytes) :
    let whole := ofBytes (header ++ first ++ second)
    let before := ofBytes (header ++ first)
    let after := ofBytes (header ++ second)
    whole.size = before.size + after.size ∧ whole.skipped = before.skipped + after.skipped ∧
      (∀ interest, whole.urls interest = before.urls interest ++ after.urls interest) ∧
      whole.rows = before.rows ++ after.rows := by
  intro whole before after
  have hwhole : whole = ⟨before.rows ++ after.rows, before.skipped + after.skipped⟩ :=
    ofBytes_append hheader hfirst second
  rw [hwhole]
  refine ⟨?_, rfl, ?_, rfl⟩
  · exact List.length_append
  · intro interest
    exact List.filterMap_append

-- A header behind a mark. The parts under it begin with the second byte of a line end.
def markedHeader : Csv.Bytes := 0xEF :: 0xBB :: 0xBF :: encode "tagIds,primaryViewUrl\r".toList

-- A row, and a record that is no text
def brokenPart : Csv.Bytes := encode "\n[2],http://a\r\n\"[2]\r\n\",".toList ++ [0xFF, 0x0D]

-- A quote that is not closed
def openPart : Csv.Bytes := encode "\n[2],\"http://b\r\n".toList

theorem markedHeader_isHeader : IsHeader markedHeader where
  ends := ⟨⟨markedHeader.dropLast, 0x0D, by decide, by decide⟩, by decide⟩
  single := ⟨[encode "tagIds".toList, encode "primaryViewUrl".toList], by decide⟩

theorem brokenPart_endsLine : EndsLine (markedHeader ++ brokenPart) where
  last := ⟨(markedHeader ++ brokenPart).dropLast, 0x0D, by decide, by decide⟩
  outside := by decide

theorem parts_are_read_apart_broken :
    let whole := ofBytes (markedHeader ++ brokenPart ++ openPart)
    IsHeader markedHeader ∧ EndsLine (markedHeader ++ brokenPart) ∧ whole.size = 2 ∧
      whole.skipped = 1 ∧ whole.urls [2] = ["http://a", "http://b\r\n"] := by
  intro whole
  obtain ⟨hsize, hskipped, hurls, -⟩ :=
    parts_are_read_apart markedHeader_isHeader brokenPart_endsLine openPart
  refine ⟨markedHeader_isHeader, brokenPart_endsLine, hsize.trans ?_, hskipped.trans ?_,
    (hurls [2]).trans ?_⟩
  · decide
  · decide
  · decide

end Blocklist.Dataset
