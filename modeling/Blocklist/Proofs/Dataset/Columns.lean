import Blocklist.Dataset.Basic
import Blocklist.Proofs.Dataset.Quoted
import Blocklist.Proofs.Text.Utf8
-- Datasets that are written as tables with named columns, the wanted ones among any
-- others. Such a table is read as the rows that it was made of.
namespace Blocklist.Dataset

open Blocklist.Text Blocklist.Csv

-- A named column. Each thing has a cell in it.
structure Column (α : Type) where
  name : String
  cell : α → String

-- The two wanted columns, over things that hold rows. What is absent is an empty cell.
def Column.tags {α : Type} (row : α → Row) : Column α :=
  ⟨tagColumn, fun a => (row a).tagIds.getD ""⟩

def Column.urls {α : Type} (row : α → Row) : Column α :=
  ⟨urlColumn, fun a => (row a).url.getD ""⟩

def cellBytes (cell : String) : Bytes := encode cell.toList

-- The record of the names of the columns, and a record for each thing
def tableBytes {α : Type} (columns : List (Column α)) (header : LineEnd)
    (things : List (α × LineEnd)) : Bytes :=
  write ((columns.map fun c => cellBytes c.name, header) ::
    things.map fun thing => (columns.map fun c => cellBytes (c.cell thing.1), thing.2))

-- A row in which nothing is there but empty
def Row.withoutEmpty (row : Row) : Row := ⟨row.tagIds >>= cellText, row.url >>= cellText⟩

theorem tagColumn_ne_urlColumn : tagColumn ≠ urlColumn := by decide

section

variable {α : Type} {row : α → Row} {columns further : List (Column α)} {c : Column α}

theorem texts?_map_cellBytes (cells : List String) : texts? (cells.map cellBytes) = some cells := by
  have hcell : ∀ cell, (decode? (cellBytes cell)).map String.ofList = some cell := by
    intro cell
    rw [cellBytes, decode?_encode, Option.map_some, String.ofList_toList]
  induction cells with
  | nil => rfl
  | cons cell cells ih =>
      simp only [texts?] at ih
      simp [texts?, hcell, ih]

-- The cell in a column is found by the name of the column if no other has that name
theorem getElem?_idxOf_name (hc : c ∈ columns) (hone : ∀ d ∈ columns, d.name = c.name → d = c)
    (a : α) :
    (columns.map fun d => d.cell a)[(columns.map Column.name).idxOf c.name]? =
      some (c.cell a) := by
  induction columns with
  | nil => cases hc
  | cons d columns ih =>
      by_cases hname : d.name = c.name
      · obtain rfl := hone d List.mem_cons_self hname
        simp
      · have hne : d ≠ c := fun h => hname (congrArg Column.name h)
        have hother : (d.name == c.name) = false := beq_eq_false_iff_ne.mpr hname
        rw [List.map_cons, List.map_cons, List.idxOf_cons, hother]
        exact ih ((List.mem_cons.mp hc).resolve_left hne.symm)
          fun e he => hone e (List.mem_cons_of_mem d he)

theorem cell?_of_mem (hc : c ∈ columns) (hone : ∀ d ∈ columns, d.name = c.name → d = c) (a : α) :
    cell? (columns.map Column.name) (columns.map fun d => d.cell a) c.name =
      cellText (c.cell a) := by
  have hcontains : (columns.map Column.name).contains c.name = true := by
    simpa using ⟨c, hc, rfl⟩
  rw [cell?, if_pos hcontains, getElem?_idxOf_name hc hone]
  rfl

-- The columns of a table: the wanted ones, and others of other names, in any order
structure Arranges (row : α → Row) (further columns : List (Column α)) : Prop where
  perm : columns.Perm (Column.tags row :: Column.urls row :: further)
  others : ∀ c ∈ further, c.name ≠ tagColumn ∧ c.name ≠ urlColumn

theorem Arranges.mem_tags (h : Arranges row further columns) : Column.tags row ∈ columns :=
  h.perm.mem_iff.mpr List.mem_cons_self

theorem Arranges.mem_urls (h : Arranges row further columns) : Column.urls row ∈ columns :=
  h.perm.mem_iff.mpr (List.mem_cons_of_mem _ List.mem_cons_self)

theorem Arranges.eq_tags (h : Arranges row further columns) :
    ∀ c ∈ columns, c.name = tagColumn → c = Column.tags row := by
  intro c hc hname
  rcases List.mem_cons.mp (h.perm.mem_iff.mp hc) with rfl | hc
  · rfl
  · rcases List.mem_cons.mp hc with rfl | hc
    · exact absurd hname tagColumn_ne_urlColumn.symm
    · exact absurd hname (h.others c hc).1

theorem Arranges.eq_urls (h : Arranges row further columns) :
    ∀ c ∈ columns, c.name = urlColumn → c = Column.urls row := by
  intro c hc hname
  rcases List.mem_cons.mp (h.perm.mem_iff.mp hc) with rfl | hc
  · exact absurd hname tagColumn_ne_urlColumn
  · rcases List.mem_cons.mp hc with rfl | hc
    · rfl
    · exact absurd hname (h.others c hc).2

-- No wanted column is named twice
theorem Arranges.count_le_one (h : Arranges row further columns) :
    (columns.map Column.name).count tagColumn ≤ 1 ∧
      (columns.map Column.name).count urlColumn ≤ 1 := by
  have hnames := h.perm.map Column.name
  have htag : (further.map Column.name).count tagColumn = 0 :=
    List.count_eq_zero.mpr fun hmem => by
      obtain ⟨c, hc, hname⟩ := List.mem_map.mp hmem
      exact (h.others c hc).1 hname
  have hurl : (further.map Column.name).count urlColumn = 0 :=
    List.count_eq_zero.mpr fun hmem => by
      obtain ⟨c, hc, hname⟩ := List.mem_map.mp hmem
      exact (h.others c hc).2 hname
  rw [hnames.count_eq, hnames.count_eq]
  simp [Column.tags, Column.urls, htag, hurl, tagColumn_ne_urlColumn, tagColumn_ne_urlColumn.symm]

theorem Arranges.ofCells? (h : Arranges row further columns) (a : α) :
    Row.ofCells? (columns.map Column.name) (columns.map fun c => c.cell a) =
      some (row a).withoutEmpty := by
  have htag := cell?_of_mem h.mem_tags h.eq_tags a
  have hurl := cell?_of_mem h.mem_urls h.eq_urls a
  have habsent : ∀ cell : Option String, cellText (cell.getD "") = cell >>= cellText := by
    intro cell
    cases cell <;> rfl
  simp only [Column.tags, Column.urls, habsent] at htag hurl
  have hnone : (columns.map Column.name).drop (columns.map fun c => c.cell a).length = [] := by
    simp
  simp only [Row.ofCells?, h.count_le_one, hnone, htag, hurl, List.all_nil, decide_true,
    Bool.and_self, ite_true, Row.withoutEmpty]

end

theorem tags_withoutEmpty (row : Row) : row.withoutEmpty.tags = row.tags := by
  obtain ⟨_ | cell, url⟩ := row
  · rfl
  · by_cases hempty : cell = ""
    · subst hempty
      rfl
    · simp [Row.withoutEmpty, Row.tags, cellText, hempty]

-- An empty location is none of a list, and an empty tag list has no tag
theorem candidate?_withoutEmpty (interest : List Nat) (row : Row) :
    row.withoutEmpty.candidate? interest = row.candidate? interest := by
  by_cases hempty : row.url = some ""
  · simp [Row.candidate?, Row.withoutEmpty, cellText, hempty]
  · have hurl : row.withoutEmpty.url = row.url := by
      cases h : row.url with
      | none => simp [Row.withoutEmpty, h]
      | some cell =>
          have hcell : cell ≠ "" := fun he => hempty (h.trans (congrArg some he))
          simp [Row.withoutEmpty, h, cellText, hcell]
    simp only [Row.candidate?, tags_withoutEmpty, hurl]

-- The header is the first record of the table
theorem records_tableBytes {α : Type} {columns : List (Column α)} (h : columns ≠ [])
    (header : LineEnd) (things : List (α × LineEnd)) :
    records (tableBytes columns header things) =
      (columns.map Column.name).map cellBytes ::
        things.map fun thing => (columns.map fun c => c.cell thing.1).map cellBytes := by
  rw [tableBytes, records_write]
  · simp [Function.comp_def]
  · intro line hline
    rcases List.mem_cons.mp hline with rfl | hline
    · simpa using h
    · obtain ⟨thing, -, rfl⟩ := List.mem_map.mp hline
      simpa using h

-- Each record after the header is the row of its thing
theorem ofBytes_tableBytes {α : Type} {row : α → Row} {columns further : List (Column α)}
    (h : Arranges row further columns) (header : LineEnd) (things : List (α × LineEnd)) :
    ofBytes (tableBytes columns header things) =
      ⟨things.map fun thing => (row thing.1).withoutEmpty, 0⟩ := by
  have hrows : (things.map fun thing => (columns.map fun c => c.cell thing.1).map cellBytes).map
      (Row.ofRecord? (some (columns.map Column.name))) =
        things.map fun thing => some (row thing.1).withoutEmpty := by
    rw [List.map_map]
    refine List.map_congr_left fun thing _ => ?_
    rw [Function.comp_apply, Row.ofRecord?, texts?_map_cellBytes]
    exact h.ofCells? thing.1
  rw [ofBytes, records_tableBytes (List.ne_nil_of_mem h.mem_tags), ofRecords,
    texts?_map_cellBytes]
  simp only [hrows]
  simp [List.filterMap_map, Function.comp_def, List.countP_map]

-- The table of some rows and the rows themselves make the same dataset, for all that can
-- be asked of it. The further columns and the order of the columns do not matter.
theorem table_is_read_as_rows {α : Type} {row : α → Row} {columns further : List (Column α)}
    (h : Arranges row further columns) (header : LineEnd) (things : List (α × LineEnd)) :
    let read := ofBytes (tableBytes columns header things)
    let collected := ofRows (things.map fun thing => row thing.1)
    read.size = collected.size ∧ read.skipped = 0 ∧
      (∀ interest, read.urls interest = collected.urls interest) ∧
      read.rows = collected.rows.map Row.withoutEmpty := by
  have hread := ofBytes_tableBytes h header things
  simp only [hread]
  refine ⟨by simp [size, ofRows], trivial, ?_, by simp [ofRows]⟩
  intro interest
  simp only [urls, ofRows, List.filterMap_map, Function.comp_def, candidate?_withoutEmpty]

-- Notes beside the rows, in a column between the wanted ones that stand the other way round
def noteColumn : Column (Row × String) := ⟨"a \"note\",\r\n", Prod.snd⟩

def notedColumns : List (Column (Row × String)) :=
  [Column.urls Prod.fst, noteColumn, Column.tags Prod.fst]

theorem notedColumns_arranges : Arranges Prod.fst [noteColumn] notedColumns := by
  constructor
  case perm =>
    refine (List.reverse_perm notedColumns).symm.trans ?_
    exact (List.Perm.swap _ _ []).cons _
  case others =>
    intro c hc
    rw [List.mem_singleton.mp hc]
    decide

theorem table_is_read_as_rows_noted :
    let quoted : Row := ⟨some "[\"ads\", 2]", some "https://a.example/\r\n\"x\",y"⟩
    let empty : Row := ⟨some "[2]", some ""⟩
    let read := ofBytes (tableBytes notedColumns .carriageReturn
      [((quoted, "\",\n"), .both), ((empty, ""), .lineFeed)])
    Arranges Prod.fst [noteColumn] notedColumns ∧ read.size = 2 ∧ read.skipped = 0 ∧
      read.urls [2] = ["https://a.example/\r\n\"x\",y"] ∧
      read.rows = [quoted, ⟨some "[2]", none⟩] := by
  intro quoted empty read
  obtain ⟨hsize, hskipped, hurls, hrows⟩ := table_is_read_as_rows notedColumns_arranges
    .carriageReturn [((quoted, "\",\n"), .both), ((empty, ""), .lineFeed)]
  refine ⟨notedColumns_arranges, hsize.trans rfl, hskipped, (hurls [2]).trans ?_, hrows.trans ?_⟩
  · decide
  · decide

end Blocklist.Dataset
