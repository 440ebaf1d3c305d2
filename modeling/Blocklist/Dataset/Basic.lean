import Blocklist.Dataset.Csv
import Blocklist.Dataset.Row
import Blocklist.Text.Utf8
-- The dataset: which filter lists there are.
namespace Blocklist.Dataset

open Blocklist.Text

def tagColumn : String := "tagIds"
def urlColumn : String := "primaryViewUrl"

def isWanted (column : String) : Bool :=
  column == tagColumn || column == urlColumn

-- An empty cell counts as absent
def cellText (cell : String) : Option String :=
  if cell.isEmpty then none else some cell

-- The cell of a record in the column of that name
def cell? (columns cells : List String) (name : String) : Option String :=
  if columns.contains name then cells[columns.idxOf name]? >>= cellText else none

-- The row of a record under named columns. A record may be short of wanted cells but
-- of no others, and no wanted column may be named twice.
def Row.ofCells? (columns cells : List String) : Option Row :=
  if columns.count tagColumn ≤ 1 && columns.count urlColumn ≤ 1 &&
      (columns.drop cells.length).all isWanted then
    some ⟨cell? columns cells tagColumn, cell? columns cells urlColumn⟩
  else none

-- The row of a record without column names: its first two cells
def Row.ofPositions (cells : List String) : Row :=
  ⟨cells[0]? >>= cellText, cells[1]? >>= cellText⟩

-- The cells of a record, if all of them are text
def texts? (record : List Csv.Bytes) : Option (List String) :=
  record.mapM fun cell => (decode? cell).map String.ofList

-- The row of a record. Without readable column names the position counts.
def Row.ofRecord? (columns : Option (List String)) (record : List Csv.Bytes) : Option Row := do
  let cells ← texts? record
  match columns with
  | some columns => Row.ofCells? columns cells
  | none => some (Row.ofPositions cells)

end Blocklist.Dataset

namespace Blocklist

structure Dataset where
  rows : List Dataset.Row
  -- number of records that were no rows
  skipped : Nat

namespace Dataset

def ofRows (rows : List Row) : Dataset := ⟨rows, 0⟩

-- The first record names the columns, and each other one is judged by itself
def ofRecords : List (List Csv.Bytes) → Dataset
  | [] => ⟨[], 0⟩
  | header :: records =>
    let rows := records.map (Row.ofRecord? (texts? header))
    ⟨rows.filterMap id, rows.countP Option.isNone⟩

def ofBytes (bytes : List UInt8) : Dataset :=
  ofRecords (Csv.records bytes)

-- What is said of a record that is no row
def skipRemark (fault : String) : String := "Skipping malformed dataset row: " ++ fault

def size (d : Dataset) : Nat := d.rows.length

-- The lists to fetch for the tags of `interest`, in the order of the dataset
def urls (d : Dataset) (interest : List Nat) : List String :=
  d.rows.filterMap (Row.candidate? interest)

end Dataset

end Blocklist
