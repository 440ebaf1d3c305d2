import Blocklist.Proofs.Dataset.TextTable
-- The wanted cells of a table that is text. They make the row of their record, but only if the
-- record has all its other cells.
namespace Blocklist.Dataset

open Csv Text

variable {columns cells : List String} {later : List (List String)} {i j : Nat} {text : String}

-- Each wanted column is named once, at these places
structure NamesWanted (columns : List String) (i j : Nat) : Prop where
  tag : columns[i]? = some tagColumn
  url : columns[j]? = some urlColumn
  tag_once : columns.count tagColumn = 1
  url_once : columns.count urlColumn = 1

-- The record has all its cells, except perhaps at these places
def LacksOnly (columns cells : List String) (i j : Nat) : Prop :=
  ∀ k < columns.length, k < cells.length ∨ k = i ∨ k = j

instance : Decidable (LacksOnly columns cells i j) :=
  inferInstanceAs (Decidable (∀ k < columns.length, k < cells.length ∨ k = i ∨ k = j))

def Row.ofPlaces (i j : Nat) (cells : List String) : Row :=
  ⟨cells[i]? >>= cellText, cells[j]? >>= cellText⟩

theorem not_lt_of_count_one {name : String} (h : columns.count name = 1)
    (hi : columns[i]? = some name) (hj : columns[j]? = some name) : ¬ i < j := by
  intro hless
  have hbefore : 1 ≤ (columns.take j).count name := by
    rw [List.one_le_count_iff]
    exact List.mem_of_getElem? (by rwa [List.getElem?_take_of_lt hless])
  have hbehind : 1 ≤ (columns.drop j).count name := by
    rw [List.one_le_count_iff]
    exact List.mem_of_getElem? (i := 0) (by rwa [List.getElem?_drop, Nat.add_zero])
  rw [← List.take_append_drop j columns, List.count_append] at h
  omega

theorem eq_of_count_one {name : String} (h : columns.count name = 1)
    (hi : columns[i]? = some name) (hj : columns[j]? = some name) : i = j :=
  Nat.le_antisymm (Nat.le_of_not_lt (not_lt_of_count_one h hj hi))
    (Nat.le_of_not_lt (not_lt_of_count_one h hi hj))

theorem cell?_of_count_one {name : String} (h : columns.count name = 1)
    (hi : columns[i]? = some name) (cells : List String) :
    cell? columns cells name = cells[i]? >>= cellText := by
  have hmem : name ∈ columns := List.mem_of_getElem? hi
  have hplace : columns.idxOf name = i := eq_of_count_one h (List.getElem?_idxOf hmem) hi
  rw [cell?, if_pos (List.contains_iff_mem.mpr hmem), hplace]

namespace NamesWanted

theorem ne_nil (h : NamesWanted columns i j) : columns ≠ [] :=
  List.ne_nil_of_mem (List.mem_of_getElem? h.tag)

theorem isWanted_iff (h : NamesWanted columns i j) {k : Nat} (hk : k < columns.length) :
    isWanted columns[k] = true ↔ k = i ∨ k = j := by
  have hget : columns[k]? = some columns[k] := List.getElem?_eq_getElem hk
  rw [isWanted, Bool.or_eq_true, beq_iff_eq, beq_iff_eq]
  constructor
  · rintro (htag | hurl)
    · exact .inl (eq_of_count_one h.tag_once (htag ▸ hget) h.tag)
    · exact .inr (eq_of_count_one h.url_once (hurl ▸ hget) h.url)
  · rintro (rfl | rfl)
    · exact .inl (Option.some.inj (hget.symm.trans h.tag))
    · exact .inr (Option.some.inj (hget.symm.trans h.url))

theorem all_isWanted_iff (h : NamesWanted columns i j) (cells : List String) :
    (columns.drop cells.length).all isWanted = true ↔ LacksOnly columns cells i j := by
  rw [List.all_eq_true]
  constructor
  · intro hall k hk
    by_cases hcell : k < cells.length
    · exact .inl hcell
    · refine .inr ((h.isWanted_iff hk).mp (hall _ ?_))
      rw [List.mem_drop_iff_getElem]
      refine ⟨k - cells.length, by omega, ?_⟩
      congr 1
      omega
  · intro hlacks name hname
    obtain ⟨k, hk, rfl⟩ := List.mem_drop_iff_getElem.mp hname
    refine (h.isWanted_iff (by omega)).mpr ((hlacks _ (by omega)).resolve_left ?_)
    omega

theorem ofCells? (h : NamesWanted columns i j) (cells : List String) :
    Row.ofCells? columns cells =
      if LacksOnly columns cells i j then some (Row.ofPlaces i j cells) else none := by
  rw [Row.ofCells?, cell?_of_count_one h.tag_once h.tag, cell?_of_count_one h.url_once h.url,
    h.tag_once, h.url_once]
  simp only [Nat.le_refl, decide_true, Bool.true_and, h.all_isWanted_iff]
  rfl

-- A record with both wanted cells lacks none just if it is no shorter than the header
theorem lacksOnly_iff (hi : i < cells.length) (hj : j < cells.length) :
    LacksOnly columns cells i j ↔ columns.length ≤ cells.length := by
  constructor
  · intro hlacks
    by_contra hshort
    have hmissing := hlacks cells.length (by omega)
    omega
  · intro hlong k hk
    omega

end NamesWanted

theorem IsTable.ofBytes (h : IsTable text (columns :: later)) :
    Dataset.ofBytes (encode text.toList) = ⟨later.filterMap (Row.ofCells? columns),
      (later.map (Row.ofCells? columns)).countP Option.isNone⟩ := by
  have hrows : (later.map (List.map cellBytes)).map (Row.ofRecord? (some columns)) =
      later.map (Row.ofCells? columns) := by
    rw [List.map_map]
    refine List.map_congr_left fun cells _ => ?_
    rw [Function.comp_apply, Row.ofRecord?, texts?_map_cellBytes]
    rfl
  rw [Dataset.ofBytes, show records _ = _ from h, List.map_cons, ofRecords, texts?_map_cellBytes]
  simp only [hrows, List.filterMap_map, Function.id_comp]

namespace NamesWanted

-- The records that lack no other cell are the rows, the rest are skipped
theorem filterMap_ofCells? (h : NamesWanted columns i j) (later : List (List String)) :
    later.filterMap (Row.ofCells? columns) =
      (later.filter fun cells => LacksOnly columns cells i j).map (Row.ofPlaces i j) := by
  induction later with
  | nil => rfl
  | cons cells later ih =>
    by_cases hlacks : LacksOnly columns cells i j
    · rw [List.filterMap_cons_some (by rw [h.ofCells?, if_pos hlacks]), ih,
        List.filter_cons_of_pos (by simpa using hlacks), List.map_cons]
    · rw [List.filterMap_cons_none (by rw [h.ofCells?, if_neg hlacks]), ih,
        List.filter_cons_of_neg (by simpa using hlacks)]

end NamesWanted

theorem IsTable.size_add_skipped (h : IsTable text (columns :: later)) :
    (Dataset.ofBytes (encode text.toList)).size + (Dataset.ofBytes (encode text.toList)).skipped =
      later.length := by
  rw [h.ofBytes, size, List.length_filterMap_eq_countP, List.countP_map,
    List.length_eq_countP_add_countP fun cells => (Row.ofCells? columns cells).isSome]
  exact congrArg _ (List.countP_congr fun cells _ => by simp)

-- Each text is read as a table with cells of text. Below a header that names both wanted columns
-- once there may be any records. The rows are the wanted cells of the records that lack no other
-- cell, and so are the lists to fetch. A record with both wanted cells is kept just if it is no
-- shorter than the header.
theorem wanted_cells_make_the_rows (columns : List String) (later : List (List String))
    (i j : Nat) (hnames : NamesWanted columns i j) :
    (∀ text, ∃ table, IsTable text table) ∧
    ((∀ cells ∈ later, cells ≠ []) → ∃ text, IsTable text (columns :: later)) ∧
    ∀ text, IsTable text (columns :: later) →
      let d := ofBytes (encode text.toList)
      let kept := later.filter fun cells => LacksOnly columns cells i j
      d.rows = kept.map (Row.ofPlaces i j) ∧ d.size + d.skipped = later.length ∧
        (∀ interest, d.urls interest =
          kept.filterMap fun cells => (Row.ofPlaces i j cells).candidate? interest) ∧
        ∀ cells ∈ later, i < cells.length → j < cells.length →
          (cells ∈ kept ↔ columns.length ≤ cells.length) := by
  refine ⟨exists_table, fun hcells => ?_, ?_⟩
  · exact exists_text_of_table (List.forall_mem_cons.mpr ⟨hnames.ne_nil, hcells⟩)
  intro text htable d kept
  have hrows : d.rows = kept.map (Row.ofPlaces i j) := by
    rw [show d = _ from htable.ofBytes]
    exact hnames.filterMap_ofCells? later
  refine ⟨hrows, htable.size_add_skipped, fun interest => ?_, fun cells hcells hi hj => ?_⟩
  · rw [urls, hrows, List.filterMap_map]
    rfl
  · rw [List.mem_filter, decide_eq_true_iff, NamesWanted.lacksOnly_iff hi hj, and_iff_right hcells]

-- A mark, two other columns, and records of five, three and two cells under a header of four
def marked : String :=
  "\uFEFFid,primaryViewUrl,name,tagIds\r\n" ++
    "1,http://a.example/l,\"the \"\"a\"\", old\",[2],more\n" ++
    "2,http://b.example/l,b\n3,http://c.example/l\n"

def markedRecords : List (List String) :=
  [["1", "http://a.example/l", "the \"a\", old", "[2]", "more"],
    ["2", "http://b.example/l", "b"], ["3", "http://c.example/l"]]

theorem wanted_cells_make_the_rows_marked :
    NamesWanted ["id", "primaryViewUrl", "name", "tagIds"] 3 1 ∧
    IsTable marked (["id", "primaryViewUrl", "name", "tagIds"] :: markedRecords) ∧
    (∃ text, IsTable text (["id", "primaryViewUrl", "name", "tagIds"] :: markedRecords)) ∧
    (ofBytes (encode marked.toList)).rows =
      [⟨some "[2]", some "http://a.example/l"⟩, ⟨none, some "http://b.example/l"⟩] ∧
    (ofBytes (encode marked.toList)).urls [2] = ["http://a.example/l"] ∧
    (ofBytes (encode marked.toList)).skipped = 1 := by
  have hnames : NamesWanted ["id", "primaryViewUrl", "name", "tagIds"] 3 1 := by
    constructor <;> decide
  have htable :
      IsTable marked (["id", "primaryViewUrl", "name", "tagIds"] :: markedRecords) := by
    rw [IsTable]
    decide +kernel
  obtain ⟨-, hwritten, hall⟩ := wanted_cells_make_the_rows _ markedRecords 3 1 hnames
  obtain ⟨hrows, hsize, hurls, -⟩ := hall marked htable
  refine ⟨hnames, htable, hwritten (by decide), hrows.trans (by decide),
    (hurls [2]).trans (by decide +kernel), ?_⟩
  rw [size, hrows] at hsize
  exact Nat.add_left_cancel (hsize.trans (by decide : 3 = 2 + 1))

-- The record has both wanted cells and lacks the cell of the name. It is skipped.
theorem not_every_record_with_wanted_cells_is_kept :
    ¬ ∀ (text : String) (columns : List String) (later : List (List String)) (i j : Nat),
      IsTable text (columns :: later) → NamesWanted columns i j →
      ∀ cells ∈ later, i < cells.length → j < cells.length →
        Row.ofPlaces i j cells ∈ (ofBytes (encode text.toList)).rows := by
  intro hkept
  have htable : IsTable "tagIds,primaryViewUrl,name\n[2],http://a.example/l\n"
      [["tagIds", "primaryViewUrl", "name"], ["[2]", "http://a.example/l"]] := by
    rw [IsTable]
    decide +kernel
  have hrow := hkept "tagIds,primaryViewUrl,name\n[2],http://a.example/l\n"
    ["tagIds", "primaryViewUrl", "name"] [["[2]", "http://a.example/l"]] 0 1 htable
    (by constructor <;> decide) ["[2]", "http://a.example/l"] (by decide) (by decide) (by decide)
  have hnone : (ofBytes (encode
      "tagIds,primaryViewUrl,name\n[2],http://a.example/l\n".toList)).rows = [] := by
    decide +kernel
  rw [hnone] at hrow
  exact List.not_mem_nil hrow

end Blocklist.Dataset
