import Blocklist.Domain.Extract
import Blocklist.Proofs.Text.Ascending
import Blocklist.Proofs.Text.Blank
import Blocklist.Proofs.Text.Lines
import Mathlib.Data.List.Forall2
-- Extraction line by line and matcher by matcher: what is found in a text is the union of
-- what each matcher finds in each line.
namespace Blocklist.Domain

open Blocklist.Text

variable {matchers more : List Matcher} {line text a b host : List Char} {c : Char}

theorem mem_domainsOfLine : host ∈ domainsOfLine matchers line ↔
    isSkipped (trim line) = false ∧
      ∃ find ∈ matchers, ∃ candidate, find (trim line) = some candidate ∧
        normalize? candidate = some host := by
  cases hskipped : isSkipped (trim line) <;>
    simp [domainsOfLine, hskipped, List.mem_filterMap, Option.bind_eq_some_iff]

theorem domainsOfLine_congr {line' : List Char} (h : trim line = trim line') :
    domainsOfLine matchers line = domainsOfLine matchers line' := by
  rw [domainsOfLine, domainsOfLine, h]

-- Some line of the text has this domain
def Yields (matchers : List Matcher) (text host : List Char) : Prop :=
  ∃ line ∈ text.splitOn '\n', host ∈ domainsOfLine matchers line

theorem mem_extractWith {text d : String} :
    d ∈ extractWith matchers text ↔ Yields matchers text.toList d.toList := by
  rw [extractWith, mem_ascending, List.mem_map]
  constructor
  · rintro ⟨host, hhost, rfl⟩
    rw [String.toList_ofList]
    exact List.mem_flatMap.mp hhost
  · intro h
    exact ⟨d.toList, List.mem_flatMap.mpr h, String.ofList_toList⟩

-- What is extracted is told by which domains it has, for they come in ascending order
theorem extractWith_congr {text text' : String}
    (h : ∀ host, Yields matchers text.toList host ↔ Yields more text'.toList host) :
    extractWith matchers text = extractWith more text' := by
  refine (pairwise_ascending _).eq_of_mem_iff (pairwise_ascending _) fun d => ?_
  exact mem_extractWith.trans ((h d.toList).trans mem_extractWith.symm)

-- The two unions

theorem yields_append_line :
    Yields matchers (a ++ '\n' :: b) host ↔ Yields matchers a host ∨ Yields matchers b host := by
  simp only [Yields, List.splitOn_append_cons_self, List.mem_append, or_and_right, exists_or]

theorem yields_append_matchers :
    Yields (matchers ++ more) text host ↔ Yields matchers text host ∨ Yields more text host := by
  simp only [Yields, mem_domainsOfLine, List.mem_append, or_and_right, exists_or, and_or_left]

theorem yields_matchers_congr (h : ∀ find, find ∈ matchers ↔ find ∈ more) :
    Yields matchers text host ↔ Yields more text host := by
  simp only [Yields, mem_domainsOfLine, h]

-- A single line, and none

theorem yields_line (h : '\n' ∉ line) :
    Yields matchers line host ↔ host ∈ domainsOfLine matchers line := by
  simp [Yields, List.splitOn_eq_singleton h]

theorem not_yields_nil : ¬ Yields matchers [] host := by
  rw [yields_line (by simp), mem_domainsOfLine]
  exact fun h => absurd h.1 (by decide)

-- Blanks around a text, line ends among them

theorem yields_cons_blank (hc : isBlank c = true) :
    Yields matchers (c :: text) host ↔ Yields matchers text host := by
  by_cases hend : c = '\n'
  · rw [hend, ← List.nil_append ('\n' :: text), yields_append_line, or_iff_right not_yields_nil]
  · have hline : ∀ line, '\n' ∉ line →
        (Yields matchers (c :: line) host ↔ Yields matchers line host) := fun line h => by
      rw [yields_line (List.not_mem_cons_of_ne_of_not_mem (Ne.symm hend) h), yields_line h,
        domainsOfLine_congr (trim_cons_blank hc line)]
    induction text using lines_induction with
    | line line h => exact hline line h
    | append line text h _ =>
        rw [← List.cons_append, yields_append_line, yields_append_line, hline line h]

theorem yields_concat_blank (hc : isBlank c = true) :
    Yields matchers (text ++ [c]) host ↔ Yields matchers text host := by
  by_cases hend : c = '\n'
  · rw [hend, yields_append_line, or_iff_left not_yields_nil]
  · induction text using lines_induction with
    | line line h =>
        have hconcat : '\n' ∉ line ++ [c] := by simp [h, Ne.symm hend]
        rw [yields_line hconcat, yields_line h, domainsOfLine_congr (trim_concat_blank hc line)]
    | append line text h ih =>
        rw [List.append_assoc, List.cons_append, yields_append_line, yields_append_line, ih]

-- A line with blanks in front of it and behind it
def Padded (line padded : String) : Prop :=
  ∃ front back : List Char, (∀ c ∈ front, isBlank c = true) ∧ (∀ c ∈ back, isBlank c = true) ∧
    padded.toList = front ++ (line.toList ++ back)

theorem Padded.yields {line padded : String} (h : Padded line padded) :
    Yields matchers padded.toList host ↔ Yields matchers line.toList host := by
  obtain ⟨front, back, hfront, hback, hpadded⟩ := h
  rw [hpadded]
  clear hpadded
  induction front with
  | cons c front ih =>
      rw [List.cons_append, yields_cons_blank (hfront c List.mem_cons_self)]
      exact ih fun other h => hfront other (List.mem_cons_of_mem c h)
  | nil =>
      rw [List.nil_append]
      induction back using List.reverseRecOn with
      | nil => rw [List.append_nil]
      | append_singleton back c ih =>
          rw [← List.append_assoc, yields_concat_blank (hback c (by simp))]
          exact ih fun other h => hback other (List.mem_append_left [c] h)

-- Many lines

theorem yields_intercalate (lines : List String) :
    Yields matchers ("\n".intercalate lines).toList host ↔
      ∃ line ∈ lines, Yields matchers line.toList host := by
  induction lines with
  | nil => simpa using not_yields_nil
  | cons line rest ih =>
      by_cases hrest : rest = []
      · simp [hrest]
      · have hlines : ("\n".intercalate (line :: rest)).toList =
            line.toList ++ '\n' :: ("\n".intercalate rest).toList := by
          rw [String.intercalate_cons_of_ne_nil hrest]
          simp
        rw [hlines, yields_append_line, ih, List.exists_mem_cons_iff]

-- What ends a line
inductive LineEnd where
  | lineFeed
  | withReturn

def LineEnd.mark : LineEnd → String
  | .lineFeed => "\n"
  | .withReturn => "\r\n"

-- Lines, each with its own line end, and a last one without
def withEnds : List (String × LineEnd) → String → String
  | [], last => last
  | (line, ending) :: rest, last => line ++ ending.mark ++ withEnds rest last

theorem yields_append_end (ending : LineEnd) :
    Yields matchers (a ++ (ending.mark.toList ++ b)) host ↔
      Yields matchers a host ∨ Yields matchers b host := by
  cases ending with
  | lineFeed => exact yields_append_line
  | withReturn =>
      have hsplit : a ++ (LineEnd.withReturn.mark.toList ++ b) = (a ++ ['\r']) ++ '\n' :: b := by
        simp [LineEnd.mark]
      rw [hsplit, yields_append_line, yields_concat_blank (by decide)]

theorem yields_withEnds (lines : List (String × LineEnd)) (last : String) :
    Yields matchers (withEnds lines last).toList host ↔
      (∃ line ∈ lines.map Prod.fst, Yields matchers line.toList host) ∨
        Yields matchers last.toList host := by
  induction lines with
  | nil => simp [withEnds]
  | cons first rest ih =>
      obtain ⟨line, ending⟩ := first
      rw [withEnds, String.toList_append, String.toList_append, List.append_assoc,
        yields_append_end, ih, List.map_cons, List.exists_mem_cons_iff, or_assoc]

-- Extraction is a union over lines and over matchers. So the order and repetition of either
-- make no difference, nor do the line ends and the blanks around lines.
theorem extracts_the_union (ms ms' : List Matcher) :
    (∀ a b d, d ∈ extractWith ms (a ++ "\n" ++ b) ↔
      d ∈ extractWith ms a ∨ d ∈ extractWith ms b) ∧
    (∀ text d, d ∈ extractWith (ms ++ ms') text ↔
      d ∈ extractWith ms text ∨ d ∈ extractWith ms' text) ∧
    (∀ lines lines' : List String, (∀ line, line ∈ lines ↔ line ∈ lines') →
      extractWith ms ("\n".intercalate lines) = extractWith ms ("\n".intercalate lines')) ∧
    ((∀ find, find ∈ ms ↔ find ∈ ms') → ∀ text, extractWith ms text = extractWith ms' text) ∧
    (∀ lines lines' last, lines.map Prod.fst = lines'.map Prod.fst →
      extractWith ms (withEnds lines last) = extractWith ms (withEnds lines' last)) ∧
    (∀ text (ending : LineEnd), extractWith ms (text ++ ending.mark) = extractWith ms text) ∧
    (∀ lines lines', List.Forall₂ Padded lines lines' →
      extractWith ms ("\n".intercalate lines') = extractWith ms ("\n".intercalate lines)) := by
  refine ⟨fun a b d => ?_, fun text d => ?_, fun lines lines' h => ?_, fun h text => ?_,
    fun lines lines' last h => ?_, fun text ending => ?_, fun lines lines' h => ?_⟩
  · have hsplit : (a ++ "\n" ++ b).toList = a.toList ++ '\n' :: b.toList := by simp
    simp only [mem_extractWith, hsplit, yields_append_line]
  · simp only [mem_extractWith, yields_append_matchers]
  · refine extractWith_congr fun host => ?_
    simp only [yields_intercalate, h]
  · exact extractWith_congr fun host => yields_matchers_congr h
  · refine extractWith_congr fun host => ?_
    rw [yields_withEnds, yields_withEnds, h]
  · refine extractWith_congr fun host => ?_
    have hend : (text ++ ending.mark).toList = text.toList ++ (ending.mark.toList ++ []) := by simp
    rw [hend, yields_append_end, or_iff_left not_yields_nil]
  · refine extractWith_congr fun host => ?_
    rw [yields_intercalate, yields_intercalate]
    induction h with
    | nil => rfl
    | cons hline _ ih => rw [List.exists_mem_cons_iff, List.exists_mem_cons_iff, hline.yields, ih]

-- Matchers and lines in another order and some of them twice, a return before a line end, and
-- blanks around lines, of which one is a line end itself
theorem extracts_the_union_shuffled :
    let ms := [Matcher.anchor, Matcher.generic]
    let lines := ["||b.org^", "a.com"]
    extractWith ms ("\n".intercalate ["a.com", "||b.org^", "a.com"]) =
      extractWith ms ("\n".intercalate lines) ∧
    extractWith [Matcher.generic, Matcher.anchor, Matcher.generic] ("\n".intercalate lines) =
      extractWith ms ("\n".intercalate lines) ∧
    extractWith ms (withEnds [("||b.org^", .withReturn)] "a.com") =
      extractWith ms (withEnds [("||b.org^", .lineFeed)] "a.com") ∧
    extractWith ms ("\n".intercalate ["\u2003||b.org^\n", "a.com\t"]) =
      extractWith ms ("\n".intercalate lines) := by
  have hfirst : Padded "||b.org^" "\u2003||b.org^\n" :=
    ⟨['\u2003'], ['\n'], List.forall_mem_singleton.mpr rfl, List.forall_mem_singleton.mpr rfl, rfl⟩
  have hsecond : Padded "a.com" "a.com\t" :=
    ⟨[], ['\t'], List.forall_mem_nil _, List.forall_mem_singleton.mpr rfl, rfl⟩
  obtain ⟨-, -, horder, hmatchers, hends, -, hblanks⟩ :=
    extracts_the_union [Matcher.anchor, Matcher.generic]
      [Matcher.generic, Matcher.anchor, Matcher.generic]
  refine ⟨horder _ _ fun line => ?_, (hmatchers (fun find => ?_) _).symm, hends _ _ _ rfl,
    hblanks _ _ (.cons hfirst (.cons hsecond .nil))⟩
  · simp only [List.mem_cons, List.not_mem_nil, or_false]
    tauto
  · simp only [List.mem_cons, List.not_mem_nil, or_false]
    tauto

-- Two lists that share a domain

def firstList : String := "||b.example^\n||a.example^"

def secondList : String := "0.0.0.0 a.example\n||c.example^"

theorem extract_firstList : extract firstList = ["a.example", "b.example"] :=
  ascending_eq (by decide) (by decide) (by decide)

theorem extract_secondList : extract secondList = ["a.example", "c.example"] :=
  ascending_eq (by decide) (by decide) (by decide)

end Blocklist.Domain
