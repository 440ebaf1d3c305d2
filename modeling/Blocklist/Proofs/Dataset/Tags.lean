import Blocklist.Dataset.Row
import Blocklist.Proofs.Text.Lines
import Blocklist.Proofs.Text.Numeral
import Mathlib.Algebra.Ring.Nat
-- Tags in a raw cell. They are the numbers in the first list of the cell, which is between
-- brackets on one line.
namespace Blocklist.Dataset

open Text

section

variable {α : Type} {c : α} {front rest front' rest' : List α}

-- The first of some equal elements is not behind another, and the last not before it

theorem length_le_of_first (h : front ++ c :: rest = front' ++ c :: rest') (hfirst : c ∉ front) :
    front.length ≤ front'.length := by
  by_contra hless
  have hget : (front ++ c :: rest)[front'.length]? = some c := by
    rw [h, List.getElem?_append_right (Nat.le_refl _), Nat.sub_self]
    rfl
  rw [List.getElem?_append_left (by omega)] at hget
  exact hfirst (List.mem_of_getElem? hget)

theorem length_le_of_last (h : front ++ c :: rest = front' ++ c :: rest') (hlast : c ∉ rest) :
    front'.length ≤ front.length := by
  have hreverse : rest.reverse ++ c :: front.reverse = rest'.reverse ++ c :: front'.reverse := by
    simpa using congrArg List.reverse h
  have hless := length_le_of_first hreverse (by simpa using hlast)
  have hlength := congrArg List.length h
  simp only [List.length_append, List.length_cons, List.length_reverse] at hless hlength
  omega

end

variable {raw before items after line text : List Char} {c : Char}

-- A pair of brackets on one line, and what stands before, between and behind them
structure Brackets (raw before items after : List Char) : Prop where
  parts : raw = before ++ '[' :: (items ++ ']' :: after)
  line : '\n' ∉ items

-- The pair that opens first, and of those that open there the one that closes last
structure TagList (raw before items after : List Char) : Prop where
  brackets : Brackets raw before items after
  first : ∀ {before' items' after'}, Brackets raw before' items' after' →
    before.length ≤ before'.length
  last : ∀ {items' after'}, Brackets raw before items' after' → items'.length ≤ items.length

-- What stands in the list of a text, if there is one
inductive Lists (raw : List Char) : Option (List Char) → Prop where
  | nothing (free : ∀ before items after, ¬ Brackets raw before items after) : Lists raw none
  | items {before items after : List Char} (list : TagList raw before items after) :
      Lists raw (some items)

theorem TagList.unique {before' items' after' : List Char} (h : TagList raw before items after)
    (h' : TagList raw before' items' after') : items = items' := by
  have hlength := Nat.le_antisymm (h.first h'.brackets) (h'.first h.brackets)
  have hparts := h.brackets.parts.symm.trans h'.brackets.parts
  obtain ⟨rfl, hrest⟩ := List.append_inj hparts hlength
  have hsame := Nat.le_antisymm (h'.last h.brackets) (h.last h'.brackets)
  exact List.append_inj_left (List.cons.inj hrest).2 hsame

-- Where there is no other bracket of its kind
theorem tagList_of_free (h : Brackets raw before items after) (hopens : '[' ∉ before)
    (hcloses : ']' ∉ after) : TagList raw before items after where
  brackets := h
  first h' := length_le_of_first (h.parts.symm.trans h'.parts) hopens
  last h' := by
    have hrest := List.append_cancel_left (h.parts.symm.trans h'.parts)
    exact length_le_of_last (List.cons.inj hrest).2 hcloses

-- A line with a list

theorem dropWhile_ne_of_not_mem (h : c ∉ text) : text.dropWhile (· != c) = [] :=
  List.dropWhile_eq_nil_iff.mpr fun _ hd => bne_iff_ne.mpr (ne_of_mem_of_not_mem hd h)

theorem dropWhile_ne_append (h : c ∉ before) (rest : List Char) :
    (before ++ c :: rest).dropWhile (· != c) = c :: rest := by
  rw [List.dropWhile_append_of_pos fun _ hd => bne_iff_ne.mpr (ne_of_mem_of_not_mem hd h),
    List.dropWhile_cons_of_neg (by simp)]

namespace Row

theorem beforeLast?_of_not_mem (h : c ∉ text) : beforeLast? c text = none := by
  rw [beforeLast?, dropWhile_ne_of_not_mem (by simpa using h)]

theorem beforeLast?_append (h : c ∉ after) (before : List Char) :
    beforeLast? c (before ++ c :: after) = some before := by
  have hreverse : (before ++ c :: after).reverse = after.reverse ++ c :: before.reverse := by simp
  rw [beforeLast?, hreverse, dropWhile_ne_append (by simpa using h)]
  exact congrArg some before.reverse_reverse

theorem bracketed?_of_not_mem (h : '[' ∉ line) : bracketed? line = none := by
  rw [bracketed?, dropWhile_ne_of_not_mem h]

theorem bracketed?_append (h : '[' ∉ before) (rest : List Char) :
    bracketed? (before ++ '[' :: rest) = beforeLast? ']' rest := by
  rw [bracketed?, dropWhile_ne_append h]

end Row

open Row

theorem lists_bracketed? (hline : '\n' ∉ line) : Lists line (bracketed? line) := by
  by_cases hopens : '[' ∈ line
  case neg =>
    rw [bracketed?_of_not_mem hopens]
    refine .nothing fun before items after h => hopens ?_
    rw [h.parts]
    simp
  case pos =>
    obtain ⟨before, rest, rfl, hfirst⟩ := List.eq_append_cons_of_mem hopens
    rw [bracketed?_append hfirst]
    by_cases hcloses : ']' ∈ rest
    case neg =>
      rw [beforeLast?_of_not_mem hcloses]
      refine .nothing fun before' items after h => hcloses ?_
      -- no pair opens before the first bracket
      have hbegins : before <+: before' := by
        refine List.prefix_of_prefix_length_le (List.prefix_append _ ('[' :: rest)) ?_
          (length_le_of_first h.parts hfirst)
        rw [h.parts]
        exact List.prefix_append _ _
      obtain ⟨more, rfl⟩ := hbegins
      have hrest : '[' :: rest = more ++ '[' :: (items ++ ']' :: after) := by
        refine List.append_cancel_left (h.parts.trans ?_)
        rw [List.append_assoc]
      have hmem : ']' ∈ '[' :: rest := hrest ▸ by simp
      simpa using hmem
    case pos =>
      obtain ⟨after, items, hreverse, hlast⟩ :=
        List.eq_append_cons_of_mem (List.mem_reverse.mpr hcloses)
      obtain rfl : rest = items.reverse ++ ']' :: after.reverse := by
        simpa using congrArg List.reverse hreverse
      have hlast' : ']' ∉ after.reverse := by simpa using hlast
      rw [beforeLast?_append hlast']
      exact .items (tagList_of_free ⟨rfl, fun h => hline (by simp [h])⟩ hfirst hlast')

-- A pair of brackets is on the first line or behind it

theorem Brackets.of_append (h : Brackets (line ++ '\n' :: text) before items after) :
    (∃ after', Brackets line before items after') ∨
      ∃ before', before = line ++ '\n' :: before' ∧ Brackets text before' items after := by
  have hpart : '\n' ∉ '[' :: (items ++ [']']) := by simp [h.line]
  have hparts : before ++ ('[' :: (items ++ [']'])) ++ after = line ++ '\n' :: text := by
    simpa using h.parts.symm
  rcases part_on_line hpart hparts with ⟨rest, hrest, -⟩ | ⟨rest, hrest, htext⟩
  · exact .inl ⟨rest, by simpa using hrest, h.line⟩
  · exact .inr ⟨rest, hrest, by simpa using htext, h.line⟩

theorem Brackets.append_line (h : Brackets line before items after) (text : List Char) :
    Brackets (line ++ '\n' :: text) before items (after ++ '\n' :: text) :=
  ⟨by simp [h.parts], h.line⟩

theorem Brackets.behind (h : Brackets text before items after) (line : List Char) :
    Brackets (line ++ '\n' :: text) (line ++ '\n' :: before) items after :=
  ⟨by simp [h.parts], h.line⟩

theorem TagList.append_line (h : TagList line before items after) (text : List Char) :
    TagList (line ++ '\n' :: text) before items (after ++ '\n' :: text) where
  brackets := h.brackets.append_line text
  first h' := by
    rcases h'.of_append with ⟨_, hline⟩ | ⟨rest, rfl, -⟩
    · exact h.first hline
    · have hlength := congrArg List.length h.brackets.parts
      simp only [List.length_append, List.length_cons] at hlength ⊢
      omega
  last h' := by
    rcases h'.of_append with ⟨_, hline⟩ | ⟨rest, hbefore, -⟩
    · exact h.last hline
    · have hlength := congrArg List.length h.brackets.parts
      simp only [hbefore, List.length_append, List.length_cons] at hlength
      omega

theorem TagList.behind (h : TagList text before items after)
    (hline : ∀ before items after, ¬ Brackets line before items after) :
    TagList (line ++ '\n' :: text) (line ++ '\n' :: before) items after where
  brackets := h.brackets.behind line
  first h' := by
    rcases h'.of_append with ⟨_, hfirst⟩ | ⟨rest, rfl, htext⟩
    · exact absurd hfirst (hline _ _ _)
    · have hless := h.first htext
      simp only [List.length_append, List.length_cons]
      omega
  last h' := by
    rcases h'.of_append with ⟨_, hfirst⟩ | ⟨rest, hsame, htext⟩
    · exact absurd hfirst (hline _ _ _)
    · obtain rfl : before = rest := (List.cons.inj (List.append_cancel_left hsame)).2
      exact h.last htext

-- By induction on the lines. The list is that of the first line which has one.
theorem lists_tagList? (raw : List Char) : Lists raw (tagList? raw) := by
  induction raw using lines_induction with
  | line line hline =>
      have hone : tagList? line = bracketed? line := by
        simp [tagList?, List.splitOn_eq_singleton hline]
      rw [hone]
      exact lists_bracketed? hline
  | append line text hline ih =>
      have hor : tagList? (line ++ '\n' :: text) = (bracketed? line).or (tagList? text) := by
        rw [tagList?, List.splitOn_append_cons_self, List.splitOn_eq_singleton hline,
          List.findSome?_append, List.findSome?_singleton]
        rfl
      have hfirst := lists_bracketed? hline
      rw [hor]
      generalize bracketed? line = found at hfirst ⊢
      cases hfirst with
      | items list => exact .items (list.append_line text)
      | nothing free =>
          rw [Option.none_or]
          generalize tagList? text = other at ih ⊢
          cases ih with
          | items list => exact .items (list.behind free)
          | nothing free' =>
              refine .nothing fun before items after h => ?_
              rcases h.of_append with ⟨_, hfirst⟩ | ⟨_, -, htext⟩
              · exact free _ _ _ hfirst
              · exact free' _ _ _ htext

theorem tagList?_eq_some (h : TagList raw before items after) : tagList? raw = some items := by
  have hlists := lists_tagList? raw
  generalize tagList? raw = found at hlists ⊢
  cases hlists with
  | nothing free => exact absurd h.brackets (free _ _ _)
  | items list => rw [list.unique h]

-- The numbers of 32 bits among items, in the order of the items
inductive TagsAmong : List (List Char) → List Nat → Prop where
  | nil : TagsAmong [] []
  | tag {item : List Char} {items : List (List Char)} {n : Nat} {tags : List Nat}
      (number : SaysNumber item n) (fits : n ≤ 2 ^ 32 - 1) (rest : TagsAmong items tags) :
      TagsAmong (item :: items) (n :: tags)
  | other {item : List Char} {items : List (List Char)} {tags : List Nat}
      (no_tag : ∀ n ≤ 2 ^ 32 - 1, ¬ SaysNumber item n) (rest : TagsAmong items tags) :
      TagsAmong (item :: items) tags

theorem tagsAmong_filterMap (items : List (List Char)) :
    TagsAmong items (items.filterMap fun item => word32? (trim item)) := by
  induction items with
  | nil => exact .nil
  | cons item items ih =>
      cases hread : word32? (trim item) with
      | none =>
          simp only [List.filterMap_cons, hread]
          exact .other (unsigned?_trim_eq_none.mp hread) ih
      | some n =>
          obtain ⟨hnumber, hfits⟩ := unsigned?_trim_eq_some.mp hread
          simp only [List.filterMap_cons, hread]
          exact .tag hnumber hfits ih

-- Lists that are written with blanks

-- A tag with blanks around it, none of which ends the line
structure PaddedTag where
  before : List Char
  tag : UInt32
  after : List Char
  blank : ∀ c ∈ before ++ after, isBlank c = true ∧ c ≠ '\n'

namespace PaddedTag

def written (t : PaddedTag) : List Char := t.before ++ Nat.toDigits 10 t.tag.toNat ++ t.after

theorem not_mem_written {t : PaddedTag} (hdigit : c.isDigit = false)
    (hblank : isBlank c = false ∨ c = '\n') : c ∉ t.written := by
  intro hc
  rw [written, List.append_assoc, List.mem_append, List.mem_append] at hc
  have hpadding : c ∉ t.before ++ t.after := by
    intro hc
    obtain ⟨hisBlank, hne⟩ := t.blank c hc
    rcases hblank with hblank | hend
    · rw [hisBlank] at hblank
      cases hblank
    · exact hne hend
  rw [List.mem_append, not_or] at hpadding
  rcases hc with hc | hc | hc
  · exact hpadding.1 hc
  · rw [isDigit_of_mem_toDigits hc] at hdigit
    cases hdigit
  · exact hpadding.2 hc

theorem word32?_written (t : PaddedTag) : word32? (trim t.written) = some t.tag.toNat := by
  have hblank := List.forall_mem_append.mp fun c hc => (t.blank c hc).1
  have hfits : t.tag.toNat < 2 ^ 32 := t.tag.toNat_lt
  exact unsigned?_trim_eq_some.mpr
    ⟨saysNumber_toDigits hblank.1 hblank.2 _, Nat.le_pred_of_lt hfits⟩

end PaddedTag

theorem not_mem_intercalate {pieces : List (List Char)} {d : Char} (hd : c ≠ d)
    (h : ∀ piece ∈ pieces, c ∉ piece) : c ∉ [d].intercalate pieces := by
  induction pieces with
  | nil => exact List.not_mem_nil
  | cons piece pieces ih =>
      obtain ⟨hpiece, hpieces⟩ := List.forall_mem_cons.mp h
      cases pieces with
      | nil => rwa [List.intercalate_singleton]
      | cons next pieces =>
          simp [List.intercalate_cons_cons, hpiece, hd, ih hpieces]

-- An empty list has one item, which is empty
theorem filterMap_splitOn_written (listed : List PaddedTag) :
    (([','].intercalate (listed.map PaddedTag.written)).splitOn ',').filterMap
        (fun item => word32? (trim item)) = listed.map fun t => t.tag.toNat := by
  cases listed with
  | nil => rfl
  | cons t listed =>
      have hcomma : ∀ piece ∈ (t :: listed).map PaddedTag.written, ',' ∉ piece := by
        intro piece hpiece
        obtain ⟨t, -, rfl⟩ := List.mem_map.mp hpiece
        exact PaddedTag.not_mem_written rfl (.inl rfl)
      have heach : ((fun item => word32? (trim item)) ∘ PaddedTag.written) =
          fun t => some t.tag.toNat := funext PaddedTag.word32?_written
      rw [List.splitOn_intercalate ',' hcomma (by simp), List.filterMap_map, heach,
        List.filterMap_eq_map']

-- The tags of a raw cell are the numbers of 32 bits among the items of its first list, and there
-- are none without a list. So the tags of any list in a cell without other brackets are the ones
-- that were written.
theorem tags_are_read_from_the_first_list (raw : String) (url : Option String) :
    ((∀ before items after, ¬ Brackets raw.toList before items after) ∧
        Row.tags ⟨some raw, url⟩ = [] ∨
      ∃ before items after, TagList raw.toList before items after ∧
        TagsAmong (items.splitOn ',') (Row.tags ⟨some raw, url⟩)) ∧
    ∀ (before after : List Char) (listed : List PaddedTag),
      (∀ c ∈ before ++ after, c ≠ '[' ∧ c ≠ ']') →
      raw.toList =
        before ++ '[' :: ([','].intercalate (listed.map PaddedTag.written) ++ ']' :: after) →
      Row.tags ⟨some raw, url⟩ = listed.map fun t => t.tag.toNat := by
  have htags : Row.tags ⟨some raw, url⟩ = tagsOf raw.toList := rfl
  rw [htags, tagsOf]
  constructor
  · have hlists := lists_tagList? raw.toList
    generalize tagList? raw.toList = found at hlists ⊢
    cases hlists with
    | nothing free => exact .inl ⟨free, rfl⟩
    | items list => exact .inr ⟨_, _, _, list, tagsAmong_filterMap _⟩
  · intro before after listed hfree hraw
    have hbrackets : Brackets raw.toList before ([','].intercalate (listed.map PaddedTag.written))
        after := by
      refine ⟨hraw, not_mem_intercalate (by decide) fun piece hpiece => ?_⟩
      obtain ⟨t, -, rfl⟩ := List.mem_map.mp hpiece
      exact PaddedTag.not_mem_written rfl (.inr rfl)
    have hopens : '[' ∉ before := fun hc => (hfree _ (List.mem_append_left _ hc)).1 rfl
    have hcloses : ']' ∉ after := fun hc => (hfree _ (List.mem_append_right _ hc)).2 rfl
    rw [tagList?_eq_some (tagList_of_free hbrackets hopens hcloses)]
    exact filterMap_splitOn_written listed

-- Tags with blanks of several kinds, some of which end lines elsewhere
def paddedTags : List PaddedTag :=
  [⟨[' '], 7, ['\r'], by simp [isBlank]⟩,
    ⟨['\u3000', '\x0b'], 4294967295, [], by simp [isBlank]⟩,
    ⟨[], 7, ['\u2028'], by simp [isBlank]⟩]

theorem tags_are_read_from_the_first_list_padded :
    Row.tags ⟨some "ads,\n2 [ 7\r,\u3000\x0b4294967295,7\u2028], 3\n", none⟩ =
      [7, 4294967295, 7] := by
  have hread := (tags_are_read_from_the_first_list
    "ads,\n2 [ 7\r,\u3000\x0b4294967295,7\u2028], 3\n" none).2
  exact (hread "ads,\n2 ".toList ", 3\n".toList paddedTags (by simp) (by decide)).trans rfl

-- The list is the first that is closed on its line, with all that is in it
example : Row.tagsOf "[9\n1] [2, [3], +04, 4294967296 ] x]\n[5]".toList = [2, 4] := by decide

end Blocklist.Dataset
