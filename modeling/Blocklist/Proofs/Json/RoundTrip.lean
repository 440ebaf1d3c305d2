import Blocklist.Json.Reader
import Blocklist.Json.Writer
import Blocklist.Proofs.Text.Number
-- What has been written as JSON is read back, in either layout. A reader is judged by the
-- text that it takes off the front, whatever blanks stand before that and whatever follows.
namespace Blocklist.Json

open Text

-- What can follow a value that has been written
def Follows (rest : List Char) : Prop :=
  ∀ c, rest.head? = some c → c = ',' ∨ c = ']' ∨ c = '\x7d' ∨ c = '\n'

-- A reader takes the text `written` for `value`
def Reads {α : Type} (read : Read α) (written : List Char) (value : α) : Prop :=
  ∀ text rest, skipBlanks text = written ++ rest → Follows rest → read text = .ok (value, rest)

-- A text that begins neither with a blank nor with the end of a list
def Solid (written : List Char) : Prop :=
  ∃ c tail, written = c :: tail ∧ isBlank c = false ∧ c ≠ ']'

section

variable {layout : Layout} {depth : Nat} {written rest text blanks : List Char} {c : Char}

theorem follows_cons (h : c = ',' ∨ c = ']' ∨ c = '\x7d' ∨ c = '\n') : Follows (c :: rest) := by
  intro d hd
  rwa [← Option.some.inj hd]

-- Blanks

theorem skipBlanks_append (h : ∀ c ∈ blanks, isBlank c = true) :
    skipBlanks (blanks ++ text) = skipBlanks text :=
  List.dropWhile_append_of_pos h

theorem skipBlanks_cons (h : isBlank c = false) : skipBlanks (c :: text) = c :: text := by
  simp [skipBlanks, h]

theorem skipBlanks_comma (text : List Char) : skipBlanks (',' :: text) = ',' :: text :=
  skipBlanks_cons (by decide)

theorem skipBlanks_quote (text : List Char) : skipBlanks ('\"' :: text) = '\"' :: text :=
  skipBlanks_cons (by decide)

theorem Solid.skipBlanks (h : Solid written) (rest : List Char) :
    skipBlanks (written ++ rest) = written ++ rest := by
  obtain ⟨c, tail, rfl, hblank, _⟩ := h
  exact skipBlanks_cons hblank

theorem isBlank_of_mem_lineBreak (h : c ∈ lineBreak layout depth) : isBlank c = true := by
  cases layout with
  | compact => cases h
  | indented =>
      rcases List.mem_cons.mp h with rfl | h
      · rfl
      · rw [List.eq_of_mem_replicate h]
        rfl

theorem skipBlanks_lineBreak : skipBlanks (lineBreak layout depth ++ text) = skipBlanks text :=
  skipBlanks_append fun _ => isBlank_of_mem_lineBreak

theorem follows_lineBreak (h : Follows text) : Follows (lineBreak layout depth ++ text) := by
  cases layout with
  | compact => exact h
  | indented => exact follows_cons (.inr (.inr (.inr rfl)))

theorem expect_of_skipBlanks (h : skipBlanks text = c :: rest) : expect c text = .ok ((), rest) := by
  simp [expect, h]

end

-- Texts

theorem hexValue?_hexDigit {n : Nat} (h : n < 16) : hexValue? (hexDigit n) = some n := by
  have hall : ∀ n : Fin 16, hexValue? (hexDigit n) = some n.val := by decide
  exact hall ⟨n, h⟩

theorem hexCode_hexDigit {n : Nat} (h : n < 0x20) (rest : List Char) :
    hexCode ('0' :: '0' :: hexDigit (n / 16) :: hexDigit (n % 16) :: rest) = .ok (n, rest) := by
  have hzero : hexValue? '0' = some 0 := by decide
  have hhigh : hexValue? (hexDigit (n / 16)) = some (n / 16) := hexValue?_hexDigit (by omega)
  have hlow : hexValue? (hexDigit (n % 16)) = some (n % 16) := hexValue?_hexDigit (by omega)
  have hsum : n / 16 * 16 + n % 16 = n := by omega
  simp [hexCode, hzero, hhigh, hlow, hsum]

theorem charsWith_escape {fuel : Nat} {rest after cs : List Char} (c : Char)
    (h : charsWith fuel rest = .ok (cs, after)) :
    charsWith (fuel + 1) (escape c ++ rest) = .ok (c :: cs, after) := by
  unfold escape
  split
  case h_8 hquote hslash _ _ _ _ _ =>
    split
    case isTrue hcontrol =>
      have hlow : isLowSurrogate c.toNat = false := by
        simp [isLowSurrogate]
        omega
      have hhigh : isHighSurrogate c.toNat = false := by
        simp [isHighSurrogate]
        omega
      simp [charsWith, escaped, hexCode_hexDigit hcontrol, h, hlow, hhigh, bind, Except.bind]
    case isFalse hplain =>
      have hquote' : (c == '\"') = false := by simpa using hquote
      have hslash' : (c == '\\') = false := by simpa using hslash
      simp [charsWith, hquote', hslash', hplain, h, bind, Except.bind]
  all_goals simp [charsWith, escaped, h, bind, Except.bind]

theorem charsWith_text (cs rest : List Char) {fuel : Nat} (hfuel : cs.length < fuel) :
    charsWith fuel (cs.flatMap escape ++ '\"' :: rest) = .ok (cs, rest) := by
  induction cs generalizing fuel with
  | nil =>
      obtain ⟨fuel, rfl⟩ := Nat.exists_eq_succ_of_ne_zero (Nat.ne_of_gt hfuel)
      simp [charsWith]
  | cons c cs ih =>
      obtain ⟨fuel, rfl⟩ := Nat.exists_eq_succ_of_ne_zero (Nat.ne_of_gt (Nat.zero_lt_of_lt hfuel))
      rw [List.flatMap_cons, List.append_assoc]
      exact charsWith_escape c (ih (Nat.lt_of_succ_lt_succ hfuel))

theorem length_le_flatMap_escape (cs : List Char) : cs.length ≤ (cs.flatMap escape).length := by
  induction cs with
  | nil => exact Nat.le_refl _
  | cons c cs ih =>
      have hone : 0 < (escape c).length := by
        unfold escape
        split
        case h_8 => split <;> simp
        all_goals simp
      simp only [List.flatMap_cons, List.length_append, List.length_cons]
      omega

theorem textRest_text (s : String) (rest : List Char) :
    textRest (s.toList.flatMap escape ++ '\"' :: rest) = .ok (s, rest) := by
  have hfuel : s.toList.length < (s.toList.flatMap escape ++ '\"' :: rest).length := by
    have := length_le_flatMap_escape s.toList
    simp only [List.length_append, List.length_cons]
    omega
  rw [textRest, charsWith_text _ rest hfuel]
  simp [bind, Except.bind]

theorem readText_text {text : List Char} {s : String} {rest : List Char}
    (h : skipBlanks text = Json.text s ++ rest) : readText text = .ok (s, rest) := by
  have hquote : skipBlanks text = '\"' :: (s.toList.flatMap escape ++ '\"' :: rest) := by
    simpa [Json.text] using h
  simp only [readText, hquote]
  exact textRest_text s rest

theorem reads_text (s : String) : Reads readText (Json.text s) s :=
  fun _ _ htext _ => readText_text htext

theorem solid_text (s : String) : Solid (Json.text s) := ⟨'\"', _, rfl, rfl, by decide⟩

-- Numbers

theorem digits_append {ds rest : List Char} (hds : ∀ c ∈ ds, c.isDigit = true)
    (hrest : Follows rest) : digits (ds ++ rest) = (ds, rest) := by
  have hhead : ∀ c, rest.head? = some c → c.isDigit = false := by
    intro c hc
    rcases hrest c hc with rfl | rfl | rfl | rfl <;> decide
  have hnone : rest.takeWhile Char.isDigit = [] ∧ rest.dropWhile Char.isDigit = rest := by
    cases rest with
    | nil => exact ⟨rfl, rfl⟩
    | cons c rest => simp [hhead c rfl]
  simp [digits, List.takeWhile_append_of_pos hds, List.dropWhile_append_of_pos hds, hnone]

-- A number of 32 bits is far from being no finite number
theorem overflows_of_lt {n : Nat} (h : n < bound32) : overflows n 0 = false := by
  have hlength : (Nat.toDigits 10 n).length ≤ 10 :=
    (Nat.length_toDigits_le_iff (by decide) (by decide)).mpr (Nat.lt_trans h (by decide))
  unfold overflows
  split
  · rfl
  · simp only [Int.zero_add]
    rw [if_neg (by omega), if_pos (by omega)]

theorem numberRest_toDigits {n : Nat} {rest : List Char} (hn : n < bound32)
    (hrest : Follows rest) :
    numberRest false (Nat.toDigits 10 n ++ rest) = .ok (.natural n, rest) := by
  simp only [numberRest, digits_append (fun c => isDigit_of_mem_toDigits) hrest]
  split
  case h_1 heq => exact absurd (Prod.mk.inj heq).1 Nat.toDigits_ne_nil
  case h_2 heq => exact absurd (Prod.mk.inj heq).1 Nat.toDigits_ne_nil
  case h_3 heq => cases eq_nil_of_toDigits_eq_zero_cons (Prod.mk.inj heq).1
  case h_4 heq =>
    obtain ⟨rfl, rfl⟩ := Prod.mk.inj heq
    split
    · exact absurd (hrest _ rfl) (by decide)
    · exact absurd (hrest _ rfl) (by decide)
    · exact absurd (hrest _ rfl) (by decide)
    · simp [digitsValue_toDigits, overflows_of_lt hn]

theorem reads_word32 (n : UInt32) : Reads readWord32 (number n.toNat) n := by
  intro text rest htext hrest
  have hn : n.toNat < bound32 := n.toNat_lt
  have hnumber := numberRest_toDigits hn hrest
  obtain ⟨c, ds, hds⟩ := List.exists_cons_of_ne_nil (Nat.toDigits_ne_nil (n := n.toNat) (b := 10))
  have hc : c.isDigit = true := isDigit_of_mem_toDigits (hds ▸ List.mem_cons_self)
  have hminus : c ≠ '-' := by
    rintro rfl
    exact absurd hc (by decide)
  rw [number, hds, List.cons_append] at htext
  rw [hds, List.cons_append] at hnumber
  simp [readWord32, htext, hc, hnumber, hn, bind, Except.bind]

theorem solid_number (n : Nat) : Solid (number n) := by
  obtain ⟨c, ds, hds⟩ := List.exists_cons_of_ne_nil (Nat.toDigits_ne_nil (n := n) (b := 10))
  have hc : c.isDigit = true := isDigit_of_mem_toDigits (hds ▸ List.mem_cons_self)
  refine ⟨c, ds, hds, ?_, ?_⟩
  · cases hblank : isBlank c with
    | false => rfl
    | true =>
        simp only [isBlank, Bool.or_eq_true, beq_iff_eq] at hblank
        rcases hblank with ((rfl | rfl) | rfl) | rfl <;> exact absurd hc (by decide)
  · rintro rfl
    exact absurd hc (by decide)

-- Items between brackets

section

variable {layout : Layout} {depth : Nat} {closing : Char}

-- What follows an item between brackets: the other items, and what is behind the bracket
def itemsAfter (layout : Layout) (depth : Nat) (closing : Char) (items : List (List Char))
    (rest : List Char) : List Char :=
  (items.flatMap fun w => ',' :: (lineBreak layout (depth + 1) ++ w)) ++
    (lineBreak layout depth ++ closing :: rest)

theorem itemsAfter_cons (w : List Char) (items : List (List Char)) (rest : List Char) :
    itemsAfter layout depth closing (w :: items) rest =
      ',' :: (lineBreak layout (depth + 1) ++ (w ++ itemsAfter layout depth closing items rest)) := by
  simp [itemsAfter]

theorem length_lt_itemsAfter (layout : Layout) (depth : Nat) (closing : Char)
    (items : List (List Char)) (rest : List Char) :
    items.length < (itemsAfter layout depth closing items rest).length := by
  induction items with
  | nil =>
      simp only [itemsAfter, List.length_append, List.length_cons, List.length_nil]
      omega
  | cons w items ih =>
      rw [itemsAfter_cons]
      simp only [List.length_append, List.length_cons]
      omega

theorem follows_itemsAfter (layout : Layout) (depth : Nat)
    (h : closing = ']' ∨ closing = '\x7d') (items : List (List Char)) (rest : List Char) :
    Follows (itemsAfter layout depth closing items rest) := by
  cases items with
  | nil =>
      refine follows_lineBreak (follows_cons ?_)
      rcases h with rfl | rfl <;> simp
  | cons w items =>
      rw [itemsAfter_cons]
      exact follows_cons (.inl rfl)

theorem intercalate_comma (w : List Char) (items : List (List Char)) :
    [','].intercalate (w :: items) = w ++ items.flatMap (',' :: ·) := by
  induction items generalizing w with
  | nil => simp [List.intercalate]
  | cons v items ih =>
      rw [List.flatMap_cons, List.cons_append, ← ih v]
      simp [List.intercalate]

theorem bracketed_cons (layout : Layout) (depth : Nat) (opening closing : Char) (w : List Char)
    (items : List (List Char)) (rest : List Char) :
    bracketed layout depth opening closing (w :: items) ++ rest =
      opening :: (lineBreak layout (depth + 1) ++
        (w ++ itemsAfter layout depth closing items rest)) := by
  simp [bracketed, itemsAfter, intercalate_comma, List.flatMap_map]

theorem solid_bracketed {opening : Char} (hblank : isBlank opening = false)
    (hopening : opening ≠ ']') (items : List (List Char)) :
    Solid (bracketed layout depth opening closing items) := by
  cases items with
  | nil => exact ⟨opening, [closing], rfl, hblank, hopening⟩
  | cons w items =>
      have hcons := bracketed_cons layout depth opening closing w items []
      rw [List.append_nil] at hcons
      exact ⟨opening, _, hcons, hblank, hopening⟩

theorem nextItem_end (layout : Layout) (depth : Nat) (first : Bool) (rest : List Char) :
    nextItem first (lineBreak layout depth ++ ']' :: rest) = .ok (false, ']' :: rest) := by
  have hend : skipBlanks (']' :: rest) = ']' :: rest := skipBlanks_cons (by decide)
  simp [nextItem, skipBlanks_lineBreak, hend]

theorem nextItem_first (layout : Layout) (depth : Nat) {w : List Char} (h : Solid w)
    (rest : List Char) :
    nextItem true (lineBreak layout depth ++ (w ++ rest)) = .ok (true, w ++ rest) := by
  have hskip := h.skipBlanks rest
  obtain ⟨c, tail, rfl, _, hbracket⟩ := h
  rw [List.cons_append] at hskip
  simp [nextItem, skipBlanks_lineBreak, hskip]

theorem nextItem_comma (layout : Layout) (depth : Nat) {w : List Char} (h : Solid w)
    (rest : List Char) :
    nextItem false (',' :: (lineBreak layout depth ++ (w ++ rest))) = .ok (true, w ++ rest) := by
  have hskip := h.skipBlanks rest
  obtain ⟨c, tail, rfl, _, hbracket⟩ := h
  rw [List.cons_append] at hskip
  simp [nextItem, skipBlanks_comma, skipBlanks_lineBreak, hskip, hbracket]

variable {α : Type} {read : Read α} {write : α → List Char}

theorem itemsWith_itemsAfter (layout : Layout) (depth : Nat) (items : List α)
    (hreads : ∀ a ∈ items, Reads read (write a) a) (hsolid : ∀ a ∈ items, Solid (write a))
    (rest : List Char) {fuel : Nat} (hfuel : items.length < fuel) :
    itemsWith read fuel false (itemsAfter layout depth ']' (items.map write) rest) =
      .ok (items, ']' :: rest) := by
  induction items generalizing fuel with
  | nil =>
      obtain ⟨fuel, rfl⟩ := Nat.exists_eq_succ_of_ne_zero (Nat.ne_of_gt hfuel)
      simp [itemsWith, itemsAfter, nextItem_end layout depth false rest, bind, Except.bind]
  | cons a items ih =>
      obtain ⟨fuel, rfl⟩ := Nat.exists_eq_succ_of_ne_zero (Nat.ne_of_gt (Nat.zero_lt_of_lt hfuel))
      have hsol := hsolid a List.mem_cons_self
      have hread := hreads a List.mem_cons_self _ _ (hsol.skipBlanks _)
        (follows_itemsAfter layout depth (.inl rfl) (items.map write) rest)
      have hitems := ih (fun b hb => hreads b (List.mem_cons_of_mem _ hb))
        (fun b hb => hsolid b (List.mem_cons_of_mem _ hb)) (Nat.lt_of_succ_lt_succ hfuel)
      rw [List.map_cons, itemsAfter_cons]
      simp [itemsWith, nextItem_comma _ _ hsol, hread, hitems, bind, Except.bind]

theorem expect_closing (rest : List Char) : expect ']' (']' :: rest) = .ok ((), rest) :=
  expect_of_skipBlanks (skipBlanks_cons (by decide))

theorem reads_array (layout : Layout) (depth : Nat) (items : List α)
    (hreads : ∀ a ∈ items, Reads read (write a) a) (hsolid : ∀ a ∈ items, Solid (write a)) :
    Reads (readList read) (array layout depth (items.map write)) items := by
  intro text rest htext _
  cases items with
  | nil =>
      have hopen : skipBlanks text = '[' :: ']' :: rest := htext
      have hend := nextItem_end .compact 0 true rest
      simp only [lineBreak, List.nil_append] at hend
      simp [readList, hopen, itemsWith, hend, expect_closing, bind, Except.bind]
  | cons a items =>
      have hsol := hsolid a List.mem_cons_self
      have hread := hreads a List.mem_cons_self _ _ (hsol.skipBlanks _)
        (follows_itemsAfter layout depth (.inl rfl) (items.map write) rest)
      have hfirst := nextItem_first layout (depth + 1) hsol
        (itemsAfter layout depth ']' (items.map write) rest)
      have hopen : skipBlanks text = _ := htext.trans (bracketed_cons layout depth '[' ']' _ _ rest)
      generalize htail : lineBreak layout (depth + 1) ++ (write a ++ itemsAfter layout depth ']'
        (items.map write) rest) = tail at hopen hfirst
      have hfuel : items.length < tail.length := by
        have hless := length_lt_itemsAfter layout depth ']' (items.map write) rest
        rw [← htail]
        simp only [List.length_map, List.length_append] at hless ⊢
        omega
      have hitems := itemsWith_itemsAfter layout depth items
        (fun b hb => hreads b (List.mem_cons_of_mem _ hb))
        (fun b hb => hsolid b (List.mem_cons_of_mem _ hb)) rest hfuel
      simp [readList, hopen, itemsWith, hfirst, hread, hitems, expect_closing, bind, Except.bind]

theorem solid_array (layout : Layout) (depth : Nat) (items : List (List Char)) :
    Solid (array layout depth items) :=
  solid_bracketed (by decide) (by decide) items

end

end Blocklist.Json
