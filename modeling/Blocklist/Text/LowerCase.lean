import Blocklist.Text.CaseTable
-- Lower case of a whole text. It differs from a character-by-character mapping in
-- two places: `İ` becomes two characters, and `Σ` has one form inside a word and
-- another at its end.
namespace Blocklist.Text

-- A letter that has case
def isCased (c : Char) : Bool :=
  c.isAlpha || CaseTable.cased.any (·.holds c.toNat)

-- A character that does not separate a letter from the word it belongs to
def isCaseIgnorable (c : Char) : Bool :=
  c == '\x27' || c == '.' || c == ':' || c == '^' || c == '\x60' ||
  CaseTable.ignorable.any (·.holds c.toNat)

-- Lower case of a character, wherever it stands. `Σ` is mapped as inside a word.
def lowerChar (c : Char) : List Char :=
  if c.toNat < 0x80 then [c.toLower]
  else if c == 'Σ' then ['σ']
  else if c == 'İ' then ['i', '\u0307']
  else match CaseTable.shifts.find? (·.holds c.toNat) with
    | some s => [Char.ofNat (c.toNat - s.first + s.lower)]
    | none => [c]

-- Whether a letter with case comes first in `text`, ignorable characters aside
def meetsCased (text : List Char) : Bool :=
  match text.dropWhile isCaseIgnorable with
  | c :: _ => isCased c
  | [] => false

-- `Σ` ends a word when a letter stands before it and none after it. `before` is
-- read backwards from the character.
def lowerAt (before : List Char) (c : Char) (after : List Char) : List Char :=
  if c == 'Σ' && meetsCased before && !meetsCased after then ['ς'] else lowerChar c

-- Lower case of `text`, which follows the reversed `before`
def lowerAfter (before : List Char) : List Char → List Char
  | [] => []
  | c :: after => lowerAt before c after ++ lowerAfter (c :: before) after

def lowerCase (text : List Char) : List Char :=
  lowerAfter [] text

-- Lower case of an ASCII character is one ASCII character
theorem lowerChar_ascii (c : Char) (h : c.toNat < 0x80) : lowerChar c = [c.toLower] := by
  simp [lowerChar, h]

theorem lowerAt_ascii (before after : List Char) (c : Char) (h : c.toNat < 0x80) :
    lowerAt before c after = [c.toLower] := by
  have hc : (c == 'Σ') = false := by
    apply beq_false_of_ne
    rintro rfl
    exact absurd h (by decide)
  simp [lowerAt, hc, lowerChar_ascii c h]

-- On ASCII text lower case is character by character
theorem lowerAfter_ascii (before text : List Char) (h : ∀ c ∈ text, c.toNat < 0x80) :
    lowerAfter before text = text.map Char.toLower := by
  induction text generalizing before with
  | nil => rfl
  | cons c after ih =>
    have hc : c.toNat < 0x80 := h c List.mem_cons_self
    have hafter : ∀ d ∈ after, d.toNat < 0x80 := fun d hd => h d (List.mem_cons_of_mem c hd)
    simp [lowerAfter, lowerAt_ascii before after c hc, ih (c :: before) hafter]

theorem lowerCase_ascii (text : List Char) (h : ∀ c ∈ text, c.toNat < 0x80) :
    lowerCase text = text.map Char.toLower :=
  lowerAfter_ascii [] text h

end Blocklist.Text
