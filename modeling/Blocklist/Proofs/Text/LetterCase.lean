import Blocklist.Proofs.Text.Blank
import Mathlib
-- The case of ASCII letters, which `Char.toLower` takes away: blanks, digits and signs do not
-- have it, so splitting and trimming do not depend on it.
namespace Blocklist.Text

variable {c d : Char}

theorem toLower_of_not_isAlpha (hc : c.isAlpha = false) : c.toLower = c :=
  Char.toLower_eq_of_not_isUpper fun hupper => by simp [Char.isAlpha, hupper] at hc

-- Only letters become letters
theorem toLower_eq_iff (hd : d.isAlpha = false) : c.toLower = d ↔ c = d := by
  constructor
  · rintro rfl
    rw [Char.isAlpha_toLower_eq_isAlpha] at hd
    exact (toLower_of_not_isAlpha hd).symm
  · rintro rfl
    exact toLower_of_not_isAlpha hd

theorem toLower_beq (hd : d.isAlpha = false) (c : Char) : (c.toLower == d) = (c == d) := by
  rw [Bool.eq_iff_iff, beq_iff_eq, beq_iff_eq, toLower_eq_iff hd]

-- What holds of no letter holds whatever the case
theorem apply_toLower {p : Char → Bool} (hp : ∀ c, c.isAlpha = true → p c = false) (c : Char) :
    p c.toLower = p c := by
  cases hc : c.isAlpha with
  | true => rw [hp c hc, hp c.toLower (by rwa [Char.isAlpha_toLower_eq_isAlpha])]
  | false => rw [toLower_of_not_isAlpha hc]

theorem code_of_isAlpha (hc : c.isAlpha = true) :
    65 ≤ c.toNat ∧ c.toNat ≤ 90 ∨ 97 ≤ c.toNat ∧ c.toNat ≤ 122 := by
  simpa [Char.isAlpha, Char.isUpper, Char.isLower, UInt32.le_iff_toNat_le] using hc

theorem isDigit_of_isAlpha (hc : c.isAlpha = true) : c.isDigit = false := by
  rw [Bool.eq_false_iff]
  intro hdigit
  have hletter := code_of_isAlpha hc
  have hcode := code_of_isDigit hdigit
  omega

theorem isBlank_of_isAlpha (hc : c.isAlpha = true) : isBlank c = false := by
  have hcode := code_of_isAlpha hc
  exact isBlank_of_visible (by omega)

theorem isDigit_toLower (c : Char) : c.toLower.isDigit = c.isDigit :=
  apply_toLower (fun _ => isDigit_of_isAlpha) c

theorem isBlank_toLower (c : Char) : isBlank c.toLower = isBlank c :=
  apply_toLower (fun _ => isBlank_of_isAlpha) c

theorem isBlank_comp_toLower : isBlank ∘ Char.toLower = isBlank :=
  funext isBlank_toLower

theorem isAlpha_comp_toLower : Char.isAlpha ∘ Char.toLower = Char.isAlpha :=
  funext Char.isAlpha_toLower_eq_isAlpha

-- Splitting and trimming

theorem isPrefixOf?_map_toLower (sign : List Char) (hsign : ∀ c ∈ sign, c.isAlpha = false)
    (text : List Char) : sign.isPrefixOf? (text.map Char.toLower) =
      (sign.isPrefixOf? text).map (·.map Char.toLower) := by
  induction sign generalizing text with
  | nil => simp [List.isPrefixOf?]
  | cons d sign ih =>
      obtain ⟨hd, hrest⟩ := List.forall_mem_cons.mp hsign
      cases text with
      | nil => rfl
      | cons c text =>
          have hhead : (d == c.toLower) = (d == c) := by
            rw [BEq.comm, toLower_beq hd, BEq.comm]
          simp only [List.map_cons, List.isPrefixOf?, hhead]
          split
          · exact ih hrest text
          · rfl

theorem isPrefixOf_map_toLower (sign : List Char) (hsign : ∀ c ∈ sign, c.isAlpha = false)
    (text : List Char) : sign.isPrefixOf (text.map Char.toLower) = sign.isPrefixOf text := by
  rw [← List.isSome_isPrefixOf?_eq_isPrefixOf, isPrefixOf?_map_toLower sign hsign,
    Option.isSome_map, List.isSome_isPrefixOf?_eq_isPrefixOf]

theorem head?_map_toLower_beq (hd : d.isAlpha = false) (text : List Char) :
    ((text.map Char.toLower).head? == some d) = (text.head? == some d) := by
  cases text with
  | nil => rfl
  | cons c text => exact toLower_beq hd c

theorem splitOnP_map_toLower {p : Char → Bool} (hp : ∀ c, p c.toLower = p c) (text : List Char) :
    (text.map Char.toLower).splitOnP p = (text.splitOnP p).map (·.map Char.toLower) := by
  induction text with
  | nil => simp
  | cons c text ih =>
      rw [List.map_cons, List.splitOnP_cons_eq_if_modifyHead, List.splitOnP_cons_eq_if_modifyHead,
        hp, ih]
      split
      · rfl
      · cases text.splitOnP p <;> rfl

theorem splitOn_map_toLower (hd : d.isAlpha = false) (text : List Char) :
    (text.map Char.toLower).splitOn d = (text.splitOn d).map (·.map Char.toLower) := by
  rw [List.splitOn_eq_splitOnP, List.splitOn_eq_splitOnP, splitOnP_map_toLower (toLower_beq hd)]

theorem trim_map_toLower (text : List Char) :
    trim (text.map Char.toLower) = (trim text).map Char.toLower := by
  simp only [trim, trimStart, trimEnd, List.dropWhile_map, ← List.map_reverse,
    isBlank_comp_toLower]

end Blocklist.Text
