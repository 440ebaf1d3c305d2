import Blocklist.Text.Number
-- The decimal digits of a number are read back as the number.
namespace Blocklist.Text

theorem digitsValue_eq (value : Nat) (digits : List Char) :
    digitsValue value digits = Nat.ofDigitChars 10 digits value := by
  rw [Nat.ofDigitChars_eq_foldl, digitsValue]
  simp only [digitValue, Nat.mul_comm]

theorem digitsValue_toDigits (n : Nat) : digitsValue 0 (Nat.toDigits 10 n) = n := by
  rw [digitsValue_eq, Nat.ofDigitChars_ten_toDigits]

theorem isDigit_of_mem_toDigits {n : Nat} {c : Char} (h : c ∈ Nat.toDigits 10 n) :
    c.isDigit = true :=
  Nat.isDigit_of_mem_toDigits (by decide) (by decide) h

-- A number begins with a zero only if it is zero
theorem eq_nil_of_toDigits_eq_zero_cons {n : Nat} {rest : List Char}
    (h : Nat.toDigits 10 n = '0' :: rest) : rest = [] := by
  induction n using Nat.strongRecOn generalizing rest with
  | ind n ih =>
      by_cases hsmall : n < 10
      · rw [Nat.toDigits_of_lt_base hsmall] at h
        exact (List.cons.inj h).2.symm
      · rw [Nat.toDigits_of_base_le (by decide) (by omega)] at h
        rcases List.append_eq_cons_iff.mp h with ⟨hnil, _⟩ | ⟨front, hfront, _⟩
        · exact absurd hnil Nat.toDigits_ne_nil
        · -- the digits before the last are those of a smaller number, which is zero then
          have hone := ih (n / 10) (by omega) hfront
          have hzero := digitsValue_toDigits (n / 10)
          rw [hfront, hone] at hzero
          have : n / 10 = 0 := hzero.symm
          omega

-- Digits are read with a plus sign before them as they are without
theorem unsigned?_of_digits {bound : Nat} {sign digits : List Char} (hsign : sign = [] ∨ sign = ['+'])
    (hne : digits ≠ []) (hdigits : ∀ c ∈ digits, c.isDigit = true) :
    unsigned? bound (sign ++ digits) =
      if Nat.ofDigitChars 10 digits 0 ≤ bound then some (Nat.ofDigitChars 10 digits 0)
      else none := by
  have hall : digits.all Char.isDigit = true := List.all_eq_true.mpr hdigits
  have hplus : digits.head? ≠ some '+' := by
    intro hhead
    exact absurd (hdigits '+' (List.mem_of_mem_head? hhead)) (by decide)
  rcases hsign with rfl | rfl
  · simp [unsigned?, hplus, hne, hall, digitsValue_eq]
  · simp [unsigned?, hne, hall, digitsValue_eq]

end Blocklist.Text
