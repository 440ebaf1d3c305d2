import Blocklist.Proofs.Text.Blank
import Blocklist.Proofs.Text.Number
-- Numbers that stand between blanks. A reader that trims its text finds them, and finds nothing
-- in any other text.
namespace Blocklist.Text

variable {bound n : Nat} {text blanks : List Char} {c : Char}

-- Digits of ASCII with at most one plus sign before them, and blanks around. Leading zeros do
-- not count.
def SaysNumber (text : List Char) (n : Nat) : Prop :=
  ∃ before sign digits after, text = before ++ (sign ++ digits) ++ after ∧
    (∀ c ∈ before, isBlank c = true) ∧ (∀ c ∈ after, isBlank c = true) ∧
    (sign = [] ∨ sign = ['+']) ∧ digits ≠ [] ∧ (∀ c ∈ digits, c.isDigit = true) ∧
    Nat.ofDigitChars 10 digits 0 = n

theorem trim_blanks_append (h : ∀ c ∈ blanks, isBlank c = true) (text : List Char) :
    trim (blanks ++ text) = trim text := by
  induction blanks with
  | nil => rfl
  | cons c blanks ih =>
      obtain ⟨hc, hblanks⟩ := List.forall_mem_cons.mp h
      rw [List.cons_append, trim_cons_blank hc, ih hblanks]

theorem trim_append_blanks (h : ∀ c ∈ blanks, isBlank c = true) (text : List Char) :
    trim (text ++ blanks) = trim text := by
  induction blanks using List.reverseRecOn with
  | nil => rw [List.append_nil]
  | append_singleton blanks c ih =>
      rw [List.forall_mem_append] at h
      obtain ⟨hblanks, hc⟩ := h
      rw [← List.append_assoc, trim_concat_blank (hc c List.mem_cons_self), ih hblanks]

theorem trim_split (text : List Char) :
    ∃ before after, (∀ c ∈ before, isBlank c = true) ∧ (∀ c ∈ after, isBlank c = true) ∧
      text = before ++ trim text ++ after := by
  obtain ⟨after, hafter, hend⟩ := trimEnd_split (trimStart text)
  refine ⟨text.takeWhile isBlank, after, fun c => List.mem_takeWhile_imp, hafter, ?_⟩
  rw [List.append_assoc, trim, ← hend]
  exact List.takeWhile_append_dropWhile.symm

theorem exists_digits_of_unsigned? (h : unsigned? bound text = some n) :
    ∃ sign digits, text = sign ++ digits ∧ (sign = [] ∨ sign = ['+']) ∧ digits ≠ [] ∧
      (∀ c ∈ digits, c.isDigit = true) ∧ Nat.ofDigitChars 10 digits 0 = n ∧ n ≤ bound := by
  obtain ⟨sign, digits, rfl, hsign, hsplit⟩ : ∃ sign digits, text = sign ++ digits ∧
      (sign = [] ∨ sign = ['+']) ∧
      (if text.head? == some '+' then text.tail else text) = digits := by
    split
    case isTrue hplus =>
      obtain ⟨rest, rfl⟩ := List.head?_eq_some_iff.mp (eq_of_beq hplus)
      exact ⟨['+'], rest, rfl, .inr rfl, rfl⟩
    case isFalse => exact ⟨[], text, rfl, .inl rfl, rfl⟩
  simp only [unsigned?, hsplit, Bool.or_eq_true, Bool.not_eq_true', List.isEmpty_iff] at h
  split at h
  case isTrue => cases h
  case isFalse hdigits =>
    obtain ⟨hne, hall⟩ := not_or.mp hdigits
    rw [Option.ite_none_right_eq_some, digitsValue_eq] at h
    obtain ⟨hbound, hvalue⟩ := h
    have hvalue := Option.some.inj hvalue
    refine ⟨sign, digits, rfl, hsign, hne, ?_, hvalue, hvalue ▸ hbound⟩
    exact List.all_eq_true.mp (Bool.not_eq_false _ ▸ hall)

-- What is read from a text that is trimmed
theorem unsigned?_trim_eq_some :
    unsigned? bound (trim text) = some n ↔ SaysNumber text n ∧ n ≤ bound := by
  constructor
  · intro h
    obtain ⟨sign, digits, htrim, hsign, hne, hdigits, hvalue, hbound⟩ :=
      exists_digits_of_unsigned? h
    obtain ⟨before, after, hbefore, hafter, hsplit⟩ := trim_split text
    rw [htrim] at hsplit
    exact ⟨⟨before, sign, digits, after, hsplit, hbefore, hafter, hsign, hne, hdigits, hvalue⟩,
      hbound⟩
  · rintro ⟨⟨before, sign, digits, after, rfl, hbefore, hafter, hsign, hne, hdigits, rfl⟩, hbound⟩
    have hsolid : ∀ c ∈ sign ++ digits, isBlank c = false := by
      intro c hc
      rcases List.mem_append.mp hc with hc | hc
      · rcases hsign with rfl | rfl
        · cases hc
        · rw [List.mem_singleton.mp hc]
          rfl
      · exact isBlank_of_isDigit (hdigits c hc)
    rw [trim_append_blanks hafter, trim_blanks_append hbefore, trim_eq_self hsolid,
      unsigned?_of_digits hsign hne hdigits, if_pos hbound]

theorem unsigned?_trim_eq_none :
    unsigned? bound (trim text) = none ↔ ∀ n ≤ bound, ¬ SaysNumber text n := by
  rw [Option.eq_none_iff_forall_ne_some]
  exact ⟨fun h n hn hnumber => h n (unsigned?_trim_eq_some.mpr ⟨hnumber, hn⟩),
    fun h n hread => h n (unsigned?_trim_eq_some.mp hread).2 (unsigned?_trim_eq_some.mp hread).1⟩

-- The decimal digits of a number say it
theorem saysNumber_toDigits {before after : List Char} (hbefore : ∀ c ∈ before, isBlank c = true)
    (hafter : ∀ c ∈ after, isBlank c = true) (n : Nat) :
    SaysNumber (before ++ Nat.toDigits 10 n ++ after) n :=
  ⟨before, [], Nat.toDigits 10 n, after, rfl, hbefore, hafter, .inl rfl, Nat.toDigits_ne_nil,
    fun _ => isDigit_of_mem_toDigits, Nat.ofDigitChars_ten_toDigits⟩

end Blocklist.Text
