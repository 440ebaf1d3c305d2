import Blocklist.Settings.Verbosity
-- How many wishes lead to a level. Its rank is counted in a signed byte, which some numbers
-- of wishes leave.
namespace Blocklist.Settings.Verbosity

-- The rank leaves the signed byte on the way to the level
def Overflows (v : Verbosity) : Prop :=
  signed v.less < -125 ∨ signed v.more - signed v.less < -130 ∨
    125 < signed v.more - signed v.less

theorem signed_bounds (count : Nat) : -128 ≤ signed count ∧ signed count ≤ 127 := by
  unfold signed
  rw [Int.bmod_def]
  split <;> omega

theorem fits_iff (n : Int) : fits n = true ↔ -128 ≤ n ∧ n ≤ 127 := by
  simp [fits]

theorem fits_eq_false_iff (n : Int) : fits n = false ↔ n < -128 ∨ 127 < n := by
  rw [← Bool.not_eq_true, fits_iff]
  omega

theorem level_eq_error_iff (v : Verbosity) : (∃ e, v.level = .error e) ↔ v.Overflows := by
  have hless := signed_bounds v.less
  have hrank : (Log.Level.info.rank : Int) = 2 := rfl
  simp only [level, hrank, Overflows]
  by_cases hlow : -125 ≤ signed v.less
  · have hlowered : fits (2 - signed v.less) = true := (fits_iff _).mpr (by omega)
    by_cases hnear : -130 ≤ signed v.more - signed v.less ∧ signed v.more - signed v.less ≤ 125
    · have hraised : fits (2 - signed v.less + signed v.more) = true :=
        (fits_iff _).mpr (by omega)
      simp [hlowered, hraised, hlow, hnear]
    · have hraised : fits (2 - signed v.less + signed v.more) = false :=
        (fits_eq_false_iff _).mpr (by omega)
      simp only [hlowered, hraised]
      exact ⟨fun _ => by omega, fun _ => ⟨_, rfl⟩⟩
  · have hlowered : fits (2 - signed v.less) = false := (fits_eq_false_iff _).mpr (by omega)
    simp only [hlowered]
    exact ⟨fun _ => by omega, fun _ => ⟨_, rfl⟩⟩

-- Counts from 128 on stand for negative numbers
theorem signed_eq {count : Nat} (h : count ≤ maxCount) :
    signed count = if count < 128 then (count : Int) else count - 256 := by
  unfold maxCount at h
  unfold signed
  rw [Int.bmod_def]
  split <;> split <;> omega

theorem overflows_more_iff {count : Nat} (h : count ≤ maxCount) :
    Overflows ⟨count, 0⟩ ↔ 126 ≤ count ∧ count ≤ 127 := by
  have hzero : signed 0 = 0 := rfl
  simp only [Overflows, hzero, signed_eq h]
  unfold maxCount at h
  split <;> omega

-- What stands for a level leads to it
theorem level_ofLevel (level : Log.Level) : (ofLevel level).level = .ok level := by
  have hsigned : signed 0 = 0 ∧ signed 1 = 1 ∧ signed 2 = 2 := by decide
  obtain ⟨hzero, hone, htwo⟩ := hsigned
  cases level <;>
    simp only [Verbosity.level, ofLevel, Log.Level.rank, Nat.sub_self, Nat.reduceSub,
      Nat.zero_sub, hzero, hone, htwo] <;> rfl

theorem level_standard : standard.level = .ok .info :=
  level_ofLevel .info

theorem exists_level_of_ofName {name : String} {v : Verbosity} (h : ofName name = .ok v) :
    ∃ level, v = ofLevel level := by
  simp only [ofName] at h
  split at h
  case h_1 level _ =>
    cases h
    exact ⟨level, rfl⟩
  case h_2 => cases h

end Blocklist.Settings.Verbosity
