import Blocklist.Files.Tree
-- What a tree holds after a file has been written.
namespace Blocklist.Files.Tree

variable {t u : Tree} {place target other : Place} {e : Entry} {path : Path}

theorem lookup_filter_ne {entries : List (Place × Entry)} (h : other ≠ place) :
    (entries.filter fun entry => entry.1 != place).lookup other = entries.lookup other := by
  induction entries with
  | nil => rfl
  | cons entry entries ih =>
      obtain ⟨key, e⟩ := entry
      by_cases hkey : key = place
      · subst hkey
        simp [ih, List.lookup_cons, beq_false_of_ne h]
      · simp [hkey, List.lookup_cons, ih]

theorem entry?_put_of_ne (h : other ≠ place) :
    Tree.entry? (t.put place e) other = t.entry? other := by
  simp only [put, entry?, List.lookup_cons, beq_false_of_ne h, lookup_filter_ne h]

theorem entry?_put_self (h : place ≠ []) : Tree.entry? (t.put place e) place = some e := by
  simp [put, entry?, h]

theorem folder_of_step {name : String} (h : t.step place name = .ok other) :
    t.entry? place = some .folder := by
  unfold step at h
  split at h
  · cases h
  · assumption
  · cases h

-- A walk goes through folders only, so that it goes on as before when anything else
-- changes
theorem step_put {name : String} (htarget : t.entry? target ≠ some .folder)
    (h : t.step place name = .ok other) : (t.put target e).step place name = .ok other := by
  have hfolder := folder_of_step h
  have hne : place ≠ target := by
    rintro rfl
    exact htarget hfolder
  rw [← h]
  simp only [step, entry?_put_of_ne hne]

theorem foldlM_step_put {names : List String} (htarget : t.entry? target ≠ some .folder)
    (h : names.foldlM t.step place = .ok other) :
    names.foldlM (t.put target e).step place = .ok other := by
  induction names generalizing place with
  | nil => exact h
  | cons name names ih =>
      rw [List.foldlM_cons] at h ⊢
      cases hstep : t.step place name with
      | error e => rw [hstep] at h; cases h
      | ok next =>
          rw [hstep] at h
          rw [step_put htarget hstep]
          exact ih h

theorem locate_put (htarget : t.entry? target ≠ some .folder) (h : t.locate path = .ok place) :
    (t.put target e).locate path = .ok place := by
  unfold locate at h ⊢
  split at h
  case isTrue => cases h
  case isFalse hzero =>
    split at h
    case isTrue => cases h
    case isFalse hempty =>
      split at h
      case isTrue => cases h
      case isFalse hlong =>
        rw [if_neg hzero, if_neg hempty, if_neg hlong]
        exact foldlM_step_put htarget h

-- Whoever opens the file finds what has been written, unless it is one that keeps nothing
theorem opened_of_write {bytes : List UInt8} (h : t.write path bytes = .ok u) :
    u.opened path = .ok (.bytes bytes) ∨
      u = t ∧ ∃ place, t.locate path = .ok place ∧ t.entry? place = some .void := by
  unfold write at h
  cases hplace : t.locate path.withoutEndSlashes with
  | error e => rw [hplace] at h; cases h
  | ok place =>
      simp only [hplace, bind, Except.bind] at h
      split at h
      case isTrue => cases h
      case isFalse hslashes =>
        have hsame : path = path.withoutEndSlashes := by simpa using hslashes
        rw [← hsame] at hplace
        split at h
        case h_1 => cases h
        case h_2 hvoid =>
          cases h
          exact .inr ⟨rfl, place, hplace, hvoid⟩
        case h_3 hfolder hvoid =>
          cases h
          have hroot : place ≠ [] := by
            rintro rfl
            exact hfolder rfl
          have hnew : Tree.entry? (t.put place (.file bytes)) place = some (.file bytes) :=
            entry?_put_self hroot
          refine .inl ?_
          simp only [opened, locate_put hfolder hplace, bind, Except.bind, hnew]

end Blocklist.Files.Tree
