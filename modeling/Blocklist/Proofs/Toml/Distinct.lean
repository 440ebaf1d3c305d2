import Mathlib.Data.List.Nodup
import Blocklist.Toml.Document
-- No key of a document has two values.
namespace Blocklist.Toml

variable {entries after : Entries} {d next : Draft} {text rest : List Char}

namespace Entries

def keys (entries : Entries) : List String := entries.map Prod.fst

-- Every key stands once
def Distinct (entries : Entries) : Prop := entries.keys.Nodup

-- What is put at a key comes last unless the key is there
theorem keys_of_alter {f : Option Value → Option Value} {key : String}
    (h : alter f key entries = some after) :
    after.keys = entries.keys ∨ key ∉ entries.keys ∧ after.keys = entries.keys ++ [key] := by
  induction entries generalizing after with
  | nil =>
      obtain ⟨v, -, rfl⟩ := Option.map_eq_some_iff.mp h
      exact .inr ⟨List.not_mem_nil, rfl⟩
  | cons entry rest ih =>
      obtain ⟨k, v⟩ := entry
      unfold alter at h
      split at h
      case isTrue hkey =>
        obtain ⟨w, -, rfl⟩ := Option.map_eq_some_iff.mp h
        exact .inl (congrArg (· :: keys rest) hkey.symm)
      case isFalse hkey =>
        obtain ⟨changed, hchanged, rfl⟩ := Option.map_eq_some_iff.mp h
        obtain hsame | ⟨hnew, hlonger⟩ := ih hchanged
        · exact .inl (congrArg (k :: ·) hsame)
        · refine .inr ⟨?_, congrArg (k :: ·) hlonger⟩
          exact List.not_mem_cons_of_ne_of_not_mem (Ne.symm hkey) hnew

theorem Distinct.alter {f : Option Value → Option Value} {key : String}
    (hentries : entries.Distinct) (h : Entries.alter f key entries = some after) :
    after.Distinct := by
  unfold Distinct at *
  obtain hsame | ⟨hnew, hlonger⟩ := keys_of_alter h
  · rwa [hsame]
  · rw [hlonger]
    exact hentries.append (List.nodup_singleton key) (List.disjoint_singleton.mpr hnew)

-- A change deeper in a table is a change at one of its keys
theorem Distinct.at? {through : (Entries → Option Entries) → Option Value → Option Value}
    {path : List String} {g : Entries → Option Entries} (hentries : entries.Distinct)
    (hg : ∀ after, g entries = some after → after.Distinct)
    (h : Entries.at? through path g entries = some after) : after.Distinct := by
  cases path with
  | nil => exact hg after h
  | cons key keys => exact hentries.alter h

theorem Distinct.assign? {current path : List String} {value : Value} (hentries : entries.Distinct)
    (h : entries.assign? current path value = some after) : after.Distinct := by
  obtain ⟨last, -, h⟩ := Option.bind_eq_some_iff.mp h
  exact hentries.at? (fun _ hinner => hentries.at? (fun _ => hentries.alter) hinner) h

theorem Distinct.define? {path : List String} (hentries : entries.Distinct)
    (h : entries.define? path = some after) : after.Distinct := by
  obtain ⟨last, -, h⟩ := Option.bind_eq_some_iff.mp h
  exact hentries.at? (fun _ => hentries.alter) h

theorem Distinct.append? {path : List String} (hentries : entries.Distinct)
    (h : entries.append? path = some after) : after.Distinct := by
  obtain ⟨last, -, h⟩ := Option.bind_eq_some_iff.mp h
  exact hentries.at? (fun _ => hentries.alter) h

end Entries

theorem distinct_of_readStatement? (hd : d.entries.Distinct)
    (h : readStatement? d text = some (next, rest)) : next.entries.Distinct := by
  unfold readStatement? at h
  split at h
  case h_1 =>
    simp only [Option.bind_eq_bind, Option.bind_eq_some_iff, Option.some.injEq] at h
    obtain ⟨_, -, _, -, _, -, after, happend, hnext⟩ := h
    cases hnext
    exact hd.append? happend
  case h_2 =>
    simp only [Option.bind_eq_bind, Option.bind_eq_some_iff, Option.some.injEq] at h
    obtain ⟨_, -, _, -, after, hdefine, hnext⟩ := h
    cases hnext
    exact hd.define? hdefine
  case h_3 =>
    simp only [Option.bind_eq_bind, Option.bind_eq_some_iff, Option.some.injEq] at h
    obtain ⟨_, -, _, -, _, -, after, hassign, hnext⟩ := h
    cases hnext
    exact hd.assign? hassign

-- By induction on the lines
theorem distinct_of_readLinesWith {fuel : Nat} (hd : d.entries.Distinct)
    (h : readLinesWith fuel d text = some entries) : entries.Distinct := by
  induction fuel generalizing d text with
  | zero => cases h
  | succ fuel ih =>
      obtain ⟨rest, -, h⟩ := Option.bind_eq_some_iff.mp h
      split at h
      case h_1 =>
        cases h
        exact hd
      case h_2 =>
        obtain ⟨⟨next, rest⟩, hstatement, h⟩ := Option.bind_eq_some_iff.mp h
        obtain ⟨text, -, h⟩ := Option.bind_eq_some_iff.mp h
        exact ih (distinct_of_readStatement? hd hstatement) h

theorem distinct_of_read? {text : String} (h : read? text = some entries) : entries.Distinct :=
  distinct_of_readLinesWith (d := ⟨[], []⟩) List.nodup_nil h

end Blocklist.Toml
