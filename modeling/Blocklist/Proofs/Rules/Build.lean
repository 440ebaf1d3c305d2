import Blocklist.Rules.Basic
-- Which rules are built. Identifiers are consecutive, and there are rules if all of them
-- are numbers of 32 bits, with one to spare.
namespace Blocklist.Rule

open Text

theorem number?_eq (id : Nat) (domains : List String) :
    number? id domains =
      if id + domains.length + 1 < bound32 then
        some (domains.mapIdx fun i domain => block (UInt32.ofNat (id + i)) domain)
      else none := by
  induction domains generalizing id with
  | nil => simp [number?]
  | cons domain rest ih =>
      have hnext : id + 1 + rest.length + 1 = id + (domain :: rest).length + 1 := by
        simp only [List.length_cons]
        omega
      have hmap : (domain :: rest).mapIdx (fun i d => block (UInt32.ofNat (id + i)) d) =
          block (UInt32.ofNat id) domain ::
            rest.mapIdx fun i d => block (UInt32.ofNat (id + 1 + i)) d := by
        simp only [List.mapIdx_cons, Nat.add_zero, Nat.add_assoc, Nat.add_comm 1]
      rw [number?, ih, hnext, hmap]
      by_cases hroom : id + (domain :: rest).length + 1 < bound32
      · have hid : id + 1 < bound32 := by omega
        rw [if_pos hid, if_pos hroom, if_pos hroom, Option.map_some]
      · rw [if_neg hroom, if_neg hroom, Option.map_none, ite_self]

theorem build?_eq (domains : List String) :
    build? domains =
      if firstId + domains.length + 1 < bound32 then
        some (domains.mapIdx fun i domain => block (UInt32.ofNat (firstId + i)) domain)
      else none :=
  number?_eq firstId domains

theorem exists_build? {domains : List String} (hroom : firstId + domains.length + 1 < bound32) :
    ∃ rules, build? domains = some rules :=
  ⟨_, (build?_eq domains).trans (if_pos hroom)⟩

-- Of the first domains the first rules are built
theorem build?_take {domains : List String} {rules : List Rule}
    (h : build? domains = some rules) (m : Nat) :
    build? (domains.take m) = some (rules.take m) := by
  rw [build?_eq] at h ⊢
  split at h
  case isFalse => cases h
  case isTrue hroom =>
    have hless : (domains.take m).length ≤ domains.length := List.length_take_le' m domains
    cases h
    rw [if_pos (by omega)]
    congr 1
    apply List.ext_getElem <;> simp

end Blocklist.Rule
