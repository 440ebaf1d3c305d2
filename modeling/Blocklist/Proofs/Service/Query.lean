import Blocklist.Proofs.Service.Form
import Blocklist.Proofs.Text.Numeral
import Blocklist.Service.Basic
import Mathlib.Algebra.Ring.Nat
-- Which limit a query asks for. Each query asks for one, whatever else it has, unless it tells
-- the limit more than once.
namespace Blocklist.Service

open Text

variable {standard n : Nat} {value : String} {query : List Char}

-- The limit that these values ask for. What no number says asks for the standard.
inductive Asks (standard : Nat) : List String → Nat → Prop
  | number {value : String} {n : Nat} (number : SaysNumber value.toList n)
      (bound : n ≤ 2 ^ 64 - 1) : Asks standard [value] n
  | other {value : String} (none : ∀ n ≤ 2 ^ 64 - 1, ¬ SaysNumber value.toList n) :
      Asks standard [value] standard
  | untold : Asks standard [] standard

theorem readLimit_eq_iff : readLimit standard value = n ↔ Asks standard [value] n := by
  have hmax : bound64 - 1 = 2 ^ 64 - 1 := by decide
  rw [readLimit, word64?, hmax]
  cases hread : unsigned? (2 ^ 64 - 1) (trim value.toList) with
  | some m =>
    obtain ⟨hnumber, hbound⟩ := unsigned?_trim_eq_some.mp hread
    rw [Option.getD_some]
    constructor
    · rintro rfl
      exact .number hnumber hbound
    · intro hasks
      cases hasks with
      | number hother hwithin =>
        exact Option.some.inj (hread.symm.trans (unsigned?_trim_eq_some.mpr ⟨hother, hwithin⟩))
      | other hnone => exact absurd hnumber (hnone m hbound)
  | none =>
    have hnone := unsigned?_trim_eq_none.mp hread
    rw [Option.getD_none]
    constructor
    · rintro rfl
      exact .other hnone
    · intro hasks
      cases hasks with
      | number hnumber hbound => exact absurd hnumber (hnone n hbound)
      | other => rfl

theorem limitOf?_eq_some_iff :
    limitOf? standard query = some n ↔ Asks standard (limitValues query) n := by
  rw [limitOf?]
  cases limitValues query with
  | nil =>
    rw [Option.some.injEq]
    exact ⟨fun hsame => hsame ▸ .untold, fun hasks => by cases hasks; rfl⟩
  | cons value others =>
    cases others with
    | nil => rw [Option.some.injEq, readLimit_eq_iff]
    | cons => exact ⟨nofun, nofun⟩

theorem limitOf?_eq_none_iff :
    limitOf? standard query = none ↔ 1 < (limitValues query).length := by
  rw [limitOf?]
  cases limitValues query with
  | nil => simp
  | cons value others => cases others <;> simp

-- The query that asks for `n` rules
def limitQuery (n : Nat) : List Char := limitName.toList ++ '=' :: Nat.toDigits 10 n

theorem limitValues_limitQuery (n : Nat) :
    limitValues (limitQuery n) = [String.ofList (Nat.toDigits 10 n)] := by
  have hno (c : Char) (hc : c.isDigit = false) : c ∉ Nat.toDigits 10 n := fun hmem => by
    simp [isDigit_of_mem_toDigits hmem] at hc
  have hdigits : Writes (String.ofList (Nat.toDigits 10 n)).toList (Nat.toDigits 10 n) := by
    rw [String.toList_ofList]
    exact writes_self (hno '+' (by decide)) (hno '%' (by decide))
  have hpair : WritesPair (limitName, String.ofList (Nat.toDigits 10 n)) (limitQuery n) :=
    .mk (writes_self (by decide) (by decide)) hdigits (by decide) (by decide) (hno '&' (by decide))
  rw [limitValues, hpair.formPairs]
  rfl

theorem limitOf?_limitQuery (standard : Nat) {n : Nat} (h : n < bound64) :
    limitOf? standard (limitQuery n) = some n := by
  have hnumber : SaysNumber (String.ofList (Nat.toDigits 10 n)).toList n := by
    simpa using saysNumber_toDigits (List.forall_mem_nil _) (List.forall_mem_nil _) n
  rw [limitOf?_eq_some_iff, limitValues_limitQuery]
  exact .number hnumber (Nat.le_of_lt_succ h)

-- The same limit told again is no exception
theorem limitOf?_repeated (standard m n : Nat) :
    limitOf? standard (limitQuery m ++ '&' :: limitQuery n) = none := by
  rw [limitOf?_eq_none_iff, limitValues_append, limitValues_limitQuery, limitValues_limitQuery]
  exact Nat.lt_succ_self 1

-- The target of a request for rules, with a query or without one
def generateTarget : Option String → String
  | none => "/generate"
  | some query => "/generate?" ++ query

theorem splitTarget_generateTarget (query : Option String) :
    splitTarget (generateTarget query) = ("/generate", (query.getD "").toList) := by
  cases query with
  | none => rfl
  | some query =>
    have htarget : (generateTarget (some query)).toList =
        "/generate".toList ++ '?' :: query.toList := by
      simp [generateTarget]
    have hspan : ("/generate".toList ++ '?' :: query.toList).span (· != '?') =
        ("/generate".toList, '?' :: query.toList) :=
      span_append_cons "/generate".toList _ rfl rfl
    simp only [splitTarget, htarget, hspan, List.tail_cons, String.ofList_toList, Option.getD_some]

-- What is asked there is answered as the query says
theorem answer?_generateTarget (p : Program.Plan) (world : Program.World)
    (query : Option String) :
    answer? p world ⟨"GET", generateTarget query⟩ =
      answerGenerate? p world (query.getD "").toList := by
  have hpage : page? "/generate" = some .generate := rfl
  simp only [answer?, splitTarget_generateTarget, hpage, answerPage?]

theorem generateTarget_limitQuery (n : Nat) :
    generateTarget (some (String.ofList (limitQuery n))) = "/generate?limit=" ++ toString n := by
  rw [← String.toList_inj]
  simp [generateTarget, limitQuery, limitName]

end Blocklist.Service
