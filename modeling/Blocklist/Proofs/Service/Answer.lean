import Blocklist.Proofs.Program.Limits
import Blocklist.Proofs.Program.Refinement
-- Answers to queries for rules.
namespace Blocklist.Service

open Fetch Program Text

-- The limits of a form are those that were written. A query that does not repeat the limit asks for
-- one limit, and is answered with the rules up to it. No answer comes just if that many rules
-- cannot be generated. A query that repeats the limit is refused.
theorem queries_ask_for_a_limit (p : Plan) (world : World) (query : Option String) :
    let values := limitValues (query.getD "").toList
    let answer := answer? p world ⟨"GET", generateTarget query⟩
    (∀ pairs, WritesForm pairs (query.getD "").toList →
      values = (pairs.filter fun pair => pair.1 == limitName).map Prod.snd) ∧
    (values.length ≤ 1 → ∃ limit, (∀ n, Asks p.settings.limit values n ↔ n = limit) ∧
      (answer = none ↔ 2 ^ 61 - 1 < p.settings.maxConcurrency ∨
        2 ^ 32 - 2002 < (p.domainsUpTo world limit).length) ∧
      ∀ response, answer = some response → response.status = 200 ∧
        ∃ g, generate? p world limit = some g ∧ Rule.readAll response.body = .ok g.rules) ∧
    (1 < values.length → answer = some ⟨400, repeatedLimit, []⟩) := by
  intro values answer
  have hanswer : answer = answerGenerate? p world (query.getD "").toList :=
    answer?_generateTarget p world query
  rw [hanswer, answerGenerate?]
  refine ⟨fun pairs hform => ?_, fun hfew => ?_, fun hmany => ?_⟩
  · have hvalues : values = ((formPairs (query.getD "").toList).filter
        fun pair => pair.1 == limitName).map Prod.snd := rfl
    rw [hvalues, hform.formPairs]
  · have hasks : limitOf? p.settings.limit (query.getD "").toList ≠ none :=
      mt limitOf?_eq_none_iff.mp (Nat.not_lt.mpr hfew)
    obtain ⟨limit, hlimit⟩ := Option.ne_none_iff_exists'.mp hasks
    simp only [hlimit]
    refine ⟨limit, fun n => ?_, ?_, ?_⟩
    · rw [← limitOf?_eq_some_iff, hlimit, Option.some.injEq, eq_comm]
    · rw [Option.map_eq_none_iff, generate?_eq_none_iff]
    · intro response hresponse
      obtain ⟨g, hg, rfl⟩ := Option.map_eq_some_iff.mp hresponse
      exact ⟨rfl, g, hg, Rule.readAll_writeAll .compact g.rules⟩
  · rw [limitOf?_eq_none_iff.mpr hmany]

-- A plan without lists
def emptyPlan : Plan where
  settings := { Settings.standard with maxConcurrency := 1 }
  dataset := ⟨[], 0⟩
  client := ⟨Client.standardAgent, isHeaderText_standardAgent, 12000, Client.standardMaxBody⟩

theorem domainsUpTo_emptyPlan (world : World) (limit : Nat) :
    emptyPlan.domainsUpTo world limit = [] := by
  have hdeadline : emptyPlan.InTime world limit := by
    refine inTime_of_sum_lt ?_ limit
    show 0 < emptyPlan.settings.deadline.inMilliseconds
    decide
  have hnone : blockedInOrder world.network emptyPlan.client emptyPlan.urls limit = [] := by
    rw [show emptyPlan.urls = [] from rfl, blockedInOrder, List.flatMap_nil, List.eraseDups_nil,
      List.take_nil]
  exact (collected_eq rfl rfl hdeadline).trans hnone

-- A number with a sign in codes, and blanks around it
def codedQuery : String := "x=1&limit=+%2B007%C2%A0"

theorem codedQuery_written :
    WritesForm [("x", "1"), ("limit", " +007\u00A0")] codedQuery.toList := by
  have hvalue : Writes [' ', '+', '0', '0', '7', '\u00A0'] "+%2B007%C2%A0".toList :=
    .space (@Writes.coded '+' ['%', '2', 'B'] _ _ (by decide +kernel)
      (.plain (by decide) (by decide) (.plain (by decide) (by decide)
        (.plain (by decide) (by decide)
          (@Writes.coded '\u00A0' ['%', 'C', '2', '%', 'A', '0'] _ _ (by decide +kernel) .nil)))))
  have hother : WritesPair ("x", "1") ("x".toList ++ '=' :: "1".toList) :=
    .mk (writes_self (by decide) (by decide)) (writes_self (by decide) (by decide)) (by decide)
      (by decide) (by decide)
  have hlimit : WritesPair ("limit", " +007\u00A0")
      ("limit".toList ++ '=' :: "+%2B007%C2%A0".toList) :=
    .mk (writes_self (by decide) (by decide)) hvalue (by decide) (by decide) (by decide)
  exact .cons hother (.last hlimit)

theorem queries_ask_for_a_limit_coded :
    (∃ response g, answer? emptyPlan World.offline
        ⟨"GET", generateTarget (some codedQuery)⟩ = some response ∧
      response.status = 200 ∧ generate? emptyPlan World.offline 7 = some g ∧
      Rule.readAll response.body = .ok g.rules) ∧
    answer? emptyPlan World.offline ⟨"GET", generateTarget (some "limit=1&limit=2")⟩ =
      some ⟨400, repeatedLimit, []⟩ := by
  obtain ⟨hvalues, hcoded, -⟩ :=
    queries_ask_for_a_limit emptyPlan World.offline (some codedQuery)
  have hone : limitValues codedQuery.toList = [" +007\u00A0"] := hvalues _ codedQuery_written
  have hseven : Asks emptyPlan.settings.limit [" +007\u00A0"] 7 :=
    .number ⟨[' '], ['+'], ['0', '0', '7'], ['\u00A0'], rfl, List.all_eq_true.mp rfl,
      List.all_eq_true.mp rfl, .inr rfl, nofun, List.all_eq_true.mp rfl, rfl⟩ (by decide)
  rw [Option.getD_some, hone] at hcoded
  obtain ⟨limit, hlimit, hnone, hsome⟩ := hcoded (Nat.le_refl 1)
  obtain rfl := (hlimit 7).mp hseven
  rw [domainsUpTo_emptyPlan] at hnone
  obtain ⟨response, hresponse⟩ := Option.ne_none_iff_exists'.mp (mt hnone.mp (by decide))
  obtain ⟨hstatus, g, hg, hread⟩ := hsome response hresponse
  obtain ⟨-, -, htwice⟩ :=
    queries_ask_for_a_limit emptyPlan World.offline (some "limit=1&limit=2")
  exact ⟨⟨response, g, hresponse, hstatus, hg, hread⟩, htwice (by decide +kernel)⟩

-- Where rules can be generated up to any limit, there is still a query that gets none
theorem not_every_query_gets_rules :
    ¬ ∀ (p : Plan) (world : World) (query : Option String),
      (∀ limit, ∃ g, generate? p world limit = some g) →
      ∃ response, answer? p world ⟨"GET", generateTarget query⟩ = some response ∧
        response.status = 200 := by
  intro hrules
  have hgenerates (limit : Nat) :
      ∃ g, generate? emptyPlan World.offline limit = some g := by
    rw [← Option.ne_none_iff_exists', Ne, generate?_eq_none_iff, domainsUpTo_emptyPlan]
    decide
  obtain ⟨response, hresponse, hstatus⟩ :=
    hrules emptyPlan World.offline (some "limit=1&limit=2") hgenerates
  have hquery : "limit=1&limit=2".toList = limitQuery 1 ++ '&' :: limitQuery 2 := by decide
  rw [answer?_generateTarget, answerGenerate?, Option.getD_some, hquery,
    limitOf?_repeated] at hresponse
  rw [← Option.some.inj hresponse] at hstatus
  exact absurd hstatus (by decide)

end Blocklist.Service
