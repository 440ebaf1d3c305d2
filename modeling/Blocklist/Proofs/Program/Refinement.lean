import Blocklist.Proofs.Fetch.Served
import Blocklist.Proofs.Pool.Deadline
import Blocklist.Proofs.Pool.Generator
import Blocklist.Proofs.Pool.Sequential
import Blocklist.Proofs.Program.Run
import Blocklist.Proofs.Rules.Build
import Blocklist.Proofs.Rules.RoundTrip
import Blocklist.Proofs.Service.Query
-- The program with one fetch at a time, from the dataset to the file of rules and to the
-- answers of the service: both are what going through the lists in order comes to.
namespace Blocklist.Program

open Blocklist.Fetch Blocklist.Files Blocklist.Settings
open Pool Pool.Batch Pool.Gathering Collector

-- The domains of a list: those in the text that a client is served for it, unless that is empty
def listDomains (network : Network) (c : Client) (url : String) : List String :=
  match served? network c Client.standardMaxBody url with
  | none => []
  | some text => if text.isEmpty then [] else Domain.extract text

-- The domains of lists, one list after the other and each domain once, up to the limit
def blockedInOrder (network : Network) (c : Client) (urls : List String) (limit : Nat) :
    List String :=
  (urls.flatMap (listDomains network c)).eraseDups.take limit

-- The deadline leaves out no list
def Plan.InTime (p : Plan) (world : World) (limit : Nat) : Prop :=
  (p.collected world limit).finishedAt < p.settings.generator.deadline ∨
    (p.collected world limit).submitted = p.urls.length

variable {p : Plan} {network : Network} {world : World} {limit : Nat}

theorem maxBody_of_create {settings : Settings} {dataset : Dataset}
    (h : Plan.create settings dataset = .ok p) : p.client.maxBody = Client.standardMaxBody := by
  simp only [Plan.create, Client.create] at h
  split at h
  case h_1 client hclient =>
    split at hclient <;> cases hclient
    cases h
    rfl
  case h_2 => cases h

theorem outcomes_script (p : Plan) (network : Network) (urls : List String) :
    (p.script network).fetcher.outcomes urls =
      urls.map fun url => ⟨url, (p.client.fetch network url).text⟩ := by
  have hall : (fun place : String × Nat =>
        (p.script network).fetcher.outcome? place.2 place.1) =
      some ∘ (fun url => (⟨url, (p.client.fetch network url).text⟩ : Outcome)) ∘ Prod.fst := rfl
  rw [Fetcher.outcomes, hall, List.filterMap_eq_map, ← List.map_map, List.zipIdx_map_fst]

theorem domainsOf_fetch (hmax : p.client.maxBody = Client.standardMaxBody) (url : String) :
    domainsOf ⟨url, (p.client.fetch network url).text⟩ = listDomains network p.client url := by
  have hserved := fetch_toOption p.client network url
  rw [hmax] at hserved
  unfold listDomains domainsOf Outcome.text?
  rw [← hserved]
  cases (p.client.fetch network url).text with
  | error e => rfl
  | ok text => cases hempty : text.isEmpty <;> simp [Except.toOption, hempty]

theorem collected_eq (h : Plan.create p.settings p.dataset = .ok p)
    (hone : p.settings.maxConcurrency = 1) (hdeadline : p.InTime world limit) :
    (p.collected world limit).domains =
      blockedInOrder world.network p.client p.urls limit := by
  have hgenerator : p.settings.generator =
      ⟨effectiveCeiling 1, p.settings.deadline.inMilliseconds⟩ := by
    rw [Settings.generator, hone]
  unfold Plan.InTime Plan.collected at hdeadline
  unfold Plan.collected
  rw [hgenerator] at hdeadline ⊢
  have hcomes := Generator.collectDomains_comes (p.script world.network) 1 _ limit p.urls rfl
    hdeadline
  rw [hcomes.sequential, outcomes_script, blockedInOrder, List.flatMap_map]
  simp only [domainsOf_fetch (maxBody_of_create h)]

-- Rules are generated for these domains, whenever they can be built
theorem generate?_rules (h : Plan.create p.settings p.dataset = .ok p)
    (hone : p.settings.maxConcurrency = 1) (hdeadline : p.InTime world limit) :
    (generate? p world limit).map Generation.rules =
      Rule.build? (blockedInOrder world.network p.client p.urls limit) := by
  have hpossible : p.settings.generator.isPossible = true := by
    have hceiling : effectiveCeiling 1 ≤ maxCeiling := by decide
    rw [Settings.generator, hone]
    exact decide_eq_true hceiling
  simp only [generate?, if_pos hpossible, collected_eq h hone hdeadline, Option.map_map]
  exact Option.map_id'

-- The deadline leaves out no list if there is time for all of them, one after the other
theorem inTime_of_sum_lt
    (hdeadline : (p.urls.map fun url => (world.network p.client url).took).sum <
      p.settings.deadline.inMilliseconds) (limit : Nat) : p.InTime world limit :=
  .inl ((Generator.finishedAt_le_sum (p.script world.network) p.settings.maxConcurrency _ p.urls
    limit).trans_lt hdeadline)

-- The answer to a query for `n` rules
theorem answer?_limit (p : Plan) (world : World) {n : Nat} (h : n < Text.bound64) :
    Service.answer? p world ⟨"GET", "/generate?limit=" ++ toString n⟩ =
      (generate? p world n).map fun g =>
        ⟨200, Rule.writeAll .compact g.rules, Service.generationLines p world n⟩ := by
  rw [← Service.generateTarget_limitQuery, Service.answer?_generateTarget, Option.getD_some,
    String.toList_ofList, Service.answerGenerate?, Service.limitOf?_limitQuery _ h]

-- What can be opened holds these bytes, unless it keeps nothing that is written to it
def Keeps (tree : Tree) (path : Path) (bytes : List UInt8) : Prop :=
  tree.opened path = .ok (.bytes bytes) ∨
    ∃ place, tree.locate path = .ok place ∧ tree.entry? place = some .void

theorem one_list_after_the_other (p : Plan) (world : World)
    (hone : p.settings.maxConcurrency = 1) :
    (∀ tree i r after, Prepares tree i .generate p → p.InTime world p.settings.limit →
      runOn tree world i = (.done r, after) → r.exit = .success →
      ∃ rules, Rule.build? (blockedInOrder world.network p.client p.urls p.settings.limit) =
          some rules ∧
        Keeps after p.settings.output (Text.encode (Rule.writeAll .indented rules).toList)) ∧
    ∀ tree i q filter errors after limit rules, Prepares tree i .serve p →
      limit < Text.bound64 → p.InTime world limit →
      runOn tree world i = (.serving q filter errors, after) →
      Rule.build? (blockedInOrder world.network p.client p.urls limit) = some rules →
      ∃ response, Service.answer? q world ⟨"GET", "/generate?limit=" ++ toString limit⟩ =
          some response ∧
        response.status = 200 ∧ Rule.readAll response.body = .ok rules := by
  refine ⟨fun tree i r after hprepares hdeadline hrun hexit => ?_,
    fun tree i q filter errors after limit rules hprepares hlimit hdeadline hrun hrules => ?_⟩
  · obtain ⟨g, hg, hwritten⟩ := hprepares.generates hrun hexit
    obtain ⟨made, hwrite⟩ := of_writeRules_ok hwritten
    have hrules := generate?_rules hprepares.client hone hdeadline
    rw [hg, Option.map_some] at hrules
    refine ⟨g.rules, hrules.symm, ?_⟩
    rcases Tree.opened_of_write hwrite with hopened | ⟨rfl, hvoid⟩
    · exact .inl hopened
    · exact .inr hvoid
  · obtain rfl := hprepares.serves hrun
    have hboth := (generate?_rules hprepares.client hone hdeadline).trans hrules
    obtain ⟨g, hg, rfl⟩ := Option.map_eq_some_iff.mp hboth
    have hanswer := answer?_limit q world hlimit
    rw [hg, Option.map_some] at hanswer
    exact ⟨_, hanswer, rfl, Rule.readAll_writeAll .compact g.rules⟩

-- A dataset of four lists, of which one is not of interest
def someListsBytes : List UInt8 :=
  Text.encode ("tagIds,primaryViewUrl\n[2],http://a.example/\n[9],http://x.example/\n" ++
    "[2],http://b.example/\n[2],http://c.example/\n").toList

def someListsTree : Tree := ⟨[(["lists.csv"], .file someListsBytes)], []⟩

def someListsCommand (command : String) : Invocation :=
  ⟨["-d", "lists.csv", "-o", "rules.json", "--max-concurrency", "1", command], none, none⟩

def someListsSettings : Settings :=
  { Settings.standard with dataset := "lists.csv", output := "rules.json", maxConcurrency := 1 }

def someListsPlan : Plan := .ofBytes someListsSettings someListsBytes isHeaderText_standardAgent

theorem three_digits_refused : 100 ≤ 404 ∧ 404 ≤ 999 := by decide

-- One address refuses, and two serve lists that share a domain. No other answers in time.
def someLists : Network := fun _ url =>
  match url with
  | "http://a.example/" => ⟨30, .reply
      (.success [Text.encode "||b.example^\n||a.exam".toList, Text.encode "ple^".toList] .complete)⟩
  | "http://b.example/" => ⟨20, .reply ⟨⟨404, three_digits_refused⟩, [], .complete⟩⟩
  | "http://c.example/" => ⟨10, .reply
      (.success [Text.encode Domain.secondList.toList] .complete)⟩
  | _ => ⟨12000, .failed ⟨true, "no answer"⟩⟩

def someListsWorld : World := { World.offline with network := someLists }

theorem blockedInOrder_someLists (limit : Nat) :
    blockedInOrder someLists someListsPlan.client someListsPlan.urls limit =
      ["a.example", "b.example", "c.example"].take limit := by
  have hurls : someListsPlan.urls =
      ["http://a.example/", "http://b.example/", "http://c.example/"] := by decide +kernel
  have hfirst : served? someLists someListsPlan.client Client.standardMaxBody
      "http://a.example/" = some Domain.firstList := by decide +kernel
  have hsecond : served? someLists someListsPlan.client Client.standardMaxBody
      "http://b.example/" = none := rfl
  have hthird : served? someLists someListsPlan.client Client.standardMaxBody
      "http://c.example/" = some Domain.secondList := by decide +kernel
  have hsome : Domain.firstList.isEmpty = false ∧ Domain.secondList.isEmpty = false := by decide
  have hoffered : someListsPlan.urls.flatMap (listDomains someLists someListsPlan.client) =
      ["a.example", "b.example", "a.example", "c.example"] := by
    simp [hurls, listDomains, hfirst, hsecond, hthird, hsome, Domain.extract_firstList,
      Domain.extract_secondList]
  rw [blockedInOrder, hoffered]
  rfl

theorem inTime_someLists (limit : Nat) : someListsPlan.InTime someListsWorld limit :=
  inTime_of_sum_lt (by decide +kernel) limit

theorem one_list_after_the_other_served : ∃ rules few r after response,
    runOn someListsTree someListsWorld (someListsCommand "generate") = (.done r, after) ∧
      r.exit = .success ∧
      Rule.build? ["a.example", "b.example", "c.example"] = some rules ∧
      Keeps after "rules.json" (Text.encode (Rule.writeAll .indented rules).toList) ∧
      Service.answer? someListsPlan someListsWorld ⟨"GET", "/generate?limit=2"⟩ = some response ∧
      response.status = 200 ∧
      Rule.build? ["a.example", "b.example"] = some few ∧
      Rule.readAll response.body = .ok few := by
  have hopened : someListsTree.opened someListsSettings.dataset = .ok (.bytes someListsBytes) := rfl
  have hargs : readArguments none (someListsCommand "generate").arguments =
      .ok ⟨some .generate, none, someListsSettings⟩ := rfl
  have hgenerate : Prepares someListsTree (someListsCommand "generate") .generate someListsPlan :=
    prepares_ofBytes ⟨_, hargs, rfl, rfl⟩ hopened isHeaderText_standardAgent
  have hserving : readArguments none (someListsCommand "serve").arguments =
      .ok ⟨some .serve, none, someListsSettings⟩ := rfl
  have hserve : Prepares someListsTree (someListsCommand "serve") .serve someListsPlan :=
    prepares_ofBytes ⟨_, hserving, rfl, rfl⟩ hopened isHeaderText_standardAgent
  obtain ⟨rules, few, hrules, hfew⟩ : ∃ rules few,
      Rule.build? ["a.example", "b.example", "c.example"] = some rules ∧
        Rule.build? ["a.example", "b.example"] = some few := ⟨_, _, rfl, rfl⟩
  have hall := (congrArg Rule.build? (blockedInOrder_someLists 400)).trans hrules
  have htwo := (congrArg Rule.build? (blockedInOrder_someLists 2)).trans hfew
  obtain ⟨g, hg, hsame⟩ := Option.map_eq_some_iff.mp
    ((generate?_rules hgenerate.client rfl (inTime_someLists 400)).trans hall)
  -- the run can be followed to its end without computing the rules
  have hfilter := filterOf_standard (i := someListsCommand "generate") rfl
  have hthreads : someListsSettings.threads ≠ some 0 := by decide
  have hcommand := (runOn_of_settings someListsWorld hargs rfl hfilter hthreads).trans
    (hgenerate.runCommand_generate someListsWorld _)
  have hwrite : writeRules Tree.disk "rules.json" g.rules someListsTree = (.ok (),
      someListsTree.put ["rules.json"]
        (.file (Text.encode (Rule.writeAll .indented g.rules).toList))) := rfl
  obtain ⟨r, hreport, hexit⟩ := runGenerate_of_written (.ofLevel .info) hg hwrite
  rw [hreport] at hcommand
  have hwhole := one_list_after_the_other someListsPlan someListsWorld rfl
  obtain ⟨written, hwritten, hkeeps⟩ :=
    hwhole.1 _ _ _ _ hgenerate (inTime_someLists 400) hcommand hexit
  obtain ⟨response, hanswer, hstatus, hread⟩ :=
    hwhole.2 _ _ _ _ _ _ 2 few hserve (by decide) (inTime_someLists 2) rfl htwo
  obtain rfl := Option.some.inj (hall.symm.trans hwritten)
  exact ⟨rules, few, r, _, response, hcommand, hexit, hrules, hkeeps, hanswer, hstatus, hfew,
    hread⟩

end Blocklist.Program
