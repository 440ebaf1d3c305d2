import Blocklist.Proofs.Domain.CutLine
import Blocklist.Proofs.Fetch.Served
-- Domains in a body that is capped. The cap is one of bytes, so that it may cut a line in two,
-- and a name in it.
namespace Blocklist.Fetch

open Domain Text

variable {c : Client} {network : Network} {url : String} {r : Reply}

-- The text of a body without a cap
def Reply.wholeText (r : Reply) : String := String.ofList (decodeLossy r.chunks.flatten)

theorem fetch_text (hreply : (network c url).reaction = .reply r)
    (hsuccess : r.status.isSuccess = true) :
    (c.fetch network url).text.toOption =
      (r.capped? c.maxBody).map fun bytes => String.ofList (decodeLossy bytes) := by
  simp [fetch_toOption, served?, hreply, hsuccess]

theorem capped?_of_complete (hending : r.ending = .complete) (cap : Nat) :
    r.capped? cap = some (r.chunks.flatten.take cap) := by
  rw [Reply.capped?, hending]

theorem eq_take_of_capped? {cap : Nat} {bytes : List UInt8} (h : r.capped? cap = some bytes) :
    bytes = r.chunks.flatten.take cap := by
  unfold Reply.capped? at h
  split at h
  · exact (Option.some.inj h).symm
  · rw [Option.ite_none_right_eq_some] at h
    exact (Option.some.inj h.2).symm

-- A body that comes to its end is fetched, whatever the cap
theorem exists_text_of_complete (hreply : (network c url).reaction = .reply r)
    (hsuccess : r.status.isSuccess = true) (hending : r.ending = .complete) :
    ∃ text, (c.fetch network url).text = .ok text := by
  have hfetch := fetch_text hreply hsuccess
  rw [capped?_of_complete hending, Option.map_some] at hfetch
  cases htext : (c.fetch network url).text with
  | ok text => exact ⟨text, rfl⟩
  | error e =>
      rw [htext] at hfetch
      cases hfetch

-- The text of a fetch is that of the first bytes of the body
theorem eq_decodeLossy_of_fetch {text : String} (hreply : (network c url).reaction = .reply r)
    (hsuccess : r.status.isSuccess = true) (htext : (c.fetch network url).text = .ok text) :
    text = String.ofList (decodeLossy (r.chunks.flatten.take c.maxBody)) := by
  have hfetch := fetch_text hreply hsuccess
  rw [htext] at hfetch
  obtain ⟨bytes, hbytes, rfl⟩ := Option.map_eq_some_iff.mp hfetch.symm
  rw [eq_take_of_capped? hbytes]

-- What the first bytes of a sequence yield all of them yield, or it stands at a cut in a line
theorem yields_take (bytes : List UInt8) (cap : Nat) {host : List Char}
    (h : Yields Matcher.standard (decodeLossy (bytes.take cap)) host) :
    Yields Matcher.standard (decodeLossy bytes) host ∨
      ∃ next, bytes[cap]? = some next ∧ next ≠ 0x0A ∧ ∃ name, name.map Char.toLower = host ∧
        Matcher.AtCut (trim (lastLine (decodeLossy (bytes.take cap)))) name := by
  have hsplit : bytes.take cap ++ bytes.drop cap = bytes := List.take_append_drop cap bytes
  cases hnext : bytes[cap]? with
  | none =>
      have hlength : bytes.length ≤ cap := List.getElem?_eq_none_iff.mp hnext
      rw [List.take_of_length_le hlength] at h
      exact .inl h
  | some next =>
      by_cases hend : next = 0x0A
      · obtain ⟨hlt, hget⟩ := List.getElem?_eq_some_iff.mp hnext
        rw [List.drop_eq_getElem_cons hlt, hget, hend] at hsplit
        obtain ⟨more, hmore⟩ := decodeLossy_append_lineFeed (bytes.take cap) (bytes.drop (cap + 1))
        rw [hsplit, List.append_assoc] at hmore
        rw [← hmore]
        exact .inl (yields_append_line.mpr (.inl h))
      · have hcut := cut_decodeLossy (bytes.take cap) (bytes.drop cap)
        rw [hsplit] at hcut
        exact (yields_of_cut hcut h).imp_right fun hat => ⟨next, rfl, hend, hat⟩

-- A body that comes to its end is fetched. What is extracted from the text of a fetch is
-- extracted from the whole body as well, except for a name at the cut, which is in the middle of
-- a line.
theorem capped_domains_are_whole_or_at_the_cut (c : Client) (network : Network) (url : String)
    (r : Reply) (hreply : (network c url).reaction = .reply r)
    (hsuccess : r.status.isSuccess = true) :
    (r.ending = .complete → ∃ text, (c.fetch network url).text = .ok text) ∧
    ∀ text, (c.fetch network url).text = .ok text → ∀ d ∈ extract text,
      d ∈ extract r.wholeText ∨
      ∃ next, r.chunks.flatten[c.maxBody]? = some next ∧ next ≠ 0x0A ∧
        ∃ name, name.map Char.toLower = d.toList ∧
          Matcher.AtCut (trim (lastLine text.toList)) name := by
  refine ⟨exists_text_of_complete hreply hsuccess, fun text htext d hd => ?_⟩
  obtain rfl := eq_decodeLossy_of_fetch hreply hsuccess htext
  rw [extract, mem_extractWith, String.toList_ofList] at hd
  rw [extract, mem_extractWith, Reply.wholeText, String.toList_ofList, String.toList_ofList]
  exact yields_take _ _ hd

-- A cap that takes the last letter of a host
def hostsReply : Reply :=
  .success [encode "||a.org^\n0.0.0.0 ads.example.com".toList] .complete

def hostsClient : Client := .keeping 31

def hostsUrl : String := "http://lists.example/hosts"

-- A network in which each request ends in the same reply
def Network.replying (r : Reply) : Network := fun _ _ => ⟨1, .reply r⟩

theorem fetch_hostsUrl : (hostsClient.fetch (.replying hostsReply) hostsUrl).text =
    .ok "||a.org^\n0.0.0.0 ads.example.co" := by
  decide

theorem wholeText_hostsReply : hostsReply.wholeText = "||a.org^\n0.0.0.0 ads.example.com" := by
  decide

theorem mem_extract_cut : "ads.example.co" ∈ extract "||a.org^\n0.0.0.0 ads.example.co" := by
  rw [extract, mem_extractWith, Yields]
  decide

theorem not_mem_extract_whole : "ads.example.co" ∉ extract hostsReply.wholeText := by
  rw [wholeText_hostsReply, extract, mem_extractWith, Yields]
  decide

-- The byte at the cap is the letter
theorem capped_domains_are_whole_or_at_the_cut_hosts :
    (∃ text, (hostsClient.fetch (.replying hostsReply) hostsUrl).text = .ok text) ∧
    ∃ next, hostsReply.chunks.flatten[31]? = some next ∧ next ≠ 0x0A ∧
      ∃ name, name.map Char.toLower = "ads.example.co".toList ∧
        Matcher.AtCut "0.0.0.0 ads.example.co".toList name := by
  obtain ⟨hcomes, hdomains⟩ := capped_domains_are_whole_or_at_the_cut hostsClient
    (.replying hostsReply) hostsUrl hostsReply rfl rfl
  refine ⟨hcomes rfl, ?_⟩
  exact (hdomains _ fetch_hostsUrl _ mem_extract_cut).resolve_left not_mem_extract_whole

-- The host without its last letter is a host of its own, which the whole line does not name
theorem not_every_domain_is_in_the_whole_body :
    ¬ ∀ (c : Client) (network : Network) (url : String) (r : Reply),
      (network c url).reaction = .reply r → r.status.isSuccess = true →
      ∀ text, (c.fetch network url).text = .ok text →
      ∀ d ∈ extract text, d ∈ extract r.wholeText := by
  intro hclaim
  apply not_mem_extract_whole
  exact hclaim hostsClient (.replying hostsReply) hostsUrl hostsReply rfl rfl _ fetch_hostsUrl _
    mem_extract_cut

end Blocklist.Fetch
