import Blocklist.Proofs.Domain.Extract
import Blocklist.Proofs.Pool.Ticks
-- A run against a clock is one order of events among all that there are, and it is over
-- when it returns. What the domains come to in every order, they come to in such a run.
namespace Blocklist.Pool

open Batch Gathering

namespace Generator

open Run

-- What a run returns is one of the results that the lists can come to
theorem collectDomains_comes (script : Script) (requested deadline limit : Nat)
    (urls : List String) {c : Collected}
    (hc : c = collectDomains ⟨effectiveCeiling requested, deadline⟩ script urls limit)
    (hdeadline : c.finishedAt < deadline ∨ c.submitted = urls.length) :
    Comes script.fetcher requested urls limit c.domains := by
  by_cases hlimit : limit = 0
  · subst hlimit hc
    exact ⟨_, .refl, rfl, nofun, rfl⟩
  · have hpositive := Nat.pos_of_ne_zero hlimit
    have hceiling := effectiveCeiling_pos requested
    obtain ⟨ticks, hover⟩ := run_ticks script deadline urls hceiling hpositive
    rw [collectDomains_of_pos _ _ _ hpositive] at hc
    subst hc
    have hsteps := ticks.of_initial
    refine ⟨_, hsteps, hover, fun hcancel => ?_, rfl⟩
    obtain ⟨notes, t, _⟩ := holds_delivered hsteps
    have hsound := ticks.sound (sound_initial script deadline urls limit hceiling)
    have hlate := hsound.clock.mp hcancel
    rcases hdeadline with hearly | hall
    · exact absurd hlate (Nat.not_le.mpr hearly)
    · rw [(accounts_trace t).queue]
      exact List.drop_eq_nil_iff.mpr (Nat.le_of_eq hall.symm)

end Generator

end Blocklist.Pool
