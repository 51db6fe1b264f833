import Sovra.Carbon.Ceremonies
import Sovra.Mpc.MemHub

/-!
# Sovra — the three ceremonies in one process

The ceremonies as `InProcessBackend` and the runner's tests run them: all parties
of one process over a `MemoryHub`. None of their rounds offers what it does not
expect, so no party writes to one that has returned, and the ceremonies end as on
the network.

* `hub_direct` — on any schedule every party makes the calls and ends as direct
  routing says, and every relay is dropped.
-/

namespace Sovra.Carbon

open Lib Mpc

-- ---------------------------------------------------------------------------
-- What the rounds offer
-- ---------------------------------------------------------------------------

/-- A round that expects both kinds wants all it is offered. -/
theorem wanted_both {round : UInt8} {outbox : UInt8 → RoundOutbox} :
    (⟨round, .Both, outbox⟩ : Stage).Wanted := by
  intro k p q _
  cases k <;> rfl

/-- Sealed payloads alone. -/
theorem wanted_p2p {round : UInt8} {outbox : UInt8 → RoundOutbox}
    (h : ∀ q, (outbox q).broadcast = none) : (⟨round, .P2p, outbox⟩ : Stage).Wanted := by
  intro k p q hSome
  cases k with
  | false =>
    have hContent : (⟨round, .P2p, outbox⟩ : Stage).content false p q = none := h q
    rw [hContent] at hSome
    cases hSome
  | true => rfl

/-- Broadcasts alone. -/
theorem wanted_broadcasts {round : UInt8} {outbox : UInt8 → RoundOutbox}
    (h : ∀ q, (outbox q).p2p = ∅) : (⟨round, .Broadcasts, outbox⟩ : Stage).Wanted := by
  intro k p q hSome
  cases k with
  | false => rfl
  | true =>
    have hContent : (⟨round, .Broadcasts, outbox⟩ : Stage).content true p q = none := by
      show (outbox q).p2p[p]? = none
      rw [h q]
      exact Std.ExtTreeMap.getElem?_empty
    rw [hContent] at hSome
    cases hSome

section

variable {D : Dkls} {C : Crypto} {R : Roster C}

/-- In key generation each round offers what its receivers expect. -/
theorem DkgRun.stage_wanted {S : Type} {L : UInt8 → DkgPhases D S} {run : DkgRun D L R} :
    ∀ st ∈ run.stages, st.Wanted := by
  intro st hSt
  simp only [stages, List.mem_cons, List.not_mem_nil, or_false] at hSt
  rcases hSt with rfl | rfl | rfl
  · exact wanted_p2p fun _ => rfl
  · exact wanted_both
  · exact wanted_both

/-- In a refresh each round offers what its receivers expect. -/
theorem RefreshRun.stage_wanted {L : UInt8 → RefreshPhases D} {share : UInt8 → KeyShare}
    {publicKey : PubkeySec1} {run : RefreshRun D L R share publicKey} :
    ∀ st ∈ run.stages, st.Wanted := by
  intro st hSt
  simp only [stages, List.mem_cons, List.not_mem_nil, or_false] at hSt
  rcases hSt with rfl | rfl | rfl
  · exact wanted_p2p fun _ => rfl
  · exact wanted_both
  · exact wanted_p2p fun _ => rfl

/-- In a signing each round offers what its receivers expect. -/
theorem SignRun.stage_wanted {S : Type} {L : UInt8 → SignPhases D S} {share : UInt8 → KeyShare}
    {digest : B256} {subset : List UInt8} {run : SignRun D L R share digest subset} :
    ∀ st ∈ run.stages, st.Wanted := by
  intro st hSt
  simp only [stages, List.mem_cons, List.not_mem_nil, or_false] at hSt
  rcases hSt with rfl | rfl | rfl
  · exact wanted_p2p fun _ => rfl
  · exact wanted_p2p fun _ => rfl
  · exact wanted_broadcasts fun _ => rfl

end

/-- Ascending ids are distinct. -/
theorem nodup_of_ascending {ps : List UInt8} (h : ps.Pairwise (· < ·)) : ps.Nodup :=
  h.imp UInt8.ne_of_lt

/-- **Ceremonies over the hub compute what direct routing computes.** Whatever the
order in which the parties are polled and read their mailboxes, and whenever a
party that has ended drops its relay: all parties connect, none is refused a
send, each makes the calls of the direct routing and ends as it does, and once
nothing can move every party has ended and every relay is gone. -/
theorem hub_direct {C : Crypto} (hBox : C.SealedBox) (hSigns : C.Signs) {D : Dkls}
    (hCodecs : D.RoundTrips) {R : Roster C} (hScheme : SchemeOk R.threshold R.count)
    (text : UInt8 → UInt8 → String) (rnd : UInt8 → UInt8 → UInt8 → SealRandomness C) :
    (∀ {S : Type} {L : UInt8 → DkgPhases D S} (run : DkgRun D L R),
      (keygen D text L R rnd).Seals run.stages →
      (keygen D text L R rnd).HostComputes run.calls run.result) ∧
    (∀ {L : UInt8 → RefreshPhases D} {share publicKey} (run : RefreshRun D L R share publicKey),
      (refreshAll D text L R share publicKey rnd).Seals run.stages →
      (refreshAll D text L R share publicKey rnd).HostComputes run.calls run.result) ∧
    ∀ {S : Type} {E : K256} {L : UInt8 → SignPhases D S} {share digest subset}
      (run : SignRun D L R share digest subset), SubsetOf R subset →
      (signAll D E L R share digest subset rnd).Seals run.stages →
      (signAll D E L R share digest subset rnd).HostComputes run.calls (run.result E) := by
  have hIds : (ids R.count).Nodup := nodup_of_ascending (ids_ascending (Nat.le_succ_of_le hScheme.bound))
  -- each ceremony agrees with direct routing on any network, so on this hub too
  refine ⟨?_, ?_, ?_⟩
  · intro S L run hSeals
    exact Ceremony.hosted_computes (keygen_direct hBox hSigns hCodecs hScheme run hSeals) hIds
      DkgRun.stage_wanted
  · intro L share publicKey run hSeals
    exact Ceremony.hosted_computes (refresh_direct hBox hSigns hCodecs hScheme run hSeals) hIds
      RefreshRun.stage_wanted
  · intro S E L share digest subset run hSubset hSeals
    exact Ceremony.hosted_computes
      (sign_direct hBox hSigns hCodecs hScheme.bound hSubset run hSeals)
      (nodup_of_ascending hSubset.ascending) SignRun.stage_wanted

open Sample in
/-- Each of the three ceremonies of a 2-of-3, in one process. -/
theorem hub_direct_three :
    (keygen dkls text dkg roster rnd).HostComputes dkgRun.calls dkgRun.result ∧
    (refreshAll dkls text refreshPhases roster share key rnd).HostComputes refreshRun.calls
      refreshRun.result ∧
    (signAll dkls k256 signPhases roster share digest subset rnd).HostComputes signRun.calls
      (signRun.result k256) := by
  have hScheme : SchemeOk roster.threshold roster.count := ⟨by decide, by decide, by decide⟩
  obtain ⟨hKeygen, hRefresh, hSign⟩ :=
    hub_direct Symbolic.sealedBox symbolic_signs dkls_roundTrips hScheme text rnd
  exact ⟨hKeygen dkgRun (symbolic_seals _ _), hRefresh refreshRun (symbolic_seals _ _),
    hSign signRun ⟨by decide, subset_bound⟩ (symbolic_seals _ _)⟩

end Sovra.Carbon
