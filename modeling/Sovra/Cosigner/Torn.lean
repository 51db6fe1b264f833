import Sovra.Cosigner.Answers
import Sovra.Cosigner.Generations

/-!
# Sovra — what a torn refresh leaves

A refresh has no commit. Every cosigner puts its shard in place when its own run is
over, and none knows whether the others got there, so a session may be saved by some
and not by all: it is torn. The metadata says the same before and after, for a
refresh keeps the key. What the cosigners' shards have in common is then known by
the torn sessions alone: shards are of one generation exactly if their cosigners
saved the same ones.

* `Kin`              — what cosigners that hold shards of one key agree on.
* `kin_of_holds`     — those that hold shards of one key are kin, in any reachable fleet.
* `quorum_iff_saved` — what is left of a complete fleet after any refreshes.
-/

namespace Sovra.Cosigner

open Lib Mpc State Ipc Carbon

section

variable {C : Crypto} (key : Session → PubkeySec1) (w : Fleet C) (parties : List UInt8)
  (publicKey : PubkeySec1)

/-- Cosigners with shards of one key: they descend from one key generation, by
sessions in one order, and are of as many generations as the torn sessions among
them make. -/
structure Kin : Prop where
  holds : ∀ p ∈ parties, Holds (w.world p).shared.dir publicKey
  founder : ∃ founder, ∀ p ∈ parties,
    (w.lineage p).head? = some founder ∧ publicKey = key founder
  ordered : ∃ history : List Session, history.Nodup ∧
    ∀ p ∈ parties, (w.lineage p).Sublist history
  /-- All are of one generation exactly if no session is torn among them. -/
  whole : (∀ p ∈ parties, ∀ q ∈ parties, w.lineage p = w.lineage q) ↔
    Joint.torn parties w.lineage = ∅
  /-- As many are of one generation as saved the same ones of the torn sessions. -/
  quorum : ∀ t, (∃ g, t ≤ parties.countP fun p => w.lineage p = g) ↔
    ∃ saved, t ≤ parties.countP fun p => Joint.kind parties w.lineage p = saved
  /-- Few torn sessions make few generations. -/
  many : ∀ t, (t - 1) * 2 ^ (Joint.torn parties w.lineage).card < parties.length →
    ∃ g, t ≤ parties.countP fun p => w.lineage p = g

end

section

variable {A : Eth.Alloy} {D : Dkls} {text : UInt8 → UInt8 → String} {C : Crypto}
  {st : UInt8 → CosignerState C} {n : Nat} {key : Session → PubkeySec1} {w : Fleet C}

/-- **Shards of one key are kin**, whichever cosigners of a reachable fleet hold
them. -/
theorem kin_of_holds (hOpens : ∀ p, Opens (st p).sealer) (hCodec : D.party.RoundTrips)
    (hReach : (Fleet.machine A D st n).Reach (Concerted D text st n key) Fleet.start w)
    {parties : List UInt8} {publicKey : PubkeySec1}
    (hHolds : ∀ p ∈ parties, Holds (w.world p).shared.dir publicKey) :
    Kin key w parties publicKey := by
  obtain ⟨j, hJoint, h⟩ := tracks_of_reach hOpens hCodec hReach
  obtain ⟨hNodup, -, hSub⟩ := Joint.one_history (by omega) hJoint
  rw [h.log] at hSub
  -- whoever holds a shard descends from the one founder of the history
  have hFounder : ∀ p ∈ parties, ∃ founder, j.history.head? = some founder ∧
      (w.lineage p).head? = some founder ∧ publicKey = key founder := by
    intro p hp
    obtain ⟨founder, hHead, hFirst, hKey⟩ := h.founder hJoint (hHolds p hp).metadata
    exact ⟨founder, hHead, hFirst, congrArg SignerMetadata.publicKey hKey⟩
  refine ⟨hHolds, ?_, ⟨j.history, hNodup, fun p _ => hSub p⟩, Joint.logs_eq_iff hNodup hSub,
    fun t => Joint.quorum_iff_kind hNodup hSub, fun t hFew => Joint.quorum hNodup hSub hFew⟩
  rcases parties with _ | ⟨p₀, rest⟩
  · exact ⟨⟨Op.dkg, .repeatByte 32 0⟩, fun p hp => absurd hp (List.not_mem_nil)⟩
  obtain ⟨founder, hHead, -⟩ := hFounder p₀ List.mem_cons_self
  refine ⟨founder, fun p hp => ?_⟩
  obtain ⟨other, hHead', hFirst, hKey⟩ := hFounder p hp
  obtain rfl : founder = other := Option.some.inj (hHead.symm.trans hHead')
  exact ⟨hFirst, hKey⟩

/-- A lineage only grows. -/
theorem lineage_grows {w₀ : Fleet C}
    (hLater : (Fleet.machine A D st n).Reach (Concerted D text st n key) w₀ w) (p : UInt8) :
    w₀.lineage p <+: w.lineage p := by
  refine hLater.invariant (List.prefix_refl _) ?_
  intro v m v' hPrefix _ hStep
  refine hPrefix.trans ?_
  cases m with
  | advance q id =>
    simp only [Fleet.machine, Fleet.step] at hStep
    split at hStep
    · simp at hStep
    · split at hStep
      · exact Option.some.inj hStep ▸ List.prefix_refl _
      · simp at hStep
  | incident q i =>
    obtain ⟨world, -, rfl⟩ := Option.map_eq_some_iff.mp hStep
    -- only a commit is entered, at the end
    rcases deed (st q) (v.world q) i with _ | s | s
    · exact List.prefix_refl _
    · exact List.prefix_refl _
    · show v.lineage p <+: Function.update v.lineage q (v.lineage q ++ [s]) p
      by_cases hSelf : p = q
      · subst hSelf
        rw [Function.update_self]
        exact List.prefix_append _ _
      · rw [Function.update_of_ne hSelf]

/-- A cosigner whose lineage and shard are there holds the key that its lineage
begins with. -/
theorem holds_founder (hOpens : ∀ p, Opens (st p).sealer) (hCodec : D.party.RoundTrips)
    (hReach : (Fleet.machine A D st n).Reach (Concerted D text st n key) Fleet.start w) {p : UInt8}
    {founder : Session} (hHead : (w.lineage p).head? = some founder)
    (hShard : (w.world p).shared.dir.shard.isSome = true) :
    Holds (w.world p).shared.dir (key founder) := by
  obtain ⟨j, hJoint, h⟩ := tracks_of_reach hOpens hCodec hReach
  obtain ⟨sealed, hSealed⟩ := Option.isSome_iff_exists.mp hShard
  obtain ⟨metadata, nonce, share, hMetadata, -⟩ := (h.inv p).sound.keyed sealed hSealed
  obtain ⟨other, -, hFirst, rfl⟩ := h.founder hJoint hMetadata
  obtain rfl : founder = other := Option.some.inj (hHead.symm.trans hFirst)
  exact ⟨hMetadata, hShard⟩

/-- Lineages that begin with one session go on by refreshes, in the order of the
history after its founder. -/
theorem refreshes_ordered (hOpens : ∀ p, Opens (st p).sealer) (hCodec : D.party.RoundTrips)
    (hReach : (Fleet.machine A D st n).Reach (Concerted D text st n key) Fleet.start w)
    {parties : List UInt8} {founder : Session}
    (hHead : ∀ p ∈ parties, (w.lineage p).head? = some founder) :
    ∃ refreshes : List Session, refreshes.Nodup ∧ (∀ s ∈ refreshes, s.op ≠ Op.dkg) ∧
      ∀ p ∈ parties, ∃ own, w.lineage p = founder :: own ∧ own.Sublist refreshes := by
  obtain ⟨j, hJoint, h⟩ := tracks_of_reach hOpens hCodec hReach
  obtain ⟨hNodup, -, hSub⟩ := Joint.one_history (by omega) hJoint
  obtain ⟨hFounds, hFirst⟩ := Joint.one_founder (by omega) hJoint
  rw [h.log] at hSub hFirst
  refine ⟨j.history.tail, hNodup.sublist (List.tail_sublist _), fun s hs hDkg => ?_,
    fun p hp => ?_⟩
  · -- what founds is the head, and that is not in the history again
    have hAgain := (hFounds s (List.mem_of_mem_tail hs)).mp (decide_eq_true hDkg)
    rw [List.eq_cons_of_mem_head? hAgain] at hNodup hs
    exact (List.nodup_cons.mp hNodup).1 hs
  · have hLineage := List.eq_cons_of_mem_head? (hHead p hp)
    have hSame := hFirst p (hLineage ▸ List.cons_ne_nil _ _)
    have hHistory := List.eq_cons_of_mem_head? (hSame.symm.trans (hHead p hp))
    refine ⟨(w.lineage p).tail, hLineage, ?_⟩
    have hPart := hSub p
    rw [hLineage, hHistory] at hPart
    exact List.cons_sublist_cons.mp hPart

/-- **What any refreshes leave of a complete fleet.** Once a key generation was
saved by all, every cosigner holds a shard of its key in whatever becomes of the
fleet, and its lineage goes on by refreshes, in one order for all. At least `t`
shards are of one generation exactly if `t` cosigners saved the same ones of the
refreshes that some saved and others did not; so they are as long as there are more
than `t - 1` cosigners for each of the `2 ^ k` sets that can be made of `k` such
refreshes, and all are if there is none. -/
theorem quorum_iff_saved (hOpens : ∀ p, Opens (st p).sealer) (hCodec : D.party.RoundTrips)
    {w₀ : Fleet C}
    (hReach : (Fleet.machine A D st n).Reach (Concerted D text st n key) Fleet.start w₀)
    {founder : Session} (hDone : ∀ p ∈ ids n,
      w₀.lineage p = [founder] ∧ (w₀.world p).shared.dir.shard.isSome = true)
    (hLater : (Fleet.machine A D st n).Reach (Concerted D text st n key) w₀ w) :
    (∀ p ∈ ids n, Holds (w.world p).shared.dir (key founder)) ∧
    (∃ refreshes : List Session, refreshes.Nodup ∧ (∀ s ∈ refreshes, s.op ≠ Op.dkg) ∧
      ∀ p ∈ ids n, ∃ own, w.lineage p = founder :: own ∧ own.Sublist refreshes) ∧
    (∀ t, (∃ g, t ≤ (ids n).countP fun p => w.lineage p = g) ↔
      ∃ saved, t ≤ (ids n).countP fun p => Joint.kind (ids n) w.lineage p = saved) ∧
    (∀ t, (t - 1) * 2 ^ (Joint.torn (ids n) w.lineage).card < n →
      ∃ g, t ≤ (ids n).countP fun p => w.lineage p = g) ∧
    (Joint.torn (ids n) w.lineage = ∅ →
      ∀ p ∈ ids n, ∀ q ∈ ids n, w.lineage p = w.lineage q) := by
  obtain ⟨j₀, -, h₀⟩ := tracks_of_reach hOpens hCodec hReach
  have hNow := hReach.trans hLater
  have hHead : ∀ p ∈ ids n, (w.lineage p).head? = some founder := by
    intro p hp
    obtain ⟨own, hOwn⟩ := lineage_grows hLater p
    rw [← hOwn, (hDone p hp).1]
    rfl
  have hHolds : ∀ p ∈ ids n, Holds (w.world p).shared.dir (key founder) := fun p hp =>
    holds_founder hOpens hCodec hNow (hHead p hp)
      (shard_kept hOpens hCodec h₀.inv hLater p (hDone p hp).2)
  have hKin : Kin key w (ids n) (key founder) := kin_of_holds hOpens hCodec hNow hHolds
  refine ⟨hHolds, refreshes_ordered hOpens hCodec hNow hHead, hKin.quorum,
    fun t hFew => hKin.many t ?_, hKin.whole.mpr⟩
  rwa [ids, List.length_map, List.length_range]

end

-- ---------------------------------------------------------------------------
-- Two of three, two refreshes cut off
-- ---------------------------------------------------------------------------

/-- The key generation that everybody saved. -/
def Sample.founding : Session := ⟨Op.dkg, .repeatByte 32 0x2a⟩

theorem Sample.generated_done : ∀ p ∈ ids 3, Sample.generated.lineage p = [Sample.founding] ∧
    (Sample.generated.world p).shared.dir.shard.isSome = true := by decide +kernel

/-- After a key generation that all three completed and two refreshes, each cut off
by processes that die before their last rename, all three still have a shard and no
two shards are of one generation. -/
theorem quorum_lost_retried :
    ∃ w₀ w : Fleet Symbolic.crypto,
      Sample.trio.Reach (Concerted Sample.dkls Carbon.Sample.text Sample.party 3
        fun _ => Eth.Sample.pubkey) Fleet.start w₀ ∧
      (∀ p ∈ ids 3, w₀.lineage p = [Sample.founding] ∧
        (w₀.world p).shared.dir.shard.isSome = true) ∧
      Sample.trio.Reach (Concerted Sample.dkls Carbon.Sample.text Sample.party 3
        fun _ => Eth.Sample.pubkey) w₀ w ∧
      (∀ p ∈ ids 3, (w.world p).shared.dir.shard.isSome = true) ∧
      ¬ ∃ g, 2 ≤ (ids 3).countP fun p => w.lineage p = g := by
  refine ⟨Sample.generated, Sample.retried, Sample.generated_reach, Sample.generated_done,
    Sample.refreshed_reach.trans Sample.retried_reach, by decide +kernel, ?_⟩
  exact Joint.no_pair (by decide +kernel)

/-- Before the second one two shards were of one generation, for one refresh of
three cosigners was torn. -/
theorem quorum_iff_saved_refreshed :
    (∀ p ∈ ids 3, Holds (Sample.refreshed.world p).shared.dir Eth.Sample.pubkey) ∧
      ∃ g, 2 ≤ (ids 3).countP fun p => Sample.refreshed.lineage p = g := by
  obtain ⟨hHolds, -, -, hFew, -⟩ := quorum_iff_saved (fun _ => passthrough_opens)
    Sample.dkls_party Sample.generated_reach Sample.generated_done Sample.refreshed_reach
  exact ⟨hHolds, hFew 2 (by decide +kernel)⟩

end Sovra.Cosigner
