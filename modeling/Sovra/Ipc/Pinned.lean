import Sovra.Ipc.Subset

/-!
# Sovra — what a passed pre-flight pins

A roster hash commits to the whole roster, without a frame around its parts: n
and t are a byte each, and every key is 32 bytes. With the self-check that every
cosigner made of its own slot when it came up, n equal payloads of n parties put
every identity key in its place.

* `rosterPreimage_injective` — a preimage is one threshold and one roster.
* `one_roster`               — a passed pre-flight means one roster, in order.
-/

namespace Sovra.Ipc

open Lib Mpc State Cosigner

section

variable {C : Crypto} {vkBytes : C.VerifyingKey → B256}

/-- Keys of one width need no separator. -/
theorem keys_injective (hVk : Function.Injective vkBytes) {roster roster' : List C.VerifyingKey}
    (h : roster.flatMap (fun vk => (vkBytes vk).bytes) =
      roster'.flatMap fun vk => (vkBytes vk).bytes) : roster = roster' := by
  have hWidth : ∀ vk : C.VerifyingKey, (vkBytes vk).bytes.length = 32 :=
    fun vk => (vkBytes vk).length_eq
  induction roster generalizing roster' with
  | nil =>
    rcases roster' with _ | ⟨vk', roster'⟩
    · rfl
    · have hLength := congrArg List.length h
      rw [List.flatMap_nil, List.flatMap_cons, List.length_append, hWidth, List.length_nil] at hLength
      omega
  | cons vk roster ih =>
    rcases roster' with _ | ⟨vk', roster'⟩
    · have hLength := congrArg List.length h
      rw [List.flatMap_nil, List.flatMap_cons, List.length_append, hWidth, List.length_nil] at hLength
      omega
    · rw [List.flatMap_cons, List.flatMap_cons] at h
      obtain ⟨hKey, hRest⟩ := List.append_inj h ((hWidth vk).trans (hWidth vk').symm)
      rw [hVk (FixedBytes.ext hKey), ih hRest]

/-- The preimage tells threshold and roster: keys have one length, so the parts
cannot be cut otherwise. -/
theorem rosterPreimage_injective (hVk : Function.Injective vkBytes) {t t' : UInt8}
    {roster roster' : List C.VerifyingKey}
    (h : rosterPreimage vkBytes t roster = rosterPreimage vkBytes t' roster') :
    t = t' ∧ roster = roster' := by
  simp only [rosterPreimage, List.cons.injEq] at h
  obtain ⟨-, hThreshold, hKeys⟩ := h
  exact ⟨hThreshold, keys_injective hVk hKeys⟩

end

section

variable {W : Web} {b : RemoteBackend W} {A : Eth.Alloy} {C : Crypto} [DecidableEq C.VerifyingKey]
  {vkBytes : C.VerifyingKey → B256} {parseVk : String → Except String C.VerifyingKey}
  {render : ErrorBody → String} {st : UInt8 → CosignerState C} {rosters : UInt8 → Sent RosterInfo}

/-- One roster and one threshold throughout, and the payload's n is the
orchestrator's. -/
theorem PassedFleet.agreed (h : PassedFleet b A vkBytes parseVk render st rosters)
    (hVk : Function.Injective vkBytes) (hHash : RosterHash b A vkBytes st) :
    ∃ roster : List C.VerifyingKey, ∃ threshold : UInt8,
      (UInt8.ofNat roster.length).toNat = b.cosigners.length ∧ threshold.toNat = b.threshold ∧
      ∀ c ∈ b.cosigners, (st c.1).roster = some roster ∧ (st c.1).threshold = threshold ∧
        Seated (st c.1) roster := by
  obtain ⟨info, hN, hSeated⟩ := h.seated
  have hTwo := b.two_le
  have hLe := b.le_length
  obtain ⟨c₀, hc₀⟩ := List.exists_mem_of_length_pos (l := b.cosigners) (by omega)
  obtain ⟨roster, hRoster, -, hThreshold, hInfo⟩ := hSeated c₀ hc₀
  obtain ⟨r, hr, -, hCount, hHashed⟩ := rosterInfo_ok hInfo
  obtain rfl : roster = r := Option.some.inj (hRoster.symm.trans hr)
  refine ⟨roster, (st c₀.1).threshold, by rw [← hCount, hN], hThreshold, ?_⟩
  intro c hc
  obtain ⟨roster', hRoster', hPlace, -, hInfo'⟩ := hSeated c hc
  obtain ⟨r', hr', -, -, hHashed'⟩ := rosterInfo_ok hInfo'
  obtain rfl : roster' = r' := Option.some.inj (hRoster'.symm.trans hr')
  have hPreimage := hHash c hc c₀ hc₀ roster' roster hRoster' hRoster (hHashed'.symm.trans hHashed)
  obtain ⟨hSame, rfl⟩ := rosterPreimage_injective hVk hPreimage
  exact ⟨hRoster', hSame, hPlace⟩

/-- n distinct ids below n are all ids below n. -/
theorem ids_exhausted {ids : List Nat} (hNodup : ids.Nodup) (hBound : ∀ i ∈ ids, i < ids.length)
    {i : Nat} (hi : i < ids.length) : i ∈ ids := by
  have hSubset : ids ⊆ List.range ids.length := fun j hj => List.mem_range.mpr (hBound j hj)
  have hSubperm : ids.Subperm (List.range ids.length) := List.subperm_of_subset hNodup hSubset
  have hPerm := hSubperm.perm_of_length_le (by rw [List.length_range])
  exact hPerm.mem_iff.mpr (List.mem_range.mpr hi)

/-- **A passed pre-flight means one roster.** Cosigners with distinct party ids,
each up with a roster of at most 255 keys: all n hold the same ordered roster and
the same threshold, which are the orchestrator's n and t, and every slot of that
roster is the identity key of the cosigner with that id. -/
theorem one_roster (h : PassedFleet b A vkBytes parseVk render st rosters)
    (hVk : Function.Injective vkBytes) (hHash : RosterHash b A vkBytes st)
    (hDistinct : (b.cosigners.map fun c => (st c.1).partyId).Nodup)
    (hSmall : ∀ c ∈ b.cosigners, ∀ roster, (st c.1).roster = some roster → roster.length ≤ 255) :
    ∃ roster : List C.VerifyingKey, ∃ threshold : UInt8,
      (∀ c ∈ b.cosigners, (st c.1).roster = some roster ∧ (st c.1).threshold = threshold) ∧
      roster.length = b.cosigners.length ∧ threshold.toNat = b.threshold ∧
      ∀ i < roster.length, ∃ c ∈ b.cosigners, (st c.1).partyId.toNat = i ∧
        roster[i]? = some (C.verifyingKey (st c.1).signingKey) := by
  obtain ⟨roster, threshold, hCount, hThreshold, hSame⟩ := h.agreed hVk hHash
  have hTwo := b.two_le
  have hLe := b.le_length
  obtain ⟨c₀, hc₀⟩ := List.exists_mem_of_length_pos (l := b.cosigners) (by omega)
  -- one byte names the length, and a roster of at most 255 is named truly
  have hLength : roster.length = b.cosigners.length := by
    have hBound := hSmall c₀ hc₀ roster (hSame c₀ hc₀).1
    rw [← hCount, UInt8.toNat_ofNat']
    omega
  refine ⟨roster, threshold, fun c hc => ⟨(hSame c hc).1, (hSame c hc).2.1⟩, hLength, hThreshold, ?_⟩
  intro i hi
  -- n distinct ids below n leave no id out
  have hIds : (b.cosigners.map fun c => (st c.1).partyId.toNat).Nodup := by
    have hMapped := hDistinct.map (f := UInt8.toNat) fun p q => UInt8.toNat_inj.mp
    rwa [List.map_map] at hMapped
  have hMem : i ∈ b.cosigners.map fun c => (st c.1).partyId.toNat := by
    refine ids_exhausted hIds ?_ ?_
    · intro j hj
      obtain ⟨c, hc, rfl⟩ := List.mem_map.mp hj
      rw [List.length_map, ← hLength]
      exact (hSame c hc).2.2.partyId_lt
    · rw [List.length_map]
      omega
  obtain ⟨c, hc, rfl⟩ := List.mem_map.mp hMem
  exact ⟨c, hc, rfl, (hSame c hc).2.2.own⟩

end

/-- The fleet of three, as it is listed. -/
theorem one_roster_three :
    ∃ roster : List UInt8, roster.length = 3 ∧ ∀ i < roster.length,
      ∃ c ∈ Sample.backend.cosigners, (Sample.party c.1).partyId.toNat = i ∧
        roster[i]? = some (10 + c.1) := by
  have hPassed := Sample.passed id (by decide) (by rfl)
  have hVk : Function.Injective (FixedBytes.repeatByte 32) := by
    intro vk vk' hEq
    have hBytes := congrArg FixedBytes.bytes hEq
    simpa [FixedBytes.repeatByte, List.replicate_succ] using hBytes
  obtain ⟨roster, threshold, -, hLength, -, hSlots⟩ := one_roster hPassed hVk
    (by
      intro c _ c' _ roster roster' hRoster hRoster' preimage preimage' _
      obtain rfl : _ = roster := Option.some.inj hRoster
      obtain rfl : _ = roster' := Option.some.inj hRoster'
      rfl)
    (by decide)
    (by
      intro c _ roster hRoster
      obtain rfl : _ = roster := Option.some.inj hRoster
      decide)
  exact ⟨roster, hLength, hSlots⟩

end Sovra.Ipc
