import Sovra.Carbon.Ceremonies
import Sovra.Mpc.Panic
import Sovra.Mpc.Slices

/-!
# Sovra — no peer makes an adapter panic

The adapters index the roster, the inboxes and the fragments without a check, and
convert ids and slices with `expect`. What makes that sound is the completeness of
`recv_round`, peers within the roster, and one fragment for each party.

* `adapters_never_panic` — keygen, refresh and signing, against any network.
-/

namespace Sovra.Carbon

open Lib Mpc

-- ---------------------------------------------------------------------------
-- The unchecked lookups
-- ---------------------------------------------------------------------------

/-- Indexing where there is something does not panic. -/
theorem avoids_at {α : Type} {slot : Option α} (h : slot.isSome = true) :
    Avoids Halt.panic (at_ slot) := by
  obtain ⟨a, rfl⟩ := Option.isSome_iff_exists.mp h
  exact avoids_ok

/-- Converting an id below 255 does not panic. -/
theorem avoids_cidx {p : UInt8} (h : p.toNat < 255) : Avoids Halt.panic (cidxOrPanic p) := by
  obtain ⟨index, hIndex⟩ := cidx_some h
  rw [cidxOrPanic_eq_ok.mpr hIndex]
  exact avoids_ok

/-- Reading the entry of a peer that sent one does not panic. -/
theorem avoids_readFrom {α : Type} {c : Codec α} {slot : PartyMap} {what : String} {op p : UInt8}
    (h : p ∈ slot) : Avoids Halt.panic (readFrom c slot what op p) := by
  unfold readFrom
  refine (avoids_at (Std.ExtTreeMap.mem_iff_isSome_getElem?.mp h)).bind fun bytes _ => ?_
  exact Script.avoids_mpcError

/-- The ids of a scheme are below its share count. -/
theorem ids_bound {n : UInt8} {p : UInt8} (h : p ∈ ids n.toNat) : p.toNat < n.toNat := by
  have hByte := n.toNat_lt
  exact (mem_ids (by omega)).mp h

/-- `scheme` refuses what `cidx` would panic on. -/
theorem avoids_scheme {C : Crypto} {text : UInt8 → UInt8 → String} {ctx : PartyContext C} :
    Avoids Halt.panic (scheme text ctx) := by
  unfold scheme
  refine (avoids_ensure (by simp)).bind fun _ hRoster => ?_
  refine (avoids_ensure (by simp)).bind fun _ hSeat => ?_
  refine Avoids.bind (avoids_mapError fun _ => by simp) fun _ _ => ?_
  have hBound := ensure_eq_ok.mp hRoster
  have hOwn := ensure_eq_ok.mp hSeat
  refine (avoids_cidx (by omega)).bind fun _ _ => ?_
  exact avoids_ok

/-- A scheme that was accepted has at most 255 parties, the own one among them. -/
theorem scheme_shareCount {C : Crypto} {text : UInt8 → UInt8 → String} {ctx : PartyContext C}
    {params : Parameters} {index : PartyIndex} (h : scheme text ctx = .ok (params, index)) :
    ctx.partyVks.length ≤ 255 ∧ ctx.partyId.toNat < ctx.partyVks.length ∧
      params.shareCount.toNat = ctx.partyVks.length := by
  simp only [scheme, bind_eq_ok, ensure_eq_ok, mapError_eq_ok, pure_eq_ok, Prod.mk.injEq] at h
  obtain ⟨-, ⟨-, hBound⟩, -, hSeat, parameters, hNew, index', -, rfl, -⟩ := h
  refine ⟨hBound, hSeat, ?_⟩
  unfold Parameters.new at hNew
  split at hNew
  · rw [← Except.ok.inj hNew]
    show (UInt8.ofNat ctx.partyVks.length).toNat = _
    rw [UInt8.toNat_ofNat']
    omega
  · cases hNew

/-- A shard that does not fit is an error, not a panic. -/
theorem avoids_decodeFor {P : Type} {c : Codec P} {V : PartyView P} {share : KeyShare}
    {partyId threshold shareCount op : UInt8} (h : partyId.toNat < 255) :
    Avoids Halt.panic (decodeFor c V share partyId threshold shareCount op) := by
  unfold decodeFor
  refine Script.avoids_mpcError.bind fun party _ => ?_
  refine (avoids_cidx h).bind fun index _ => ?_
  refine (avoids_ensure (by simp)).bind fun _ _ => ?_
  exact avoids_ok

section

variable {D : Dkls} {κ : Type} {peers : List UInt8}

/-- Round 1, with a fragment for each of `all`. -/
theorem careful_shareFragments {n me op : UInt8} {fragments : List D.Scalar} {what : String}
    (hCount : fragments.length = n.toNat) :
    (shareFragments D me fragments what op : Script κ (List D.Scalar)).Careful
      ((ids n.toNat).filter (· ≠ me)) := by
  have hSame : (UInt8.ofNat fragments.length).toNat = n.toNat := by
    rw [hCount, UInt8.toNat_ofNat']
    have hByte := n.toNat_lt
    omega
  unfold shareFragments
  refine Script.Careful.exchange fun inbox hInbox => ?_
  refine Script.Careful.ends (avoids_mapM fun p hp => ?_)
  rw [hSame] at hp
  split
  · refine avoids_at ?_
    rw [List.getElem?_eq_getElem (hCount ▸ ids_bound hp)]
    rfl
  · rename_i hOther
    refine avoids_readFrom (hInbox.all true rfl p ?_)
    rw [List.mem_filter, decide_eq_true_eq]
    exact ⟨hp, hOther⟩

/-- The parties of a whole-roster ceremony. -/
def everyone {C : Crypto} (ctx : PartyContext C) : List UInt8 :=
  ids (UInt8.ofNat ctx.partyVks.length).toNat

/-- Everybody else is a peer. -/
theorem mem_peers {me p : UInt8} {all : List UInt8} (hp : p ∈ all) (hOther : p ≠ me) :
    p ∈ all.filter (· ≠ me) := by
  rw [List.mem_filter, decide_eq_true_eq]
  exact ⟨hp, hOther⟩

-- ---------------------------------------------------------------------------
-- The adapters
-- ---------------------------------------------------------------------------

variable {S : Type} {C : Crypto} {ctx : PartyContext C} {text : UInt8 → UInt8 → String}

/-- Round 2's loop reads only broadcasts that are there. -/
theorem avoids_readProofs {n me : UInt8} (hBound : n.toNat ≤ 255)
    {mine : D.ProofCommitment × D.BroadcastDerivationPhase2to4} {inbox : RoundInbox}
    (hInbox : inbox.Filled ((ids n.toNat).filter (· ≠ me)) .Both) :
    Avoids Halt.panic (readProofs D (ids n.toNat) me mine inbox) := by
  refine avoids_foldlM (fun out p hp => ?_) _
  have hRange := ids_bound hp
  have hItem : Avoids Halt.panic (readProof D me mine inbox p) := by
    unfold readProof
    split
    · exact avoids_ok
    · rename_i hOther
      exact avoids_readFrom (hInbox.all false rfl p (mem_peers hp hOther))
  refine hItem.bind fun item _ => ?_
  refine (avoids_cidx (by omega)).bind fun index _ => ?_
  exact avoids_ok

/-- Round 3's loop reads only broadcasts that are there. -/
theorem avoids_readBip3 {n me : UInt8} (hBound : n.toNat ≤ 255) {index : PartyIndex}
    {mine : D.BroadcastDerivationPhase3to4} {inbox : RoundInbox}
    (hInbox : inbox.Filled ((ids n.toNat).filter (· ≠ me)) .Both) :
    Avoids Halt.panic (readBip3 D index mine inbox) := by
  refine avoids_foldlM (fun out e he => ?_) _
  have hSlot : e.1 ∈ inbox.slot false := by
    rw [Std.ExtTreeMap.mem_iff_isSome_getElem?]
    have hGet : (inbox.slot false)[e.1]? = some e.2 :=
      Std.ExtTreeMap.mem_toList_iff_getElem?_eq_some.mp he
    rw [hGet]
    rfl
  have hRange := ids_bound (List.mem_filter.mp (hInbox.only false e.1 hSlot)).1
  refine (avoids_cidx (by omega)).bind fun party _ => ?_
  refine Script.avoids_mpcError.bind fun bip _ => ?_
  exact avoids_ok

/-- Key generation is careful, if phase 1 deals one fragment to each party. -/
theorem careful_keygen {L : DkgPhases D S}
    (hFragments : ∀ params index sid,
      (L.phase1 (L.new params index sid)).2.length = params.shareCount.toNat) :
    (keygenParty D text L ctx).Careful ((everyone ctx).filter (· ≠ ctx.partyId)) := by
  -- line by line; each inbox has an entry of every peer
  unfold keygenParty
  refine Script.Careful.ofExcept avoids_scheme fun (params, myIndex) hScheme => ?_
  obtain ⟨hRoster, -, hCount⟩ := scheme_shareCount hScheme
  have hEveryone : everyone ctx = ids params.shareCount.toNat := by
    unfold everyone
    rw [← hCount, UInt8.ofNat_toNat]
  have hBound : params.shareCount.toNat ≤ 255 := hCount ▸ hRoster
  rw [hEveryone]
  refine Script.Careful.mark ?_
  refine (careful_shareFragments (hFragments params myIndex ctx.inst.bytes)).bind
    fun polyFragments => ?_
  refine Script.Careful.mark ?_
  refine Script.Careful.attempt fun (session, myProof, zero2Out, myBip2) _ => ?_
  refine Script.Careful.exchange fun inbox hInbox => ?_
  refine Script.Careful.ofExcept (avoids_readProofs hBound hInbox) fun (proofs, bip2) _ => ?_
  refine Script.Careful.attempt fun zero2In _ => ?_
  refine Script.Careful.mark ?_
  refine Script.Careful.attempt fun (session, zero3Out, mul3Out, myBip3) _ => ?_
  refine Script.Careful.exchange fun inbox hInbox => ?_
  refine Script.Careful.ofExcept (avoids_readBip3 hBound hInbox) fun bip3 _ => ?_
  refine Script.Careful.attempt fun (zero3In, mul3In) _ => ?_
  refine Script.Careful.mark ?_
  refine Script.Careful.attempt fun party _ => ?_
  exact Script.Careful.done

/-- A shard of another key is an error, not a panic. -/
theorem avoids_refreshAnchor {share : KeyShare} {publicKey : PubkeySec1}
    {me threshold shareCount : UInt8} (h : me.toNat < 255) :
    Avoids Halt.panic (refreshAnchor D share publicKey me threshold shareCount) := by
  unfold refreshAnchor
  refine (avoids_decodeFor h).bind fun party _ => ?_
  refine (avoids_ensure (by simp)).bind fun _ _ => ?_
  exact avoids_ok

/-- So is a refresh, under the same condition. -/
theorem careful_refresh {L : RefreshPhases D} {share : KeyShare} {publicKey : PubkeySec1}
    (hFragments : ∀ party, (L.phase1 party).length = (D.view.shareCount party).toNat) :
    (refreshParty D text L ctx share publicKey).Careful
      ((everyone ctx).filter (· ≠ ctx.partyId)) := by
  unfold refreshParty
  refine Script.Careful.ofExcept avoids_scheme fun (params, myIndex) hScheme => ?_
  obtain ⟨hRoster, hSeat, hCount⟩ := scheme_shareCount hScheme
  -- the length of the roster is one byte, so the ids are those of the scheme
  have hEveryone : everyone ctx = ids params.shareCount.toNat := by
    unfold everyone
    rw [← hCount, UInt8.ofNat_toNat]
  rw [hEveryone]
  refine Script.Careful.ofExcept (avoids_refreshAnchor (by omega)) fun party hAnchor => ?_
  have hShare : D.view.shareCount party = params.shareCount := by
    simp only [refreshAnchor, bind_eq_ok, decodeFor_ok, pure_eq_ok] at hAnchor
    obtain ⟨found, ⟨-, -, -, hSame⟩, -, -, rfl⟩ := hAnchor
    exact hSame
  -- call by call, with what the inbox of each round is known to hold
  refine Script.Careful.mark ?_
  refine (careful_shareFragments (hShare ▸ hFragments party)).bind fun polyFragments => ?_
  refine Script.Careful.mark ?_
  refine Script.Careful.exchange fun inbox hInbox => ?_
  refine Script.Careful.ofExcept (avoids_mapM fun p hp => ?_) fun proofs _ => ?_
  · unfold refreshProof
    split
    · exact avoids_ok
    · rename_i hOther
      exact avoids_readFrom (hInbox.all false rfl p (mem_peers hp hOther))
  refine Script.Careful.attempt fun zero2In _ => ?_
  refine Script.Careful.mark ?_
  refine Script.Careful.exchange fun inbox hInbox => ?_
  refine Script.Careful.attempt fun (zero3In, mul3In) _ => ?_
  refine Script.Careful.mark ?_
  refine Script.Careful.attempt fun newParty _ => ?_
  exact Script.Careful.ends Script.avoids_mpcError

/-- Signing is, if the shard's own key is a point. -/
theorem careful_sign {L : SignPhases D S} {E : K256} {share : KeyShare} {digest : B256}
    {subset : List UInt8} (hRoster : ctx.partyVks.length ≤ 255)
    (hKey : ∀ party, decode D.party share = .ok party →
      (E.fromSec1 (D.view.publicKey party)).isSome = true) :
    (signParty D E L ctx share digest subset).Careful (subset.filter (· ≠ ctx.partyId)) := by
  -- line by line; the inboxes are read only through `gather` and the broadcast loop
  unfold signParty
  refine Script.Careful.attempt fun _ hSigners => ?_
  simp only [checkSigners, bind_eq_ok, ensure_eq_ok] at hSigners
  obtain ⟨-, ⟨-, hSeated⟩, hMember⟩ := hSigners
  have hSeat := hSeated ctx.partyId hMember
  refine Script.Careful.ofExcept (avoids_decodeFor (by omega)) fun party hParty => ?_
  refine Script.Careful.ofExcept (avoids_mapM fun p hp => ?_) fun counterparties _ => ?_
  · have hOther := hSeated p (List.mem_filter.mp hp).1
    exact avoids_cidx (by omega)
  refine Script.Careful.mark ?_
  refine Script.Careful.attempt fun (session, t1Out) _ => ?_
  refine Script.Careful.exchange fun inbox hInbox => ?_
  refine Script.Careful.attempt fun received1 _ => ?_
  refine Script.Careful.mark ?_
  refine Script.Careful.attempt fun (session, t2Out) _ => ?_
  refine Script.Careful.exchange fun inbox hInbox => ?_
  refine Script.Careful.attempt fun received2 _ => ?_
  refine Script.Careful.mark ?_
  refine Script.Careful.attempt fun (session, myBroadcast) _ => ?_
  refine Script.Careful.exchange fun inbox hInbox => ?_
  refine Script.Careful.attempt fun broadcasts _ => ?_
  refine Script.Careful.mark ?_
  refine Script.Careful.attempt fun sig _ => ?_
  refine Script.Careful.ends ?_
  unfold recoverParts
  refine Avoids.bind (avoids_mapError fun _ => by simp) fun signature _ => ?_
  refine (avoids_at (hKey party (decodeFor_ok.mp hParty).1)).bind fun wallet _ => ?_
  split
  · intro hPanic
    simp at hPanic
  · exact avoids_ok

end

/-- **No peer makes an adapter panic.** Whatever the relay answers and hands over,
each of the three ceremonies ends in a result or an error, or waits; and neither
`open` nor `decode` panics on an envelope. The library deals a fragment to every
party and its keys are curve points. -/
theorem adapters_never_panic {C : Crypto} (D : Dkls) (text : UInt8 → UInt8 → String) (E : K256)
    (ctx : PartyContext C) (hRoster : ctx.partyVks.length ≤ 255)
    (rnd : UInt8 → UInt8 → SealRandomness C)
    (relay : UInt8 → SignedEnvelope C → Except MpcError Unit) (inbound : List (Inbound C)) :
    (∀ {S : Type} (L : DkgPhases D S),
      (∀ params index sid,
        (L.phase1 (L.new params index sid)).2.length = params.shareCount.toNat) →
      (keygenParty D text L ctx).run rnd relay (Exchange.new ctx Op.dkg (everyone ctx)) inbound ≠
        some (.error .panic)) ∧
    (∀ (L : RefreshPhases D) (share : KeyShare) (publicKey : PubkeySec1),
      (∀ party, (L.phase1 party).length = (D.view.shareCount party).toNat) →
      (refreshParty D text L ctx share publicKey).run rnd relay
        (Exchange.new ctx Op.refresh (everyone ctx)) inbound ≠ some (.error .panic)) ∧
    (∀ {S : Type} (L : SignPhases D S) (share : KeyShare) (digest : B256) (subset : List UInt8),
      (∀ party, decode D.party share = .ok party →
        (E.fromSec1 (D.view.publicKey party)).isSome = true) →
      (signParty D E L ctx share digest subset).run rnd relay
        (Exchange.new ctx Op.sign subset) inbound ≠ some (.error .panic)) ∧
    (∀ (e : Envelope) (sk : C.SigningKey), e.openOrPanic sk ≠ .error .panic) ∧
    ∀ (sigBytes : C.Signature ≃ FixedBytes 64) (bytes : Bytes),
      SignedEnvelope.decodeOrPanic sigBytes bytes ≠ .error .panic := by
  have hEveryone : ∀ p ∈ (everyone ctx).filter (· ≠ ctx.partyId),
      p.toNat < ctx.partyVks.length := by
    intro p hp
    have hRange := ids_bound (List.mem_filter.mp hp).1
    rw [UInt8.toNat_ofNat'] at hRange
    omega
  -- a careful script never panics, and the two decoders are the plain ones
  refine ⟨?_, ?_, ?_, ?_, ?_⟩
  · intro S L hFragments
    exact (careful_keygen hFragments).run rfl hEveryone rnd relay inbound
  · intro L share publicKey hFragments
    exact (careful_refresh hFragments).run rfl hEveryone rnd relay inbound
  · intro S L share digest subset hKey
    rcases hSigners : checkSigners subset ctx.partyVks.length ctx.partyId with e | u
    · -- refused before the first round
      unfold signParty
      simp only [hSigners]
      intro hPanic
      have hHalt : some (Except.error (Halt.error e)) = some (Except.error Halt.panic) := hPanic
      simp at hHalt
    · simp only [checkSigners, bind_eq_ok, ensure_eq_ok] at hSigners
      obtain ⟨-, ⟨-, hSeated⟩, -⟩ := hSigners
      have hPeers : ∀ p ∈ subset.filter (· ≠ ctx.partyId), p.toNat < ctx.partyVks.length :=
        fun p hp => hSeated p (List.mem_filter.mp hp).1
      exact (careful_sign hRoster hKey).run rfl hPeers rnd relay inbound
  · intro e sk
    rw [openOrPanic_eq]
    exact Script.avoids_mpcError
  · intro sigBytes bytes
    rw [decodeOrPanic_eq]
    exact Script.avoids_mpcError

namespace Sample

/-- Key generation that keeps the number of parties. -/
def counting : DkgPhases dkls UInt8 where
  new params _ _ := params.shareCount
  phase1 n := (n, (ids n.toNat).map (dealt 0))
  phase2 n _ := .ok (n, (0 : UInt8), announce (ids n.toNat) 0, ())
  phase3 n := .ok (n, announce (ids n.toNat) 0, announce (ids n.toNat) 0, ())
  phase4 _ _ _ _ _ _ _ := .ok (indexOf 0)

/-- The example's phase 1 deals one fragment to each party. -/
theorem counting_deals (params : Parameters) (index : PartyIndex) (sid : Bytes) :
    (counting.phase1 (counting.new params index sid)).2.length = params.shareCount.toNat := by
  show ((ids params.shareCount.toNat).map (dealt 0)).length = _
  rw [List.length_map, ids, List.length_map, List.length_range]

/-- What a peer sends party 0 in a round, sealed and signed as it should be. -/
def forgery (op : UInt8) (participants : List UInt8) (q r : UInt8) (outbox : RoundOutbox) :
    List (Inbound Symbolic.crypto) :=
  ((Exchange.new (roster.ctx q) op participants).sendRound (fun _ => .ok ()) (rnd q r) r
    outbox).1.map .envelope

/-- A transmit of parties that there are not. -/
def stray : Bytes := (bincode vecParties).serialize [⟨indexOf 199, indexOf 199⟩]

/-- All peers are corrupted: bytes that happen to decode in two rounds, and none or too
few in the third. -/
def corrupted (op : UInt8) (participants : List UInt8) : List (Inbound Symbolic.crypto) :=
  (participants.filter (· ≠ 0)).flatMap fun q =>
    forgery op participants q 1 ⟨none, (∅ : PartyMap).insert 0 stray⟩ ++
    forgery op participants q 2 ⟨some [99], (∅ : PartyMap).insert 0 stray⟩ ++
    forgery op participants q 3 ⟨some [], (∅ : PartyMap).insert 0 [1]⟩

/-- A party's end when a corrupted peer sends it validly signed junk. -/
def attacked {κ α : Type} (op : UInt8) (participants : List UInt8) (s : Script κ α) :
    Option (Except Halt α) :=
  s.run (rnd 0) (fun _ _ => .ok ()) (Exchange.new (roster.ctx 0) op participants)
    (corrupted op participants)

end Sample

open Sample in
/-- Party 0 of three meets the corrupted peers: no panic, but an error that names one
of them, in the last round. -/
theorem adapters_never_panic_three :
    (attacked Op.dkg (everyone (roster.ctx 0)) (keygenParty dkls text counting (roster.ctx 0)) ≠
        some (.error .panic) ∧
      attacked Op.dkg (everyone (roster.ctx 0)) (keygenParty dkls text counting (roster.ctx 0)) =
        some (.error (.error (.dkg "party 1 sent an undecodable dkg round-3 transmits")))) ∧
    (attacked Op.refresh (everyone (roster.ctx 0))
        (refreshParty dkls text (refreshPhases 0) (roster.ctx 0) (share 0) key) ≠
        some (.error .panic) ∧
      attacked Op.refresh (everyone (roster.ctx 0))
        (refreshParty dkls text (refreshPhases 0) (roster.ctx 0) (share 0) key) =
        some (.error (.error (.dkg "party 1 sent an undecodable refresh round-3 transmits")))) ∧
    attacked Op.sign subset (signParty dkls k256 (signPhases 0) (roster.ctx 0) (share 0) digest
        subset) ≠ some (.error .panic) ∧
      attacked Op.sign subset (signParty dkls k256 (signPhases 0) (roster.ctx 0) (share 0) digest
        subset) =
        some (.error (.error (.sign "party 2 sent an undecodable sign round-3 broadcast"))) := by
  obtain ⟨hKeygen, -, -, -⟩ := adapters_never_panic dkls text k256 (roster.ctx 0) (by decide)
    (rnd 0) (fun _ _ => .ok ()) (corrupted Op.dkg (everyone (roster.ctx 0)))
  obtain ⟨-, hRefresh, -, -⟩ := adapters_never_panic dkls text k256 (roster.ctx 0) (by decide)
    (rnd 0) (fun _ _ => .ok ()) (corrupted Op.refresh (everyone (roster.ctx 0)))
  obtain ⟨-, -, hSign, -⟩ := adapters_never_panic dkls text k256 (roster.ctx 0) (by decide)
    (rnd 0) (fun _ _ => .ok ()) (corrupted Op.sign subset)
  exact ⟨⟨hKeygen counting counting_deals, by decide +kernel⟩,
    ⟨hRefresh (refreshPhases 0) (share 0) key fun _ => rfl, by decide +kernel⟩,
    hSign (signPhases 0) (share 0) digest subset fun _ _ => rfl, by decide +kernel⟩

end Sovra.Carbon
