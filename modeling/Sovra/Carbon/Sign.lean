import Sovra.Carbon.Library

/-!
# Sovra — signing one digest with a subset

`sign.rs`: a session of four phases over three rounds, then trial recovery
against the shard's own key. The subset is in global ids, strictly ascending.

* `follows_sign` — the adapter, fed by direct routing, makes the calls of the run
  and returns its result.
-/

namespace Sovra.Carbon

open Lib Mpc

/-- `SignData`. -/
structure SignData where
  signId : Bytes
  counterparties : List PartyIndex
  messageHash : B256

/-- The `(r, s)` a session ends with. -/
structure RawSignature where
  r : B256
  s : B256

/-- `SignSession`: its phases and what each emits. -/
structure SignPhases (D : Dkls) (S : Type) where
  new : D.Party → SignData → Except Abort (S × List D.TransmitPhase1to2)
  phase2 : S → List D.TransmitPhase1to2 → Except Abort (S × List D.TransmitPhase2to3)
  phase3 : S → List D.TransmitPhase2to3 → Except Abort (S × D.Broadcast3to4)
  phase4 : S → List D.Broadcast3to4 → Except Abort RawSignature

/-- A library call with its arguments. -/
inductive SignCall (D : Dkls) (S : Type)
  | new (party : D.Party) (data : SignData)
  | phase2 (session : S) (received1 : List D.TransmitPhase1to2)
  | phase3 (session : S) (received2 : List D.TransmitPhase2to3)
  | phase4 (session : S) (broadcasts : List D.Broadcast3to4)

/-- What `sign.rs` uses of `k256`. -/
structure K256 where
  Signature : Type
  VerifyingKey : Type
  fromSlice : Bytes → Except String Signature
  fromSec1 : PubkeySec1 → Option VerifyingKey
  recoverFromPrehash : B256 → Signature → Bool → Option VerifyingKey
  decEq : DecidableEq VerifyingKey

/-- `U256::from_be_slice`. -/
def fromBe (word : B256) : U256 :=
  Fin.ofNat (2 ^ 256) (word.bytes.foldl (fun acc b => acc * 256 + b.toNat) 0)

/-- Trial recovery: the parity that recovers to the wallet key. -/
def recoverParts (E : K256) (digest : B256) (publicKey : PubkeySec1) (sig : RawSignature) :
    Except Halt EcdsaParts := do
  let signature ← (E.fromSlice (sig.r.bytes ++ sig.s.bytes)).mapError fun e =>
    Halt.error (.sign ("protocol produced a malformed signature: " ++ e))
  let wallet ← at_ (E.fromSec1 publicKey)
  match [false, true].find? fun odd =>
      have := E.decEq
      decide (E.recoverFromPrehash digest signature odd = some wallet) with
  | none => .error (.error (.sign "signature does not recover to the wallet public key"))
  | some yParity => return ⟨fromBe sig.r, fromBe sig.s, yParity⟩

/-- The checks before the relay is touched. -/
def checkSigners (subset : List UInt8) (n : Nat) (me : UInt8) : Except MpcError Unit := do
  ensure (subset.IsChain (· < ·) ∧ ∀ p ∈ subset, p.toNat < n) (.sign ("invalid signing subset " ++
    debugList subset ++ ": must be strictly ascending party ids < " ++ toString n))
  ensure (me ∈ subset) (.sign ("party " ++ toString me.toNat ++ " is not in signing subset " ++
    debugList subset))

/-- The other signers' indices. -/
def counterparties (subset : List UInt8) (me : UInt8) : Except Halt (List PartyIndex) :=
  (subset.filter (· ≠ me)).mapM cidxOrPanic

section

variable (D : Dkls) {S : Type}

/-- What a party offers in round 1. -/
def signOutbox1 (out : List D.TransmitPhase1to2) : RoundOutbox where
  broadcast := none
  p2p := route D.sign1 (fun m => sidx (D.signParties1 m).receiver) out

/-- What a party offers in round 2. -/
def signOutbox2 (out : List D.TransmitPhase2to3) : RoundOutbox where
  broadcast := none
  p2p := route D.sign2 (fun m => sidx (D.signParties2 m).receiver) out

/-- What a party offers in round 3. -/
def signOutbox3 (broadcast : D.Broadcast3to4) : RoundOutbox where
  broadcast := some (D.sign3.serialize broadcast)
  p2p := ∅

/-- The loop over round 3's broadcasts; the own one is in already. -/
def readBroadcasts (mine : D.Broadcast3to4) (inbox : RoundInbox) :
    Except MpcError (List D.Broadcast3to4) :=
  inbox.broadcasts.toList.foldlM
    (fun out (p, bytes) => do
      return out ++ [← de D.sign3 bytes p "sign round-3 broadcast" Op.sign])
    [mine]

variable (E : K256) (L : SignPhases D S)

/-- `sign_party`. -/
def signParty {C : Crypto} (ctx : PartyContext C) (share : KeyShare) (digest : B256)
    (subset : List UInt8) : Script (SignCall D S) EcdsaParts := do
  let n := ctx.partyVks.length
  Script.attempt (checkSigners subset n ctx.partyId)
  let party ← Script.ofExcept (decodeFor D.party D.view share ctx.partyId
    (UInt8.ofNat subset.length) (UInt8.ofNat n) Op.sign)
  let counterparties ← Script.ofExcept (counterparties subset ctx.partyId)
  let data : SignData := ⟨ctx.inst.bytes, counterparties, digest⟩
  Script.mark (.new party data)
  let (session, t1Out) ← abortable Op.sign (L.new party data)
  let inbox ← Script.exchange 1 (signOutbox1 D t1Out) .P2p
  let received1 ← Script.attempt (gather D.sign1 inbox.p2p "sign round-1 transmit" Op.sign)
  Script.mark (.phase2 session received1)
  let (session, t2Out) ← abortable Op.sign (L.phase2 session received1)
  let inbox ← Script.exchange 2 (signOutbox2 D t2Out) .P2p
  let received2 ← Script.attempt (gather D.sign2 inbox.p2p "sign round-2 transmit" Op.sign)
  Script.mark (.phase3 session received2)
  let (session, myBroadcast) ← abortable Op.sign (L.phase3 session received2)
  let inbox ← Script.exchange 3 (signOutbox3 D myBroadcast) .Broadcasts
  let broadcasts ← Script.attempt (readBroadcasts D myBroadcast inbox)
  Script.mark (.phase4 session broadcasts)
  let sig ← abortable Op.sign (L.phase4 session broadcasts)
  Script.ofExcept (recoverParts E digest (D.view.publicKey party) sig)

end

-- ---------------------------------------------------------------------------
-- The same without a network
-- ---------------------------------------------------------------------------

/-- A signing subset of the roster. -/
structure SubsetOf {C : Crypto} (R : Roster C) (subset : List UInt8) : Prop where
  ascending : subset.Pairwise (· < ·)
  seated : ∀ p ∈ subset, p.toNat < R.count

/-- A signature by direct routing, each signer with its own shard. The phases that
emit transmits address all others. -/
structure SignRun (D : Dkls) {S : Type} (L : UInt8 → SignPhases D S) {C : Crypto} (R : Roster C)
    (share : UInt8 → KeyShare) (digest : B256) (subset : List UInt8) where
  party : UInt8 → D.Party
  session1 : UInt8 → S
  session2 : UInt8 → S
  session3 : UInt8 → S
  sent1 : UInt8 → List D.TransmitPhase1to2
  sent2 : UInt8 → List D.TransmitPhase2to3
  broadcast : UInt8 → D.Broadcast3to4
  decoded : ∀ p ∈ subset, decodeFor D.party D.view (share p) p (UInt8.ofNat subset.length)
    (UInt8.ofNat R.count) Op.sign = .ok (party p)
  new_eq : ∀ p ∈ subset,
    (L p).new (party p) ⟨R.inst.bytes, (subset.filter (· ≠ p)).filterMap cidx, digest⟩ =
      .ok (session1 p, sent1 p)
  phase2_eq : ∀ p ∈ subset, (L p).phase2 (session1 p)
    (transmits subset (fun m => sidx (D.signParties1 m).receiver) sent1 p) =
      .ok (session2 p, sent2 p)
  phase3_eq : ∀ p ∈ subset, (L p).phase3 (session2 p)
    (transmits subset (fun m => sidx (D.signParties2 m).receiver) sent2 p) =
      .ok (session3 p, broadcast p)
  addressed1 : ∀ p ∈ subset, Addressed subset p
    ((sent1 p).map fun m => sidx (D.signParties1 m).receiver)
  addressed2 : ∀ p ∈ subset, Addressed subset p
    ((sent2 p).map fun m => sidx (D.signParties2 m).receiver)

/-- Ids below 255 all have an index. -/
theorem counterparties_ok {subset : List UInt8} {me : UInt8}
    (hBound : ∀ p ∈ subset, p.toNat < 255) :
    counterparties subset me = .ok ((subset.filter (· ≠ me)).filterMap cidx) := by
  have hAll : ∀ ps : List UInt8, (∀ p ∈ ps, p.toNat < 255) →
      ps.mapM cidxOrPanic = .ok (ps.filterMap cidx) := by
    intro ps hPs
    induction ps with
    | nil => rfl
    | cons p ps ih =>
      obtain ⟨i, hi⟩ := cidx_some (hPs p List.mem_cons_self)
      have hOk : cidxOrPanic p = .ok i := by
        unfold cidxOrPanic
        rw [hi]
      rw [List.mapM_cons, hOk, ih fun q hq => hPs q (List.mem_cons_of_mem p hq),
        List.filterMap_cons_some hi]
      rfl
  exact hAll _ fun p hp => hBound p (List.mem_filter.mp hp).1

namespace SignRun

section

variable {D : Dkls} {S : Type} {L : UInt8 → SignPhases D S} {C : Crypto} {R : Roster C}
  {share : UInt8 → KeyShare} {digest : B256} {subset : List UInt8}
  (run : SignRun D L R share digest subset)

/-- The three rounds, as all signers offer them. -/
def stages : List Stage :=
  [⟨1, .P2p, fun p => signOutbox1 D (run.sent1 p)⟩,
    ⟨2, .P2p, fun p => signOutbox2 D (run.sent2 p)⟩,
    ⟨3, .Broadcasts, fun p => signOutbox3 D (run.broadcast p)⟩]

/-- What each signer is sent by the others in round 1. -/
def received1 : UInt8 → List D.TransmitPhase1to2 :=
  transmits subset (fun m => sidx (D.signParties1 m).receiver) run.sent1

/-- What each signer is sent by the others in round 2. -/
def received2 : UInt8 → List D.TransmitPhase2to3 :=
  transmits subset (fun m => sidx (D.signParties2 m).receiver) run.sent2

/-- Everybody's broadcast, the own one first. -/
def broadcasts (p : UInt8) : List D.Broadcast3to4 :=
  run.broadcast p :: (subset.filter (· ≠ p)).map run.broadcast

/-- The calls of one party, with the arguments direct routing gives them. -/
def calls (p : UInt8) : List (SignCall D S) :=
  [.new (run.party p) ⟨R.inst.bytes, (subset.filter (· ≠ p)).filterMap cidx, digest⟩,
    .phase2 (run.session1 p) (run.received1 p),
    .phase3 (run.session2 p) (run.received2 p),
    .phase4 (run.session3 p) (run.broadcasts p)]

/-- What the last phase makes of it. -/
def assembled (p : UInt8) : Except Abort RawSignature :=
  (L p).phase4 (run.session3 p) (run.broadcasts p)

/-- What one party ends with. -/
def result (E : K256) (p : UInt8) : Except Halt EcdsaParts := do
  let sig ← (run.assembled p).mapError fun a => Halt.error (mapAbort Op.sign a)
  recoverParts E digest (D.view.publicKey (run.party p)) sig

variable {run} {p : UInt8} {inbox : RoundInbox}

/-- Every round offers what it expects. -/
theorem stage_offered : ∀ st ∈ run.stages, st.Offered subset := by
  intro st hSt
  simp only [stages, List.mem_cons, List.not_mem_nil, or_false] at hSt
  rcases hSt with rfl | rfl | rfl
  · exact offered_addressed (fun _ _ => mem_route) run.addressed1 fun h => nomatch h
  · exact offered_addressed (fun _ _ => mem_route) run.addressed2 fun h => nomatch h
  · refine ⟨?_, ?_⟩
    · intro p _ q _ _ k hWants
      rcases k with _ | _
      · rfl
      · simp [Expect.wants, Expect.p2p] at hWants
    · intro q _ p hMem
      have hNone : p ∈ (∅ : PartyMap) := hMem
      simp at hNone

/-- Everybody's broadcast, once. -/
theorem readBroadcasts_routes (hCodecs : D.RoundTrips) (hAscending : subset.Pairwise (· < ·))
    (hGet : ∀ q : UInt8, inbox.broadcasts[q]? = if q ∈ subset ∧ q ≠ p then
      some (D.sign3.serialize (run.broadcast q)) else none) :
    readBroadcasts D (run.broadcast p) inbox = .ok (run.broadcasts p) := by
  have hLoop := foldlM_others "sign round-3 broadcast" Op.sign
    (fun (out : List D.Broadcast3to4) b => out ++ [b]) hAscending
    (fun q _ _ => ⟨_, rfl, hCodecs.sign3 (run.broadcast q)⟩) hGet [run.broadcast p]
  have hOthers : (subset.filter (· ≠ p)).flatMap (fun q => [run.broadcast q]) =
      (subset.filter (· ≠ p)).map run.broadcast := List.flatMap_pure_eq_map run.broadcast _
  rw [foldl_append_keys _ (fun q => [run.broadcast q]), hOthers] at hLoop
  exact hLoop

/-- The adapter follows the run. -/
theorem follows_sign (hCodecs : D.RoundTrips) (hCount : R.count ≤ 255)
    (hSubset : SubsetOf R subset) (E : K256) (hp : p ∈ subset) :
    Follows subset p run.stages (signParty D E (L p) (R.ctx p) (share p) digest subset)
      (run.calls p) (run.result E p) := by
  have hAscending := hSubset.ascending
  have hLength : (R.ctx p).partyVks.length = R.count := by
    show ((ids R.count).map _).length = R.count
    rw [List.length_map, ids, List.length_map, List.length_range]
  have hMe : (R.ctx p).partyId = p := rfl
  have hInst : (R.ctx p).inst = R.inst := rfl
  -- the subset passes the checks
  have hCheck : checkSigners subset R.count p = .ok () := by
    simp only [checkSigners, bind_eq_ok, ensure_eq_ok]
    exact ⟨(), ⟨List.isChain_iff_pairwise.mpr hAscending, hSubset.seated⟩, hp⟩
  have hBound : ∀ q ∈ subset, q.toNat < 255 := by
    intro q hq
    have hSeat := hSubset.seated q hq
    omega
  -- line by line of the script, as for key generation
  unfold signParty calls stages
  simp only [hLength, hMe, hInst]
  refine Follows.attempt hCheck ?_
  refine Follows.ofExcept (run.decoded p hp) ?_
  refine Follows.ofExcept (counterparties_ok hBound) ?_
  refine Follows.mark ?_
  refine Follows.abortable (run.new_eq p hp) ?_
  refine Follows.exchange ⟨1, .P2p, fun q => signOutbox1 D (run.sent1 q)⟩ fun inbox hRoutes => ?_
  refine Follows.attempt (gather_routes hCodecs.sign1 hAscending hp run.addressed1
    (hRoutes.wanted (k := true) rfl)) ?_
  refine Follows.mark ?_
  refine Follows.abortable (run.phase2_eq p hp) ?_
  refine Follows.exchange ⟨2, .P2p, fun q => signOutbox2 D (run.sent2 q)⟩ fun inbox hRoutes => ?_
  refine Follows.attempt (gather_routes hCodecs.sign2 hAscending hp run.addressed2
    (hRoutes.wanted (k := true) rfl)) ?_
  refine Follows.mark ?_
  refine Follows.abortable (run.phase3_eq p hp) ?_
  refine Follows.exchange ⟨3, .Broadcasts, fun q => signOutbox3 D (run.broadcast q)⟩
    fun inbox hRoutes => ?_
  refine Follows.attempt (readBroadcasts_routes hCodecs hAscending
    (hRoutes.wanted (k := false) rfl)) ?_
  refine Follows.mark ?_
  show Follows subset p [] (abortable Op.sign (run.assembled p) >>= fun sig =>
    Script.ofExcept (recoverParts E digest (D.view.publicKey (run.party p)) sig)) []
      (run.result E p)
  unfold result
  rcases run.assembled p with a | sig
  · exact .halt
  · exact .ends

end

end SignRun

section

variable (D : Dkls) {S : Type} (E : K256) (L : UInt8 → SignPhases D S) {C : Crypto}
  (R : Roster C) (share : UInt8 → KeyShare) (digest : B256) (subset : List UInt8)
  (rnd : UInt8 → UInt8 → UInt8 → SealRandomness C)

/-- A signature by a subset of the roster. -/
def signAll : Ceremony C (SignCall D S) EcdsaParts where
  roster := R
  op := Op.sign
  participants := subset
  script p := signParty D E (L p) (R.ctx p) (share p) digest subset
  rnd := rnd

variable {D E L R share digest subset rnd}

/-- Every party's signing is a run of the ceremony by direct routing. -/
theorem sign_direct (hBox : C.SealedBox) (hSigns : C.Signs) (hCodecs : D.RoundTrips)
    (hCount : R.count ≤ 255) (hSubset : SubsetOf R subset)
    (run : SignRun D L R share digest subset)
    (hSeals : (signAll D E L R share digest subset rnd).Seals run.stages) :
    (signAll D E L R share digest subset rnd).Direct run.stages run.calls (run.result E) where
  box := hBox
  signs := hSigns
  seated p hp := (mem_ids (Nat.le_succ_of_le hCount)).mpr (hSubset.seated p hp)
  rounds := by
    show [(1 : UInt8), 2, 3].Pairwise (· < ·)
    decide
  offered := SignRun.stage_offered
  seals := hSeals
  follows _ hp := SignRun.follows_sign hCodecs hCount hSubset E hp

/-- Every party's signing on the network ends with what it computes by direct routing. -/
theorem sign_computes (hBox : C.SealedBox) (hSigns : C.Signs) (hCodecs : D.RoundTrips)
    (hCount : R.count ≤ 255) (hSubset : SubsetOf R subset)
    (run : SignRun D L R share digest subset)
    (hSeals : (signAll D E L R share digest subset rnd).Seals run.stages) :
    (signAll D E L R share digest subset rnd).Computes run.calls (run.result E) :=
  Ceremony.ceremony_computes (sign_direct hBox hSigns hCodecs hCount hSubset run hSeals)

end

end Sovra.Carbon
