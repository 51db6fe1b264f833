import Sovra.Carbon.Fragments

/-!
# Sovra — proactive refresh

`refresh.rs`: every party brings its shard, every shard is replaced, the public
key stays. Two checks guard the key: the expected one against the shard before
the relay is touched, and the new shard's against the expected one at the end.

* `refresh_yields`  — old and new shard are of the expected key.
* `follows_refresh` — the adapter, fed by direct routing, makes the calls of the
  run and returns its result.
-/

namespace Sovra.Carbon

open Lib Mpc

/-- The `refresh_complete_*` phases of a `Party`. -/
structure RefreshPhases (D : Dkls) where
  phase1 : D.Party → List D.Scalar
  phase2 : D.Party → Bytes → List D.Scalar →
    D.Correction × D.ProofCommitment × D.ZeroKeep23 × List D.TransmitInitZeroSharePhase2to4
  phase3 : D.Party → Bytes → D.ZeroKeep23 → D.ZeroKeep34 ×
    List D.TransmitInitZeroSharePhase3to4 × D.MulKeep × List D.TransmitInitMulPhase3to4
  phase4 : D.Party → Bytes → D.Correction → List D.ProofCommitment → D.ZeroKeep34 →
    List D.TransmitInitZeroSharePhase2to4 → List D.TransmitInitZeroSharePhase3to4 → D.MulKeep →
    List D.TransmitInitMulPhase3to4 → Except Abort D.Party

/-- A library call with its arguments. -/
inductive RefreshCall (D : Dkls)
  | phase1 (party : D.Party)
  | phase2 (party : D.Party) (sid : Bytes) (polyFragments : List D.Scalar)
  | phase3 (party : D.Party) (sid : Bytes) (zeroKeep23 : D.ZeroKeep23)
  | phase4 (party : D.Party) (sid : Bytes) (correction : D.Correction)
      (proofs : List D.ProofCommitment) (zeroKeep34 : D.ZeroKeep34)
      (zero2In : List D.TransmitInitZeroSharePhase2to4)
      (zero3In : List D.TransmitInitZeroSharePhase3to4) (mulKeep : D.MulKeep)
      (mul3In : List D.TransmitInitMulPhase3to4)

section

variable (D : Dkls)

/-- Round 2 of a refresh, as one party offers it. -/
def refreshOutbox2 (proof : D.ProofCommitment) (zero2 : List D.TransmitInitZeroSharePhase2to4) :
    RoundOutbox where
  broadcast := some (D.proof.serialize proof)
  p2p := route D.zero2 (fun m => sidx (D.zeroParties2 m).receiver) zero2

/-- Round 3, as one party offers it. -/
def refreshOutbox3 (zero3 : List D.TransmitInitZeroSharePhase3to4)
    (mul3 : List D.TransmitInitMulPhase3to4) : RoundOutbox where
  broadcast := none
  p2p := routeZeroMul D.zeroMul D.zeroParties3 D.mulParties3 zero3 mul3

/-- One party's round-2 proof, the own one without the network. -/
def refreshProof (me : UInt8) (mine : D.ProofCommitment) (inbox : RoundInbox) (p : UInt8) :
    Except Halt D.ProofCommitment :=
  if p = me then .ok mine
  else readFrom D.proof inbox.broadcasts "refresh round-2 proof" Op.refresh p

/-- What precedes the relay: the shard is this party's, and of the expected key. -/
def refreshAnchor (share : KeyShare) (publicKey : PubkeySec1) (me threshold shareCount : UInt8) :
    Except Halt D.Party := do
  let party ← decodeFor D.party D.view share me threshold shareCount Op.refresh
  ensure (D.view.publicKey party = publicKey)
    (.error (.partyMismatch "expected public key does not match this party's shard"))
  return party

/-- The belt over the protocol's own check. -/
def refreshFinish (publicKey : PubkeySec1) (newParty : D.Party) :
    Except MpcError (KeyShare × PubkeySec1) := do
  let pk := D.view.publicKey newParty
  ensure (pk = publicKey) (.partyMismatch "refresh produced a different public key")
  return (encode D.party newParty, pk)

variable (text : UInt8 → UInt8 → String) (L : RefreshPhases D)

/-- `refresh_party`. -/
def refreshParty {C : Crypto} (ctx : PartyContext C) (share : KeyShare) (publicKey : PubkeySec1) :
    Script (RefreshCall D) (KeyShare × PubkeySec1) := do
  let (params, _) ← Script.ofExcept (scheme text ctx)
  let me := ctx.partyId
  let party ←
    Script.ofExcept (refreshAnchor D share publicKey me ctx.threshold params.shareCount)
  let sid := ctx.inst.bytes
  let all := ids params.shareCount.toNat
  Script.mark (.phase1 party)
  let polyFragments ←
    shareFragments D me (L.phase1 party) "refresh round-1 fragment" Op.refresh
  Script.mark (.phase2 party sid polyFragments)
  let (correction, myProof, zeroKeep23, zero2Out) := L.phase2 party sid polyFragments
  let inbox ← Script.exchange 2 (refreshOutbox2 D myProof zero2Out) .Both
  let proofs ← Script.ofExcept (all.mapM (refreshProof D me myProof inbox))
  let zero2In ← Script.attempt (gather D.zero2 inbox.p2p "refresh round-2 zero-share" Op.refresh)
  Script.mark (.phase3 party sid zeroKeep23)
  let (zeroKeep34, zero3Out, mulKeep, mul3Out) := L.phase3 party sid zeroKeep23
  let inbox ← Script.exchange 3 (refreshOutbox3 D zero3Out mul3Out) .P2p
  let (zero3In, mul3In) ←
    Script.attempt (gatherZeroMul D.zeroMul inbox.p2p "refresh round-3 transmits" Op.refresh)
  Script.mark (.phase4 party sid correction proofs zeroKeep34 zero2In zero3In mulKeep mul3In)
  let newParty ← abortable Op.refresh
    (L.phase4 party sid correction proofs zeroKeep34 zero2In zero3In mulKeep mul3In)
  Script.attempt (refreshFinish D publicKey newParty)

variable {D text L}

/-- The old shard is of the expected key. -/
theorem refreshAnchor_ok {share : KeyShare} {publicKey : PubkeySec1}
    {me threshold shareCount : UInt8} {party : D.Party}
    (h : refreshAnchor D share publicKey me threshold shareCount = .ok party) :
    publicKeyOf D.party D.view share = .ok publicKey := by
  simp only [refreshAnchor, bind_eq_ok, decodeFor_ok, ensure_eq_ok, pure_eq_ok] at h
  obtain ⟨found, ⟨hDecode, -⟩, -, hKey, -⟩ := h
  simp only [publicKeyOf, bind_eq_ok, pure_eq_ok]
  exact ⟨found, hDecode, hKey⟩

/-- The new shard is of the expected key. -/
theorem refreshFinish_ok (hCodec : D.party.RoundTrips) {publicKey pk : PubkeySec1}
    {share : KeyShare} {newParty : D.Party}
    (h : refreshFinish D publicKey newParty = .ok (share, pk)) :
    pk = publicKey ∧ publicKeyOf D.party D.view share = .ok pk := by
  simp only [refreshFinish, bind_eq_ok, ensure_eq_ok, pure_eq_ok, Prod.mk.injEq] at h
  obtain ⟨-, hKey, rfl, rfl⟩ := h
  exact ⟨hKey, publicKeyOf_encode hCodec newParty⟩

/-- Whatever the peers send, the old shard, the new one and the key returned are
all of the expected key. -/
theorem refresh_yields {C : Crypto} {ctx : PartyContext C} (hCodec : D.party.RoundTrips)
    {oldShare share : KeyShare} {expected publicKey : PubkeySec1}
    (h : (refreshParty D text L ctx oldShare expected).Yields (share, publicKey)) :
    publicKeyOf D.party D.view oldShare = .ok expected ∧ publicKey = expected ∧
      publicKeyOf D.party D.view share = .ok expected := by
  have hEnds : (refreshParty D text L ctx oldShare expected).Ends fun r =>
      publicKeyOf D.party D.view oldShare = .ok expected ∧ r.2 = expected ∧
        publicKeyOf D.party D.view r.1 = .ok expected := by
    unfold refreshParty
    refine Script.Ends.skip fun ⟨params, myIndex⟩ => Script.Ends.bind fun party hAnchor => ?_
    have hOld := refreshAnchor_ok hAnchor.of_ofExcept
    -- whatever comes between, the last check is on the party just assembled
    repeat (refine Script.Ends.skip fun _ => ?_; try split)
    rintro ⟨newShare, newKey⟩ hFinish
    obtain ⟨hKey, hNew⟩ := refreshFinish_ok hCodec hFinish.of_attempt
    exact ⟨hOld, hKey, hKey ▸ hNew⟩
  exact hEnds _ h

end

-- ---------------------------------------------------------------------------
-- The same without a network
-- ---------------------------------------------------------------------------

/-- A refresh by direct routing of shards of one key, each its holder's own. The
phases before the last address all others. -/
structure RefreshRun (D : Dkls) (L : UInt8 → RefreshPhases D) {C : Crypto} (R : Roster C)
    (share : UInt8 → KeyShare) (publicKey : PubkeySec1) where
  party : UInt8 → D.Party
  fragment : UInt8 → UInt8 → D.Scalar
  correction : UInt8 → D.Correction
  proof : UInt8 → D.ProofCommitment
  zeroKeep23 : UInt8 → D.ZeroKeep23
  zero2 : UInt8 → List D.TransmitInitZeroSharePhase2to4
  zeroKeep34 : UInt8 → D.ZeroKeep34
  zero3 : UInt8 → List D.TransmitInitZeroSharePhase3to4
  mulKeep : UInt8 → D.MulKeep
  mul3 : UInt8 → List D.TransmitInitMulPhase3to4
  decoded : ∀ p ∈ ids R.count, decodeFor D.party D.view (share p) p R.threshold
    (UInt8.ofNat R.count) Op.refresh = .ok (party p)
  anchored : ∀ p ∈ ids R.count, D.view.publicKey (party p) = publicKey
  phase1_eq : ∀ p ∈ ids R.count, (L p).phase1 (party p) = (ids R.count).map (fragment p)
  phase2_eq : ∀ p ∈ ids R.count,
    (L p).phase2 (party p) R.inst.bytes ((ids R.count).map fun q => fragment q p) =
      (correction p, proof p, zeroKeep23 p, zero2 p)
  phase3_eq : ∀ p ∈ ids R.count, (L p).phase3 (party p) R.inst.bytes (zeroKeep23 p) =
    (zeroKeep34 p, zero3 p, mulKeep p, mul3 p)
  addressed2 : ∀ p ∈ ids R.count, Addressed (ids R.count) p
    ((zero2 p).map fun m => sidx (D.zeroParties2 m).receiver)
  addressed3 : ∀ p ∈ ids R.count, Addressed (ids R.count) p
    (((zero3 p).map fun m => sidx (D.zeroParties3 m).receiver) ++
      (mul3 p).map fun m => sidx (D.mulParties3 m).receiver)

namespace RefreshRun

section

variable {D : Dkls} {L : UInt8 → RefreshPhases D} {C : Crypto} {R : Roster C}
  {share : UInt8 → KeyShare} {publicKey : PubkeySec1} (run : RefreshRun D L R share publicKey)

/-- The three rounds, as all parties offer them. -/
def stages : List Stage :=
  [fragmentStage D R.count run.fragment,
    ⟨2, .Both, fun p => refreshOutbox2 D (run.proof p) (run.zero2 p)⟩,
    ⟨3, .P2p, fun p => refreshOutbox3 D (run.zero3 p) (run.mul3 p)⟩]

/-- The zero-shares each party is sent by the others in round 2. -/
def zero2In : UInt8 → List D.TransmitInitZeroSharePhase2to4 :=
  transmits (ids R.count) (fun m => sidx (D.zeroParties2 m).receiver) run.zero2

/-- The zero-shares each party is sent by the others in round 3. -/
def zero3In : UInt8 → List D.TransmitInitZeroSharePhase3to4 :=
  transmits (ids R.count) (fun m => sidx (D.zeroParties3 m).receiver) run.zero3

/-- The multiplication transmits each party is sent by the others in round 3. -/
def mul3In : UInt8 → List D.TransmitInitMulPhase3to4 :=
  transmits (ids R.count) (fun m => sidx (D.mulParties3 m).receiver) run.mul3

/-- The calls of one party, with the arguments direct routing gives them. -/
def calls (p : UInt8) : List (RefreshCall D) :=
  [.phase1 (run.party p),
    .phase2 (run.party p) R.inst.bytes ((ids R.count).map fun q => run.fragment q p),
    .phase3 (run.party p) R.inst.bytes (run.zeroKeep23 p),
    .phase4 (run.party p) R.inst.bytes (run.correction p) ((ids R.count).map run.proof)
      (run.zeroKeep34 p) (run.zero2In p) (run.zero3In p) (run.mulKeep p) (run.mul3In p)]

/-- What the last phase makes of it. -/
def assembled (p : UInt8) : Except Abort D.Party :=
  (L p).phase4 (run.party p) R.inst.bytes (run.correction p) ((ids R.count).map run.proof)
    (run.zeroKeep34 p) (run.zero2In p) (run.zero3In p) (run.mulKeep p) (run.mul3In p)

/-- What one party ends with. -/
def result (p : UInt8) : Except Halt (KeyShare × PubkeySec1) := do
  let newParty ← (run.assembled p).mapError fun a => Halt.error (mapAbort Op.refresh a)
  (refreshFinish D publicKey newParty).mapError .error

variable {run} {p : UInt8} {inbox : RoundInbox}

/-- Every round offers what it expects. -/
theorem stage_offered : ∀ st ∈ run.stages, st.Offered (ids R.count) := by
  intro st hSt
  simp only [stages, List.mem_cons, List.not_mem_nil, or_false] at hSt
  rcases hSt with rfl | rfl | rfl
  · exact fragmentStage_offered
  · exact offered_addressed (fun _ _ => mem_route) run.addressed2 fun _ _ _ => rfl
  · exact offered_addressed (fun _ _ => mem_routeZeroMul) run.addressed3 fun h => nomatch h

/-- The anchor accepts an honest party's shard. -/
theorem anchor_ok (hp : p ∈ ids R.count) :
    refreshAnchor D (share p) publicKey p R.threshold (UInt8.ofNat R.count) =
      .ok (run.party p) := by
  simp only [refreshAnchor, bind_eq_ok, pure_eq_ok, ensure_eq_ok]
  exact ⟨run.party p, run.decoded p hp, (), run.anchored p hp, rfl⟩

/-- Every party's proof in its place. -/
theorem refreshProof_routes (hCodecs : D.RoundTrips)
    (hGet : ∀ q : UInt8, inbox.broadcasts[q]? = if q ∈ ids R.count ∧ q ≠ p then
      some (D.proof.serialize (run.proof q)) else none) :
    (ids R.count).mapM (refreshProof D p (run.proof p) inbox) =
      .ok ((ids R.count).map run.proof) := by
  refine mapM_ok fun q hq => ?_
  unfold refreshProof
  by_cases hOwn : q = p
  · rw [if_pos hOwn, hOwn]
  · rw [if_neg hOwn]
    exact readFrom_ok ((hGet q).trans (if_pos ⟨hq, hOwn⟩)) (hCodecs.proof _)

/-- The adapter follows the run. -/
theorem follows_refresh (hCodecs : D.RoundTrips) (hScheme : SchemeOk R.threshold R.count)
    (text : UInt8 → UInt8 → String) (hp : p ∈ ids R.count) :
    Follows (ids R.count) p run.stages
      (refreshParty D text (L p) (R.ctx p) (share p) publicKey) (run.calls p) (run.result p) := by
  have hn := hScheme.bound
  have hAscending := ids_ascending (n := R.count) (by omega)
  obtain ⟨i, hIndex⟩ : ∃ i, cidx p = some i := by
    have hLt := (mem_ids (by omega)).mp hp
    exact cidx_some (by omega)
  have hCount : (UInt8.ofNat R.count).toNat = R.count := by
    rw [UInt8.toNat_ofNat']
    omega
  have hMe : (R.ctx p).partyId = p := rfl
  have hInst : (R.ctx p).inst = R.inst := rfl
  -- line by line of the script, as for key generation
  unfold refreshParty calls stages
  refine Follows.ofExcept (scheme_ok hScheme text hp hIndex) ?_
  simp only [hCount, hMe, hInst]
  have hAnchor : refreshAnchor D (share p) publicKey p R.threshold (UInt8.ofNat R.count) =
      .ok (run.party p) := anchor_ok hp
  refine Follows.ofExcept hAnchor ?_
  refine Follows.mark ?_
  rw [run.phase1_eq p hp]
  refine follows_shareFragments hn hCodecs.scalar hp ?_
  refine Follows.mark ?_
  simp only [run.phase2_eq p hp]
  refine Follows.exchange
    ⟨2, .Both, fun q => refreshOutbox2 D (run.proof q) (run.zero2 q)⟩ fun inbox hRoutes => ?_
  refine Follows.ofExcept (refreshProof_routes hCodecs (hRoutes.wanted (k := false) rfl)) ?_
  refine Follows.attempt (gather_routes hCodecs.zero2 hAscending hp run.addressed2
    (hRoutes.wanted (k := true) rfl)) ?_
  refine Follows.mark ?_
  simp only [run.phase3_eq p hp]
  refine Follows.exchange
    ⟨3, .P2p, fun q => refreshOutbox3 D (run.zero3 q) (run.mul3 q)⟩ fun inbox hRoutes => ?_
  refine Follows.attempt (gatherZeroMul_routes hCodecs.zeroMul hAscending hp run.addressed3
    (hRoutes.wanted (k := true) rfl)) ?_
  refine Follows.mark ?_
  show Follows (ids R.count) p [] (abortable Op.refresh (run.assembled p) >>= fun newParty =>
    Script.attempt (refreshFinish D publicKey newParty)) [] (run.result p)
  unfold result
  rcases run.assembled p with a | newParty
  · exact .halt
  · exact .ends

end

end RefreshRun

section

variable (D : Dkls) (text : UInt8 → UInt8 → String) (L : UInt8 → RefreshPhases D) {C : Crypto}
  (R : Roster C) (share : UInt8 → KeyShare) (publicKey : PubkeySec1)
  (rnd : UInt8 → UInt8 → UInt8 → SealRandomness C)

/-- A refresh of the whole roster. -/
def refreshAll : Ceremony C (RefreshCall D) (KeyShare × PubkeySec1) where
  roster := R
  op := Op.refresh
  participants := ids R.count
  script p := refreshParty D text (L p) (R.ctx p) (share p) publicKey
  rnd := rnd

variable {D text L R share publicKey rnd}

/-- Every party's refresh is a run of the ceremony by direct routing. -/
theorem refresh_direct (hBox : C.SealedBox) (hSigns : C.Signs) (hCodecs : D.RoundTrips)
    (hScheme : SchemeOk R.threshold R.count) (run : RefreshRun D L R share publicKey)
    (hSeals : (refreshAll D text L R share publicKey rnd).Seals run.stages) :
    (refreshAll D text L R share publicKey rnd).Direct run.stages run.calls run.result where
  box := hBox
  signs := hSigns
  seated _ hp := hp
  rounds := by
    show [(1 : UInt8), 2, 3].Pairwise (· < ·)
    decide
  offered := RefreshRun.stage_offered
  seals := hSeals
  follows _ hp := RefreshRun.follows_refresh hCodecs hScheme text hp

/-- Every party's refresh on the network ends with what it computes by direct routing. -/
theorem refresh_computes (hBox : C.SealedBox) (hSigns : C.Signs) (hCodecs : D.RoundTrips)
    (hScheme : SchemeOk R.threshold R.count) (run : RefreshRun D L R share publicKey)
    (hSeals : (refreshAll D text L R share publicKey rnd).Seals run.stages) :
    (refreshAll D text L R share publicKey rnd).Computes run.calls run.result :=
  Ceremony.ceremony_computes (refresh_direct hBox hSigns hCodecs hScheme run hSeals)

end

end Sovra.Carbon
