import Sovra.Carbon.Fragments

/-!
# Sovra — key generation

`keygen.rs`: four library phases over three rounds. `DkgRun` is the same key
generation without a network: each phase of each party is given the other
parties' output of the phase before.

* `keygen_yields`  — the key returned is the returned shard's.
* `follows_keygen` — the adapter, fed by direct routing, makes the calls of the
  run and returns its result.
-/

namespace Sovra.Carbon

open Lib Mpc

/-- `DkgSession`: its phases and what each emits. -/
structure DkgPhases (D : Dkls) (S : Type) where
  new : Parameters → PartyIndex → Bytes → S
  phase1 : S → S × List D.Scalar
  phase2 : S → List D.Scalar → Except Abort (S × D.ProofCommitment ×
    List D.TransmitInitZeroSharePhase2to4 × D.BroadcastDerivationPhase2to4)
  phase3 : S → Except Abort (S × List D.TransmitInitZeroSharePhase3to4 ×
    List D.TransmitInitMulPhase3to4 × D.BroadcastDerivationPhase3to4)
  phase4 : S → List D.ProofCommitment → List D.TransmitInitZeroSharePhase2to4 →
    List D.TransmitInitZeroSharePhase3to4 → List D.TransmitInitMulPhase3to4 →
    IndexMap D.BroadcastDerivationPhase2to4 → IndexMap D.BroadcastDerivationPhase3to4 →
    Except Abort D.Party

/-- A library call with its arguments. -/
inductive DkgCall (D : Dkls) (S : Type)
  | phase1 (session : S)
  | phase2 (session : S) (polyFragments : List D.Scalar)
  | phase3 (session : S)
  | phase4 (session : S) (proofs : List D.ProofCommitment)
      (zero2In : List D.TransmitInitZeroSharePhase2to4)
      (zero3In : List D.TransmitInitZeroSharePhase3to4)
      (mul3In : List D.TransmitInitMulPhase3to4)
      (bip2 : IndexMap D.BroadcastDerivationPhase2to4)
      (bip3 : IndexMap D.BroadcastDerivationPhase3to4)

section

variable (D : Dkls) {S : Type}

/-- Round 2 of a key generation, as one party offers it. -/
def dkgOutbox2 (proof : D.ProofCommitment) (bip2 : D.BroadcastDerivationPhase2to4)
    (zero2 : List D.TransmitInitZeroSharePhase2to4) : RoundOutbox where
  broadcast := some (D.proofBip2.serialize (proof, bip2))
  p2p := route D.zero2 (fun m => sidx (D.zeroParties2 m).receiver) zero2

/-- Round 3, as one party offers it. -/
def dkgOutbox3 (bip3 : D.BroadcastDerivationPhase3to4)
    (zero3 : List D.TransmitInitZeroSharePhase3to4) (mul3 : List D.TransmitInitMulPhase3to4) :
    RoundOutbox where
  broadcast := some (D.bip3.serialize bip3)
  p2p := routeZeroMul D.zeroMul D.zeroParties3 D.mulParties3 zero3 mul3

/-- One party's round-2 broadcast, the own one without the network. -/
def readProof (me : UInt8) (mine : D.ProofCommitment × D.BroadcastDerivationPhase2to4)
    (inbox : RoundInbox) (p : UInt8) :
    Except Halt (D.ProofCommitment × D.BroadcastDerivationPhase2to4) :=
  if p = me then .ok mine
  else readFrom D.proofBip2 inbox.broadcasts "dkg round-2 broadcast" Op.dkg p

/-- The loop over `all` that reads round 2's broadcasts. -/
def readProofs (all : List UInt8) (me : UInt8)
    (mine : D.ProofCommitment × D.BroadcastDerivationPhase2to4) (inbox : RoundInbox) :
    Except Halt (List D.ProofCommitment × IndexMap D.BroadcastDerivationPhase2to4) :=
  all.foldlM
    (fun out p => do
      let item ← readProof D me mine inbox p
      let index ← cidxOrPanic p
      return (out.1 ++ [item.1], out.2.insert index item.2))
    ([], ∅)

/-- The loop over round 3's broadcasts; the own one is in already. -/
def readBip3 (myIndex : PartyIndex) (myBip3 : D.BroadcastDerivationPhase3to4)
    (inbox : RoundInbox) : Except Halt (IndexMap D.BroadcastDerivationPhase3to4) :=
  inbox.broadcasts.toList.foldlM
    (fun out e => do
      let index ← cidxOrPanic e.1
      let bip ← (de D.bip3 e.2 e.1 "dkg round-3 broadcast" Op.dkg).mapError Halt.error
      return out.insert index bip)
    ((∅ : IndexMap D.BroadcastDerivationPhase3to4).insert myIndex myBip3)

variable (text : UInt8 → UInt8 → String) (L : DkgPhases D S)

/-- `keygen_party`. -/
def keygenParty {C : Crypto} (ctx : PartyContext C) :
    Script (DkgCall D S) (KeyShare × PubkeySec1) := do
  let (params, myIndex) ← Script.ofExcept (scheme text ctx)
  let me := ctx.partyId
  let all := ids params.shareCount.toNat
  let session := L.new params myIndex ctx.inst.bytes
  Script.mark (.phase1 session)
  let (session, fragments) := L.phase1 session
  let polyFragments ← shareFragments D me fragments "dkg round-1 fragment" Op.dkg
  Script.mark (.phase2 session polyFragments)
  let (session, myProof, zero2Out, myBip2) ← abortable Op.dkg (L.phase2 session polyFragments)
  let inbox ← Script.exchange 2 (dkgOutbox2 D myProof myBip2 zero2Out) .Both
  let (proofs, bip2) ← Script.ofExcept (readProofs D all me (myProof, myBip2) inbox)
  let zero2In ← Script.attempt (gather D.zero2 inbox.p2p "dkg round-2 zero-share" Op.dkg)
  Script.mark (.phase3 session)
  let (session, zero3Out, mul3Out, myBip3) ← abortable Op.dkg (L.phase3 session)
  let inbox ← Script.exchange 3 (dkgOutbox3 D myBip3 zero3Out mul3Out) .Both
  let bip3 ← Script.ofExcept (readBip3 D myIndex myBip3 inbox)
  let (zero3In, mul3In) ←
    Script.attempt (gatherZeroMul D.zeroMul inbox.p2p "dkg round-3 transmits" Op.dkg)
  Script.mark (.phase4 session proofs zero2In zero3In mul3In bip2 bip3)
  let party ← abortable Op.dkg (L.phase4 session proofs zero2In zero3In mul3In bip2 bip3)
  return (encode D.party party, D.view.publicKey party)

variable {D text L}

/-- Whatever the peers send, the key returned is the returned shard's. -/
theorem keygen_yields {C : Crypto} {ctx : PartyContext C} (hCodec : D.party.RoundTrips)
    {share : KeyShare} {publicKey : PubkeySec1}
    (h : (keygenParty D text L ctx).Yields (share, publicKey)) :
    publicKeyOf D.party D.view share = .ok publicKey := by
  have hEnds : (keygenParty D text L ctx).Ends
      fun r => publicKeyOf D.party D.view r.1 = .ok r.2 := by
    unfold keygenParty
    -- whatever came before, the shard and the key are of the party just assembled
    repeat (refine Script.Ends.skip fun _ => ?_; try split)
    exact .done (publicKeyOf_encode hCodec _)
  exact hEnds _ h

end

-- ---------------------------------------------------------------------------
-- The same without a network
-- ---------------------------------------------------------------------------

/-- A key generation by direct routing: what every party's phases yield on the
others' output. Every phase before the last succeeds and addresses all others. -/
structure DkgRun (D : Dkls) {S : Type} (L : UInt8 → DkgPhases D S) {C : Crypto} (R : Roster C) where
  session0 : UInt8 → S
  session1 : UInt8 → S
  session2 : UInt8 → S
  session3 : UInt8 → S
  fragment : UInt8 → UInt8 → D.Scalar
  proof : UInt8 → D.ProofCommitment
  zero2 : UInt8 → List D.TransmitInitZeroSharePhase2to4
  bip2 : UInt8 → D.BroadcastDerivationPhase2to4
  zero3 : UInt8 → List D.TransmitInitZeroSharePhase3to4
  mul3 : UInt8 → List D.TransmitInitMulPhase3to4
  bip3 : UInt8 → D.BroadcastDerivationPhase3to4
  new_eq : ∀ p ∈ ids R.count, ∀ i, cidx p = some i →
    (L p).new ⟨R.threshold, UInt8.ofNat R.count⟩ i R.inst.bytes = session0 p
  phase1_eq : ∀ p ∈ ids R.count,
    (L p).phase1 (session0 p) = (session1 p, (ids R.count).map (fragment p))
  phase2_eq : ∀ p ∈ ids R.count,
    (L p).phase2 (session1 p) ((ids R.count).map fun q => fragment q p) =
      .ok (session2 p, proof p, zero2 p, bip2 p)
  phase3_eq : ∀ p ∈ ids R.count,
    (L p).phase3 (session2 p) = .ok (session3 p, zero3 p, mul3 p, bip3 p)
  addressed2 : ∀ p ∈ ids R.count, Addressed (ids R.count) p
    ((zero2 p).map fun m => sidx (D.zeroParties2 m).receiver)
  addressed3 : ∀ p ∈ ids R.count, Addressed (ids R.count) p
    (((zero3 p).map fun m => sidx (D.zeroParties3 m).receiver) ++
      (mul3 p).map fun m => sidx (D.mulParties3 m).receiver)

namespace DkgRun

section

variable {D : Dkls} {S : Type} {L : UInt8 → DkgPhases D S} {C : Crypto} {R : Roster C}
  (run : DkgRun D L R)

/-- The three rounds, as all parties offer them. -/
def stages : List Stage :=
  [fragmentStage D R.count run.fragment,
    ⟨2, .Both, fun p => dkgOutbox2 D (run.proof p) (run.bip2 p) (run.zero2 p)⟩,
    ⟨3, .Both, fun p => dkgOutbox3 D (run.bip3 p) (run.zero3 p) (run.mul3 p)⟩]

/-- The zero-shares each party is sent by the others in round 2. -/
def zero2In : UInt8 → List D.TransmitInitZeroSharePhase2to4 :=
  transmits (ids R.count) (fun m => sidx (D.zeroParties2 m).receiver) run.zero2

/-- The zero-shares each party is sent by the others in round 3. -/
def zero3In : UInt8 → List D.TransmitInitZeroSharePhase3to4 :=
  transmits (ids R.count) (fun m => sidx (D.zeroParties3 m).receiver) run.zero3

/-- The multiplication transmits each party is sent by the others in round 3. -/
def mul3In : UInt8 → List D.TransmitInitMulPhase3to4 :=
  transmits (ids R.count) (fun m => sidx (D.mulParties3 m).receiver) run.mul3

/-- The calls of one party, with the arguments direct routing gives them. -/
def calls (p : UInt8) : List (DkgCall D S) :=
  [.phase1 (run.session0 p),
    .phase2 (run.session1 p) ((ids R.count).map fun q => run.fragment q p),
    .phase3 (run.session2 p),
    .phase4 (run.session3 p) ((ids R.count).map run.proof) (run.zero2In p) (run.zero3In p)
      (run.mul3In p) (indexed (ids R.count) run.bip2) (indexed (ids R.count) run.bip3)]

/-- What the last phase makes of it. -/
def assembled (p : UInt8) : Except Abort D.Party :=
  (L p).phase4 (run.session3 p) ((ids R.count).map run.proof) (run.zero2In p) (run.zero3In p)
    (run.mul3In p) (indexed (ids R.count) run.bip2) (indexed (ids R.count) run.bip3)

/-- What one party ends with. -/
def result (p : UInt8) : Except Halt (KeyShare × PubkeySec1) := do
  let party ← (run.assembled p).mapError fun a => Halt.error (mapAbort Op.dkg a)
  return (encode D.party party, D.view.publicKey party)

variable {run} {p : UInt8} {inbox : RoundInbox}

/-- Every round offers what it expects. -/
theorem stage_offered : ∀ st ∈ run.stages, st.Offered (ids R.count) := by
  intro st hSt
  simp only [stages, List.mem_cons, List.not_mem_nil, or_false] at hSt
  rcases hSt with rfl | rfl | rfl
  · exact fragmentStage_offered
  · exact offered_addressed (fun _ _ => mem_route) run.addressed2 fun _ _ _ => rfl
  · exact offered_addressed (fun _ _ => mem_routeZeroMul) run.addressed3 fun _ _ _ => rfl

/-- Round 2's loop yields every party's proof in its place and every party's
broadcast under its index. -/
theorem readProofs_routes (hCodecs : D.RoundTrips) (hn : R.count ≤ 255)
    (hGet : ∀ q : UInt8, inbox.broadcasts[q]? = if q ∈ ids R.count ∧ q ≠ p then
      some (D.proofBip2.serialize (run.proof q, run.bip2 q)) else none) :
    readProofs D (ids R.count) p (run.proof p, run.bip2 p) inbox =
      .ok ((ids R.count).map run.proof, indexed (ids R.count) run.bip2) := by
  -- one id: the own item, or the one its party has broadcast
  have hStep : ∀ (out : List D.ProofCommitment × IndexMap D.BroadcastDerivationPhase2to4),
      ∀ q ∈ ids R.count, (do
        let item ← readProof D p (run.proof p, run.bip2 p) inbox q
        let index ← cidxOrPanic q
        return (out.1 ++ [item.1], out.2.insert index item.2) : Except Halt _) =
      .ok (out.1 ++ [run.proof q], insertAt out.2 q (run.bip2 q)) := by
    intro out q hq
    obtain ⟨i, hi⟩ : ∃ i, cidx q = some i := by
      have hLt := (mem_ids (by omega)).mp hq
      exact cidx_some (by omega)
    have hRead : readProof D p (run.proof p, run.bip2 p) inbox q =
        .ok (run.proof q, run.bip2 q) := by
      unfold readProof
      by_cases hOwn : q = p
      · rw [if_pos hOwn, hOwn]
      · rw [if_neg hOwn]
        exact readFrom_ok ((hGet q).trans (if_pos ⟨hq, hOwn⟩)) (hCodecs.proofBip2 _)
    simp only [hRead, cidxOrPanic, hi, insertAt]
    rfl
  unfold readProofs
  rw [foldlM_ok hStep, foldl_indexed]
  rfl

/-- Round 3's loop yields every party's broadcast under its index. -/
theorem readBip3_routes (hCodecs : D.RoundTrips) (hn : R.count ≤ 255) (hp : p ∈ ids R.count)
    {i : PartyIndex} (hIndex : cidx p = some i)
    (hGet : ∀ q : UInt8, inbox.broadcasts[q]? = if q ∈ ids R.count ∧ q ≠ p then
      some (D.bip3.serialize (run.bip3 q)) else none) :
    readBip3 D i (run.bip3 p) inbox = .ok (indexed (ids R.count) run.bip3) := by
  -- the entries are the others' broadcasts, in the order of their ids
  have hEntries := toList_others (ids_ascending (by omega)) (fun q _ _ => rfl) hGet
  unfold readBip3
  rw [hEntries, List.foldlM_map]
  -- each of them is read, and put where its sender's id says
  have hStep : ∀ (out : IndexMap D.BroadcastDerivationPhase3to4),
      ∀ q ∈ (ids R.count).filter (· ≠ p), (do
        let index ← cidxOrPanic q
        let bip ← (de D.bip3 (D.bip3.serialize (run.bip3 q)) q "dkg round-3 broadcast"
          Op.dkg).mapError Halt.error
        return out.insert index bip : Except Halt _) =
      .ok (insertAt out q (run.bip3 q)) := by
    intro out q hq
    obtain ⟨j, hj⟩ : ∃ j, cidx q = some j := by
      have hLt := (mem_ids (by omega)).mp (List.mem_filter.mp hq).1
      exact cidx_some (by omega)
    have hDe : de D.bip3 (D.bip3.serialize (run.bip3 q)) q "dkg round-3 broadcast" Op.dkg =
        .ok (run.bip3 q) := by
      unfold de
      rw [hCodecs.bip3]
    simp only [cidxOrPanic, hj, hDe, insertAt]
    rfl
  have hFold := foldlM_ok hStep ((∅ : IndexMap D.BroadcastDerivationPhase3to4).insert i (run.bip3 p))
  rw [indexed_own_first hp hIndex] at hFold
  exact hFold

/-- The adapter follows the run. -/
theorem follows_keygen (hCodecs : D.RoundTrips) (hScheme : SchemeOk R.threshold R.count)
    (text : UInt8 → UInt8 → String) (hp : p ∈ ids R.count) :
    Follows (ids R.count) p run.stages (keygenParty D text (L p) (R.ctx p)) (run.calls p)
      (run.result p) := by
  have hn := hScheme.bound
  have hAscending := ids_ascending (n := R.count) (by omega)
  obtain ⟨i, hIndex⟩ : ∃ i, cidx p = some i := by
    have hLt := (mem_ids (by omega)).mp hp
    exact cidx_some (by omega)
  have hCount : (UInt8.ofNat R.count).toNat = R.count := by
    rw [UInt8.toNat_ofNat']
    omega
  have hNew : (L p).new ⟨R.threshold, UInt8.ofNat R.count⟩ i (R.ctx p).inst.bytes =
      run.session0 p := run.new_eq p hp i hIndex
  have hMe : (R.ctx p).partyId = p := rfl
  -- line by line of the script: a check that passes, a call on record, or a round read
  -- as it was routed
  unfold keygenParty calls stages
  refine Follows.ofExcept (scheme_ok hScheme text hp hIndex) ?_
  simp only [hCount, hNew, hMe, run.phase1_eq p hp]
  refine Follows.mark ?_
  refine follows_shareFragments hn hCodecs.scalar hp ?_
  refine Follows.mark ?_
  refine Follows.abortable (run.phase2_eq p hp) ?_
  refine Follows.exchange
    ⟨2, .Both, fun q => dkgOutbox2 D (run.proof q) (run.bip2 q) (run.zero2 q)⟩ fun inbox hRoutes => ?_
  refine Follows.ofExcept (readProofs_routes hCodecs hn (hRoutes.wanted (k := false) rfl)) ?_
  refine Follows.attempt (gather_routes hCodecs.zero2 hAscending hp run.addressed2
    (hRoutes.wanted (k := true) rfl)) ?_
  refine Follows.mark ?_
  refine Follows.abortable (run.phase3_eq p hp) ?_
  refine Follows.exchange
    ⟨3, .Both, fun q => dkgOutbox3 D (run.bip3 q) (run.zero3 q) (run.mul3 q)⟩ fun inbox hRoutes => ?_
  refine Follows.ofExcept (readBip3_routes hCodecs hn hp hIndex
    (hRoutes.wanted (k := false) rfl)) ?_
  refine Follows.attempt (gatherZeroMul_routes hCodecs.zeroMul hAscending hp run.addressed3
    (hRoutes.wanted (k := true) rfl)) ?_
  refine Follows.mark ?_
  show Follows (ids R.count) p [] (abortable Op.dkg (run.assembled p) >>= fun party =>
    pure (encode D.party party, D.view.publicKey party)) [] (run.result p)
  unfold result
  rcases run.assembled p with a | party
  · exact .halt
  · exact .done

end

end DkgRun

section

variable (D : Dkls) {S : Type} (text : UInt8 → UInt8 → String) (L : UInt8 → DkgPhases D S)
  {C : Crypto} (R : Roster C) (rnd : UInt8 → UInt8 → UInt8 → SealRandomness C)

/-- A key generation of the whole roster. -/
def keygen : Ceremony C (DkgCall D S) (KeyShare × PubkeySec1) where
  roster := R
  op := Op.dkg
  participants := ids R.count
  script p := keygenParty D text (L p) (R.ctx p)
  rnd := rnd

variable {D text L R rnd}

/-- Every party's key generation is a run of the ceremony by direct routing. -/
theorem keygen_direct (hBox : C.SealedBox) (hSigns : C.Signs) (hCodecs : D.RoundTrips)
    (hScheme : SchemeOk R.threshold R.count) (run : DkgRun D L R)
    (hSeals : (keygen D text L R rnd).Seals run.stages) :
    (keygen D text L R rnd).Direct run.stages run.calls run.result where
  box := hBox
  signs := hSigns
  seated _ hp := hp
  rounds := by
    show [(1 : UInt8), 2, 3].Pairwise (· < ·)
    decide
  offered := DkgRun.stage_offered
  seals := hSeals
  follows _ hp := DkgRun.follows_keygen hCodecs hScheme text hp

/-- Every party's key generation on the network ends with what it computes by direct
routing. -/
theorem keygen_computes (hBox : C.SealedBox) (hSigns : C.Signs) (hCodecs : D.RoundTrips)
    (hScheme : SchemeOk R.threshold R.count) (run : DkgRun D L R)
    (hSeals : (keygen D text L R rnd).Seals run.stages) :
    (keygen D text L R rnd).Computes run.calls run.result :=
  Ceremony.ceremony_computes (keygen_direct hBox hSigns hCodecs hScheme run hSeals)

end

end Sovra.Carbon
