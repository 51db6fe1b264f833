import Sovra.Cosigner.Types
import Sovra.Lib.Guard
import Sovra.Lib.Service

/-!
# Sovra — the cosigner's control-plane handlers

`sovra-cosigner`'s `api.rs`. The MPC handlers share one shape: `try_lock` the
op mutex, check the preconditions, dial the hub, drive the party runner under
the ttl. Up to an await a handler is a function; what the dial and the run come
to is an input, as is what the file system does on a read or a save.

* `vet_ok_iff` — vetting succeeds exactly on a well-formed transaction the
  policy permits, and yields its own signature hash.
* `sign_ok` — when the sign handler gets as far as the hub.
-/

namespace Sovra.Cosigner

open Lib Mpc State Ipc

-- ---------------------------------------------------------------------------
-- What a handler suspends on and what it answers
-- ---------------------------------------------------------------------------

/-- One `/sign` request in progress: the digests to sign and the signatures so
far, one for each digest already run. -/
structure SignJob where
  req : StartSignRequest
  share : KeyShare
  digests : List B256
  signatures : List SignParts
deriving DecidableEq

/-- The awaits of the three MPC handlers. -/
inductive Pending (C : Crypto)
  | dkgDial (ctx : PartyContext C)
  | dkgRun (ctx : PartyContext C)
  | refreshDial (req : StartRefreshRequest) (ctx : PartyContext C) (oldShare : KeyShare)
  | refreshRun (req : StartRefreshRequest) (ctx : PartyContext C) (oldShare : KeyShare)
  | signDial (job : SignJob) (ctx : PartyContext C) (digest : B256)
  | signRun (job : SignJob) (ctx : PartyContext C) (digest : B256)

/-- What a handler does to the outside when it starts an await. -/
inductive Effect
  | dial (inst : B256)
  | keygen (inst : B256)
  | refresh (inst : B256) (publicKey : PubkeySec1)
  | sign (inst : B256) (digest : B256) (subset : List UInt8)
deriving DecidableEq

/-- What a handler awaits is what it asks of the outside world. -/
def Pending.effect {C : Crypto} : Pending C → Effect
  | .dkgDial ctx | .refreshDial _ ctx _ | .signDial _ ctx _ => .dial ctx.inst
  | .dkgRun ctx => .keygen ctx.inst
  | .refreshRun req ctx _ => .refresh ctx.inst req.publicKey
  | .signRun job ctx digest => .sign ctx.inst digest job.req.participants

/-- The bodies of the successes. -/
inductive Reply
  | publicKey (info : PublicKeyInfo)
  | signatures (info : SignaturesInfo)
deriving DecidableEq

/-- What a handler answers. -/
abbrev Answer := Except CosignerError Reply

/-- A run under the ttl: `none` is its expiry. -/
abbrev RunEnd (α : Type) := Option (Except MpcError α)

/-- How an await ended. A ceremony that yields a shard also says how the save
that follows goes: the seal's nonce and the file step that fails, if any. -/
inductive Outcome
  | dialed (result : Except String Unit)
  | shard (result : RunEnd (KeyShare × PubkeySec1)) (nonce : Bytes)
      (stop : Option (Nat × StateError))
  | parts (result : RunEnd EcdsaParts)

/-- Read failures a handler's first turn meets. -/
structure Faults where
  metadata : Option StateError
  shard : Option StateError

section

variable (A : Eth.Alloy) {C : Crypto} (st : CosignerState C)

/-- Past the ttl and the runner's own error. -/
def runResult {α : Type} : RunEnd α → Except CosignerError α
  | none => .error .RunTimeout
  | some (.error e) => .error (.Mpc e)
  | some (.ok a) => .ok a

-- ---------------------------------------------------------------------------
-- The handlers up to their first await
-- ---------------------------------------------------------------------------

/-- The (n, t) assertions shared by `/dkg` and `/refresh`. -/
def assertScheme (n : Nat) (reqN reqT : UInt8) : Except CosignerError Unit :=
  ensure (reqN.toNat = n ∧ reqT = st.threshold) (.RosterMismatch ("orchestrator expects " ++
    toString reqT.toNat ++ "-of-" ++ toString reqN.toNat ++ ", this party is configured " ++
    toString st.threshold.toNat ++ "-of-" ++ toString n))

/-- `dkg`, up to the dial: the answer, or what it goes on to await. -/
def dkg (dir : ShardDir) (faults : Faults) (req : StartDkgRequest) :
    Except CosignerError (Reply ⊕ Pending C) :=
  match loadMetadata dir faults.metadata with
  | .ok _ => .error .ShardExists
  | .error (.NotFound _) => do
    let ctx ← st.ctx req.inst
    assertScheme st ctx.partyVks.length req.nParties req.threshold
    return .inr (.dkgDial ctx)
  | .error e => .error (.State e)

/-- `refresh`, up to the dial. -/
def refresh (dir : ShardDir) (faults : Faults) (req : StartRefreshRequest) :
    Except CosignerError (Reply ⊕ Pending C) := do
  let ctx ← st.ctx req.inst
  assertScheme st ctx.partyVks.length req.nParties req.threshold
  let oldShare ← st.loadShardOr .NoShard dir faults.shard
  return .inr (.refreshDial req ctx oldShare)

/-- A denial ends the request. -/
def enforce : Verdict → Except CosignerError Unit
  | .Deny reason => .error (.PolicyDenied reason)
  | .Allow => .ok ()

/-- Parse, don't trust: everything this party signs is derived here. -/
def vet (N : Network) (policy : Policy) (bytes : Bytes) : Except CosignerError (List B256) := do
  let tx ← (N.decodeUnsigned bytes).mapError fun e => .Undecodable e.display
  (N.validate tx).mapError fun e => .Undecodable e.display
  let digests := N.signingDigests tx
  enforce (policy.evaluate (N.policyView tx))
  return digests

/-- The head of the loop over the digests: dial for the next one, on its own
derived instance, or answer. -/
def signNext (job : SignJob) : Except CosignerError (Reply ⊕ Pending C) :=
  match job.digests[job.signatures.length]? with
  | none => .ok (.inl (.signatures ⟨job.signatures⟩))
  | some digest => do
    let runInstance := subInstance A.keccak256 job.req.inst (.ofNat job.signatures.length)
    let ctx ← st.ctx runInstance
    return .inr (.signDial job ctx digest)

/-- The subset checks of `/sign`, before anything is vetted. -/
def checkSubset (n : Nat) (subset : List UInt8) : Except CosignerError Unit := do
  ensure (subset.length = st.threshold.toNat ∧ subset.IsChain (· < ·) ∧ ∀ p ∈ subset, p.toNat < n)
    (.InvalidSubset (debugList subset ++ " is not " ++ toString st.threshold.toNat ++
      " strictly ascending party ids < " ++ toString n))
  ensure (st.partyId ∈ subset) (.InvalidSubset ("party " ++ toString st.partyId.toNat ++
    " is not in " ++ debugList subset))

/-- `sign`, up to the dial. -/
def sign (dir : ShardDir) (faults : Faults) (req : StartSignRequest) :
    Except CosignerError (Reply ⊕ Pending C) := do
  let roster ← st.rosterOrUnset
  checkSubset st roster.length req.participants
  let digests ←
    match req.network with
    | .Ethereum => vet (Eth.Ethereum A) st.policy req.unsignedTransaction
  let share ← st.loadShardOr .NoShard dir faults.shard
  signNext A st { req, share, digests, signatures := [] }

-- ---------------------------------------------------------------------------
-- The handlers after an await
-- ---------------------------------------------------------------------------

/-- The end of `dkg` and `refresh`: save the new shard, answer its key. -/
def saveResult (s : OpState) (result : RunEnd (KeyShare × PubkeySec1)) (nonce : Bytes)
    (stop : Option (Nat × StateError)) :
    OpState × Except CosignerError (Reply ⊕ Pending C) :=
  match runResult result with
  | .error e => (s, .error e)
  | .ok (share, publicKey) =>
    let (dir, saved) := s.dir.save ⟨activeSignerId, publicKey⟩
      (st.sealer.sealBytes nonce share.bytes) stop
    ({ s with dir }, do
      saved.mapError .State
      return .inl (.publicKey ⟨publicKey⟩))

/-- What follows a dial: the run, on the fresh connection. -/
def afterDial (result : Except String Unit) (run : Pending C) :
    Except CosignerError (Reply ⊕ Pending C) := do
  result.mapError .Relay
  return .inr run

/-- What follows one digest's run: its signature, and the next digest. -/
def afterSign (job : SignJob) (result : RunEnd EcdsaParts) :
    Except CosignerError (Reply ⊕ Pending C) := do
  let parts ← runResult result
  signNext A st { job with signatures := job.signatures ++ [.ofEcdsa parts] }

-- ---------------------------------------------------------------------------
-- The probes
-- ---------------------------------------------------------------------------

/-- `GET /pubkey`: the key of this party's shard. -/
def pubkey (publicKeyOf : KeyShare → Except MpcError PubkeySec1) (dir : ShardDir)
    (faults : Faults) : Answer := do
  let share ← st.loadShardOr .NoSigner dir faults.shard
  let publicKey ← (publicKeyOf share).mapError .Mpc
  return .publicKey ⟨publicKey⟩

/-- The answer to `GET /signer`, given the active key. -/
def signerOf : Except StateError (Option PubkeySec1) → Except CosignerError PublicKeyInfo
  | .ok (some publicKey) => .ok ⟨publicKey⟩
  | .ok none => .error .NoSigner
  | .error e => .error (.State e)

/-- `GET /signer`: the key of the stored metadata, if the shard is there too. -/
def signer (dir : ShardDir) (faults : Faults) : Answer :=
  Reply.publicKey <$> signerOf (loadActive st.sealer dir faults.metadata faults.shard)

end

-- ---------------------------------------------------------------------------
-- What the sign handler insists on
-- ---------------------------------------------------------------------------

/-- The signing subset a party takes part in. -/
structure SubsetOk {C : Crypto} (st : CosignerState C) (subset : List UInt8) : Prop where
  size : subset.length = st.threshold.toNat
  ascending : subset.Pairwise (· < ·)
  inRoster : ∃ roster, st.roster = some roster ∧ ∀ p ∈ subset, p.toNat < roster.length
  member : st.partyId ∈ subset

/-- The request's bytes are the well-formed transaction `tx`, the policy permits
it, and the subset is one this party takes part in. -/
structure Signable (A : Eth.Alloy) {C : Crypto} (st : CosignerState C) (req : StartSignRequest)
    (tx : Eth.EthTx) : Prop where
  decoded : ∃ prepared, Eth.decodeUnsigned A req.unsignedTransaction = .ok prepared ∧
    prepared.tx = tx
  valid : Eth.validateUnsigned tx = .ok ()
  subset : SubsetOk st req.participants
  permitted : st.policy.Permits tx

section

variable {A : Eth.Alloy} {C : Crypto} {st : CosignerState C}

/-- Only an allow passes. -/
@[simp] theorem enforce_eq_ok {verdict : Verdict} {u : Unit} :
    enforce verdict = .ok u ↔ verdict = .Allow := by
  rcases verdict with _ | reason <;> simp [enforce]

/-- **What `vet` lets through**: bytes that decode, to a transaction that is valid
and permitted; the digest is that transaction's. -/
theorem vet_ok_iff {policy : Policy} {bytes : Bytes} {digests : List B256} :
    vet (Eth.Ethereum A) policy bytes = .ok digests ↔
      ∃ tx, (∃ prepared, Eth.decodeUnsigned A bytes = .ok prepared ∧ prepared.tx = tx) ∧
        Eth.validateUnsigned tx = .ok () ∧ policy.Permits tx ∧
        digests = [tx.signatureHash A] := by
  simp only [vet, bind_eq_ok, mapError_eq_ok, enforce_eq_ok, pure_eq_ok]
  constructor
  · rintro ⟨tx, hDecode, u, hValid, v, hAllow, rfl⟩
    have hValid := Eth.Ethereum.validate_ok.mp hValid
    exact ⟨tx, Eth.Ethereum.decodeUnsigned_ok.mp hDecode, hValid,
      (Policy.evaluate_policyView hValid).mp hAllow, rfl⟩
  · rintro ⟨tx, hDecode, hValid, hPermits, rfl⟩
    exact ⟨tx, Eth.Ethereum.decodeUnsigned_ok.mpr hDecode, (), Eth.Ethereum.validate_ok.mpr hValid,
      (), (Policy.evaluate_policyView hValid).mpr hPermits, rfl⟩

/-- A subset that passes has every property the protocol needs. -/
theorem checkSubset_ok {roster : List C.VerifyingKey} {subset : List UInt8} {u : Unit}
    (hRoster : st.roster = some roster) (h : checkSubset st roster.length subset = .ok u) :
    SubsetOk st subset := by
  simp only [checkSubset, bind_eq_ok, ensure_eq_ok] at h
  obtain ⟨-, ⟨hSize, hChain, hBound⟩, hMember⟩ := h
  exact ⟨hSize, List.isChain_iff_pairwise.mp hChain, ⟨roster, hRoster, hBound⟩, hMember⟩

/-- The context is of the instance that was asked for. -/
theorem ctx_ok {inst : B256} {ctx : PartyContext C} (h : st.ctx inst = .ok ctx) :
    ctx.inst = inst := by
  simp only [CosignerState.ctx, bind_eq_ok, pure_eq_ok] at h
  obtain ⟨roster, -, rfl⟩ := h
  rfl

/-- A sign request that is not refused at once is signable, and its handler
waits for the hub on the instance of its one digest. -/
theorem sign_ok {dir : ShardDir} {faults : Faults} {req : StartSignRequest}
    {next : Reply ⊕ Pending C} (h : sign A st dir faults req = .ok next) :
    ∃ tx share ctx, Signable A st req tx ∧
      ctx.inst = subInstance A.keccak256 req.inst 0 ∧
      next = .inr (.signDial ⟨req, share, [tx.signatureHash A], []⟩ ctx
        (tx.signatureHash A)) := by
  simp only [sign, bind_eq_ok, rosterOrUnset_eq_ok] at h
  obtain ⟨roster, hRoster, u, hSubset, digests, hVet, share, -, hNext⟩ := h
  obtain ⟨tx, hDecoded, hValid, hPermits, rfl⟩ := vet_ok_iff.mp hVet
  simp only [signNext, List.length_nil, List.getElem?_cons_zero, bind_eq_ok, pure_eq_ok] at hNext
  obtain ⟨ctx, hCtx, rfl⟩ := hNext
  exact ⟨tx, share, ctx, ⟨hDecoded, hValid, checkSubset_ok hRoster hSubset, hPermits⟩,
    ctx_ok hCtx, rfl⟩

end

end Sovra.Cosigner
