import Sovra.Api.Types
import Sovra.Eth.Rpc
import Sovra.Lib.Service

/-!
# Sovra — the handlers of /v1/prepare and /v1/broadcast

The two handlers of `api.rs` that talk to the RPC node. Both read the active key
first, neither takes the op lock. `RelayError` is `ApiError` with the variants
they add.

* `relay_frame` — no turn of theirs writes the cell.
-/

namespace Sovra.Api

open Lib Eth

/-- `PrepareRequest`. -/
structure PrepareRequest where
  network : NetworkId
  to_ : Option Address
  value : U256
  data : Bytes
  txType : EthTxType
  accessList : AccessList

/-- `PrepareResponse`. -/
structure PrepareResponse where
  sender : Address
  unsignedTransaction : Bytes
  txDigest : B256
deriving DecidableEq

/-- `BroadcastRequest`. -/
structure BroadcastRequest where
  network : NetworkId
  signedTransaction : Bytes

/-- `BroadcastStatus`. -/
inductive BroadcastStatus
  | Confirmed
  | Pending
deriving DecidableEq

/-- `BroadcastResponse`. -/
structure BroadcastResponse where
  txHash : B256
  status : BroadcastStatus
  blockNumber : Option UInt64
  gasUsed : Option UInt64
  executionSuccess : Option Bool
deriving DecidableEq

/-- The errors of both handlers, each with what it wraps. -/
inductive RelayError
  | Signer (e : ApiError)
  | Prepare (e : RpcPrepareError)
  | InvalidTxBytes (e : DecodeError)
  | Broadcast (e : BroadcastError)
  | BroadcastSignerMismatch (recovered active : Address)
deriving DecidableEq

/-- `IntoResponse` of the added variants. -/
def RelayError.intoResponse (A : Alloy) : RelayError → Nat × ErrorBody
  | .Signer e => e.intoResponse
  | .Prepare (.Enrich _) => (502, ⟨"rpc enrichment failed", none⟩)
  | .Prepare e => (400, ⟨e.display, none⟩)
  | .InvalidTxBytes e => (400, ⟨"invalid transaction bytes: " ++ e.display, none⟩)
  | .Broadcast (.Rejected reason) => (400, ⟨"node rejected transaction: " ++ reason, none⟩)
  | .Broadcast (.Rpc _) => (502, ⟨"rpc broadcast failed", none⟩)
  | .Broadcast (.HashMismatch _ _) => (500, ⟨"broadcast verification failed", none⟩)
  | .BroadcastSignerMismatch recovered active =>
    (400, ⟨"signed transaction recovers to " ++ A.displayAddress recovered ++
      ", active signer is " ++ A.displayAddress active, none⟩)

/-- A request to one of the two. -/
inductive RelayRequest
  | prepare (body : PrepareRequest)
  | broadcast (body : BroadcastRequest)

/-- A reply with its status: 200, or the 202 of a pending broadcast. -/
inductive RelayReply
  | prepare (response : PrepareResponse)
  | broadcast (status : Nat) (response : BroadcastResponse)
deriving DecidableEq

/-- A handler's result. -/
abbrev RelayAnswer := Except RelayError RelayReply

/-- What a handler awaits: the answers to `enrich`, or the next of a broadcast. -/
inductive RelayPending
  | enrich (req : TxRequest) (sender : Address)
  | broadcast (decoded : SignedTx) (at_ : Broadcasting)

/-- What the node brings. -/
inductive RelayOutcome
  | enriched (provider : EnrichRpc)
  | rpc (out : RpcOutcome)

/-- One turn over the cell, which both only read. -/
abbrev RelayTurn := Turn SignerCell RelayPending RelayAnswer Empty

section

variable (A : Alloy) (timeout : Nat)

/-- The active key's address: every request starts with it. -/
def activeAddress (s : SignerCell) : Except RelayError Address :=
  match s.active with
  | none => .error (.Signer .DkgNotInitialized)
  | some active =>
    match A.addressOfPubkey active with
    | none => .error (.Signer .Pubkey)
    | some address => .ok address

/-- What is asked of `enrich`, taken from the body. -/
def PrepareRequest.txRequest (body : PrepareRequest) : TxRequest where
  to_ := body.to_
  value := body.value
  data := body.data
  txType := body.txType
  accessList := body.accessList

/-- `prepare` past its await: the enriched transaction, encoded, with its digest. -/
def prepareReply (req : TxRequest) (sender : Address) (provider : EnrichRpc) : RelayAnswer := do
  let prepared ← (prepareFromRpc A req sender provider).mapError .Prepare
  return .prepare { sender, unsignedTransaction := encodeUnsigned A prepared.tx
                    txDigest := prepared.signingHash }

/-- `broadcast` up to the node: there is a key, the bytes decode, and the signer
they recover to is the active one. -/
def broadcastGuard (s : SignerCell) (body : BroadcastRequest) : Except RelayError SignedTx := do
  ensure (s.active.isSome = true) (.Signer .DkgNotInitialized)
  let decoded ← (decodeSigned A body.signedTransaction).mapError .InvalidTxBytes
  let active ← activeAddress A s
  ensure (decoded.sender = active) (.BroadcastSignerMismatch decoded.sender active)
  return decoded

/-- The response to an outcome, or the error. -/
def broadcastReply (txHash : B256) : Except BroadcastError BroadcastOutcome → RelayAnswer
  | .ok (.Confirmed receipt) => .ok (.broadcast 200
      { txHash, status := .Confirmed, blockNumber := receipt.blockNumber
        gasUsed := some receipt.gasUsed, executionSuccess := some receipt.status })
  | .ok .Pending => .ok (.broadcast 202
      { txHash, status := .Pending, blockNumber := none, gasUsed := none
        executionSuccess := none })
  | .error e => .error (.Broadcast e)

/-- The first turn: the sender's address for `prepare`, the gate for `broadcast`. -/
def relayEnter (s : SignerCell) (req : RelayRequest) (_ : Unit) : RelayTurn :=
  match req with
  | .prepare body =>
    match activeAddress A s with
    | .error e => .answer s (.error e)
    | .ok sender => ⟨s, [], .inr (.enrich body.txRequest sender)⟩
  | .broadcast body =>
    match broadcastGuard A s body with
    | .error e => .answer s (.error e)
    | .ok decoded => ⟨s, [], .inr (.broadcast decoded .send)⟩

/-- What the node answered: the reply, or the next call. -/
def relayResume (s : SignerCell) (p : RelayPending) (out : RelayOutcome) : Option RelayTurn :=
  match p, out with
  | .enrich req sender, .enriched provider => some (.answer s (prepareReply A req sender provider))
  | .broadcast decoded at_, .rpc out =>
    (broadcastStep decoded.txHash timeout at_ out).map fun
      | .inl result => .answer s (broadcastReply decoded.txHash result)
      | .inr at_ => ⟨s, [], .inr (.broadcast decoded at_)⟩
  | _, _ => none

/-- Both handlers as a service. Neither holds anything that a drop would free. -/
def relay : Service SignerCell RelayRequest Unit RelayPending RelayOutcome RelayAnswer Empty where
  enter := relayEnter A
  resume := relayResume A timeout
  drop s _ := s

end

variable {A : Alloy} {timeout : Nat}

/-- Neither handler writes. -/
theorem relay_frame :
    (∀ s req, (relayEnter A s req ()).shared = s) ∧
    ∀ {s p out t}, relayResume A timeout s p out = some t → t.shared = s := by
  constructor
  · intro s req
    unfold relayEnter
    split <;> split <;> rfl
  · intro s p out t h
    unfold relayResume at h
    split at h
    · rw [← Option.some.inj h]
      rfl
    · obtain ⟨next, -, rfl⟩ := Option.map_eq_some_iff.mp h
      rcases next with result | at_ <;> rfl
    · cases h

end Sovra.Api
