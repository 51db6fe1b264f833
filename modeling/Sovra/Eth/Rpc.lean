import Sovra.Eth.Encoding
import Sovra.Eth.Prepare

/-!
# Sovra — the RPC shell

What `sovra-eth` does with a node: `enrich` and `prepare_from_rpc`, which ask for
the chain id, the nonce, the fees and the gas limit of an unsigned transaction,
and `broadcast_via_rpc`, which submits a signed one and waits for its receipt.
The node's answers are inputs. A broadcast goes from one await to the next, so
that calls can interleave; the clock's readings are inputs as well, so no timeout
and no poll interval is singled out.

* `broadcastStep_rejected`, `broadcastStep_confirmed` — where these two ends of a
  broadcast come from.
-/

namespace Sovra.Eth

open Lib

/-- `RpcError`: what the node answered, or that it did not. -/
inductive RpcError
  | ErrorResp (payload : String)
  | Transport (detail : String)
deriving DecidableEq

-- ---------------------------------------------------------------------------
-- Preparing
-- ---------------------------------------------------------------------------

/-- `EthTxType`. -/
inductive EthTxType
  | Legacy
  | Eip2930
  | Eip1559
deriving DecidableEq

/-- `TxRequest`; no recipient means contract creation. -/
structure TxRequest where
  to_ : Option Address
  value : U256
  data : Bytes
  txType : EthTxType
  accessList : AccessList
deriving DecidableEq

/-- `Eip1559Estimation`. -/
structure Fees where
  maxFeePerGas : U128
  maxPriorityFeePerGas : U128

/-- The `TransactionRequest` whose gas is estimated. -/
structure TransactionRequest where
  sender : Address
  kind : TxKind
  value : U256
  input : Bytes
  accessList : Option AccessList

/-- What the node answers to the calls of `enrich`. -/
structure EnrichRpc where
  getChainId : Except RpcError UInt64
  getTransactionCount : Address → Except RpcError UInt64
  getGasPrice : Except RpcError U128
  estimateEip1559Fees : Except RpcError Fees
  estimateGas : TransactionRequest → Except RpcError UInt64

/-- The fees `enrich` asks for, by type. -/
def enrichParams (req : TxRequest) (provider : EnrichRpc) : Except RpcError TxParams :=
  match req.txType with
  | .Legacy => do return .Legacy (← provider.getGasPrice)
  | .Eip2930 => do return .Eip2930 (← provider.getGasPrice) req.accessList
  | .Eip1559 => do
    let fees ← provider.estimateEip1559Fees
    return .Eip1559 fees.maxFeePerGas fees.maxPriorityFeePerGas req.accessList

/-- `enrich`: the first call that fails ends it. -/
def enrich (req : TxRequest) (sender : Address) (provider : EnrichRpc) :
    Except RpcError TxIntent := do
  let kind := match req.to_ with
    | none => TxKind.Create
    | some address => .Call address
  let chainId ← provider.getChainId
  let nonce ← provider.getTransactionCount sender
  let params ← enrichParams req provider
  let gasLimit ← provider.estimateGas
    { sender, kind, value := req.value, input := req.data
      accessList := if req.accessList = [] then none else some req.accessList }
  return { chainId, nonce, kind, value := req.value, gasLimit, data := req.data, params }

/-- `PrepareError` with the two variants that come before and out of `enrich`. -/
inductive RpcPrepareError
  | Prepare (e : PrepareError)
  | AccessListUnsupported
  | Enrich (e : RpcError)
deriving DecidableEq

/-- The texts a caller gets to see: those of a 400. -/
def RpcPrepareError.display : RpcPrepareError → String
  | .Prepare e => e.display
  | .AccessListUnsupported => "legacy transactions do not support access lists"
  | .Enrich _ => "failed to enrich transaction from RPC"

/-- `prepare_from_rpc`. -/
def prepareFromRpc (A : Alloy) (req : TxRequest) (sender : Address) (provider : EnrichRpc) :
    Except RpcPrepareError PreparedTx := do
  ensure (¬ (req.txType = .Legacy ∧ req.accessList ≠ [])) .AccessListUnsupported
  let intent ← (enrich req sender provider).mapError .Enrich
  (prepare A intent).mapError .Prepare

-- ---------------------------------------------------------------------------
-- Broadcasting
-- ---------------------------------------------------------------------------

/-- `TransactionReceipt`: the hash it is for, and what the API reports of it. -/
structure Receipt where
  transactionHash : B256
  blockNumber : Option UInt64
  gasUsed : UInt64
  status : Bool
deriving DecidableEq

/-- `BroadcastOutcome`. -/
inductive BroadcastOutcome
  | Confirmed (receipt : Receipt)
  | Pending
deriving DecidableEq

/-- `BroadcastError`; the field `local` is a Lean keyword. -/
inductive BroadcastError
  | Rejected (reason : String)
  | Rpc (e : RpcError)
  | HashMismatch (computed node : B256)
deriving DecidableEq

/-- What a call awaits: the submission, the receipt that excuses a rejection, a
receipt in the loop, the end of a sleep. -/
inductive Broadcasting
  | send
  | recheck (payload : String)
  | poll (deadline : Nat)
  | sleep (deadline : Nat)
deriving DecidableEq

/-- What an await ends in, and the clock where the source reads it next. -/
inductive RpcOutcome
  | sent (result : Except RpcError B256) (now : Nat)
  | receipt (result : Except RpcError (Option Receipt)) (now : Nat)
  | woken

/-- `broadcast_via_rpc` from one await to the next, or to its end. -/
def broadcastStep (expectedHash : B256) (timeout : Nat) (at_ : Broadcasting) (out : RpcOutcome) :
    Option (Except BroadcastError BroadcastOutcome ⊕ Broadcasting) :=
  match at_, out with
  | .send, .sent (.ok nodeHash) now => some <|
    if nodeHash ≠ expectedHash then .inl (.error (.HashMismatch expectedHash nodeHash))
    else .inr (.poll (now + timeout))
  | .send, .sent (.error (.ErrorResp payload)) _ => some (.inr (.recheck payload))
  | .send, .sent (.error other) _ => some (.inl (.error (.Rpc other)))
  | .recheck _, .receipt (.ok (some receipt)) _ => some (.inl (.ok (.Confirmed receipt)))
  | .recheck payload, .receipt (.ok none) _ => some (.inl (.error (.Rejected payload)))
  | .recheck _, .receipt (.error e) _ => some (.inl (.error (.Rpc e)))
  | .poll _, .receipt (.ok (some receipt)) _ => some (.inl (.ok (.Confirmed receipt)))
  | .poll deadline, .receipt (.ok none) now => some <|
    if deadline ≤ now then .inl (.ok .Pending) else .inr (.sleep deadline)
  | .poll _, .receipt (.error e) _ => some (.inl (.error (.Rpc e)))
  | .sleep deadline, .woken => some (.inr (.poll deadline))
  | _, _ => none

variable {expectedHash : B256} {timeout : Nat} {at_ : Broadcasting} {out : RpcOutcome}

/-- A rejection is an error response to the submission, with no receipt after it. -/
theorem broadcastStep_rejected {reason : String}
    (h : broadcastStep expectedHash timeout at_ out = some (.inl (.error (.Rejected reason)))) :
    at_ = .recheck reason ∧ ∃ now, out = .receipt (.ok none) now := by
  unfold broadcastStep at h
  split at h <;> try split at h
  all_goals simp_all

/-- A recheck is for the node's error response, and carries its text. -/
theorem broadcastStep_recheck {payload : String}
    (h : broadcastStep expectedHash timeout at_ out = some (.inr (.recheck payload))) :
    ∃ now, out = .sent (.error (.ErrorResp payload)) now := by
  unfold broadcastStep at h
  split at h <;> try split at h
  all_goals simp_all

/-- A confirmation carries the receipt the node answered. -/
theorem broadcastStep_confirmed {receipt : Receipt}
    (h : broadcastStep expectedHash timeout at_ out = some (.inl (.ok (.Confirmed receipt)))) :
    ∃ now, out = .receipt (.ok (some receipt)) now := by
  unfold broadcastStep at h
  split at h <;> try split at h
  all_goals simp_all

end Sovra.Eth
