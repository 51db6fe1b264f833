import Sovra.Eth.Network
import Sovra.Mpc.Types

/-!
# Sovra — the public API's state, responses and errors

`sovra-api`'s `state.rs`, the responses of `/v1/dkg` and `/v1/sign`, and the
part of `errors.rs` these handlers reach. The error body carries structure in
one case: a policy 403 attributes every veto to its party.

* `intoResponse_forbidden` — a 403 is exactly a rejection, with its vetoes.
-/

namespace Sovra.Api

open Mpc

/-- `SignResponse`: what is cached, and served. -/
structure SignResponse where
  network : NetworkId
  signedTransaction : Bytes
  signatures : List EcdsaParts
  signerAddress : String
  txDigest : B256
deriving DecidableEq

/-- `DkgResponse`: the key, and its address in each network. -/
structure DkgResponse where
  publicKey : PubkeySec1
  addresses : List (NetworkId × String)
deriving DecidableEq

/-- `SignerCell`: the active key, the idempotency cache and the op lock. -/
structure SignerCell where
  active : Option PubkeySec1
  signed : B256 → Option SignResponse
  op : Bool

/-- `ApiError`, less the variants of `/v1/prepare` and `/v1/broadcast`. -/
inductive ApiError
  | Tx (e : TxError)
  | DkgAlreadyInitialized
  | DkgNotInitialized
  | DkgNotFound
  | SigningInProgress
  | Mpc (e : MpcError)
  | Pubkey
deriving DecidableEq

/-- What `thiserror` renders. -/
def ApiError.display : ApiError → String
  | .Tx e => e.display
  | .DkgAlreadyInitialized => "dkg already initialized"
  | .DkgNotInitialized => "dkg not initialized"
  | .DkgNotFound => "no active dkg generation"
  | .SigningInProgress => "another signing operation is in progress"
  | .Mpc e => e.display
  | .Pubkey => Eth.pubkeyErrorDisplay

/-- The body of an error response. -/
structure ErrorBody where
  error : String
  vetoes : Option (List Veto)
deriving DecidableEq

/-- `IntoResponse`: the status and what a client may see. -/
def ApiError.intoResponse : ApiError → Nat × ErrorBody
  | .Tx (.Decode msg) => (400, ⟨(TxError.Decode msg).display, none⟩)
  | .Tx (.Validate msg) => (400, ⟨(TxError.Validate msg).display, none⟩)
  | .Tx (.Finalize _) => (500, ⟨"signature verification failed", none⟩)
  | .Tx (.Pubkey _) => (500, ⟨"active public key is invalid", none⟩)
  | .DkgAlreadyInitialized => (409, ⟨ApiError.DkgAlreadyInitialized.display, none⟩)
  | .DkgNotInitialized => (409, ⟨ApiError.DkgNotInitialized.display, none⟩)
  | .SigningInProgress => (409, ⟨ApiError.SigningInProgress.display, none⟩)
  | .DkgNotFound => (404, ⟨ApiError.DkgNotFound.display, none⟩)
  | .Mpc .deserialize => (500, ⟨"internal storage error", none⟩)
  | .Mpc (.partyMismatch _) => (500, ⟨"cosigner cross-check failed", none⟩)
  | .Mpc (.rejected vetoes) => (403, ⟨"policy denied", some vetoes⟩)
  | .Mpc _ => (502, ⟨"mpc protocol failed", none⟩)
  | .Pubkey => (500, ⟨"active public key is invalid", none⟩)

/-- 403 is for a veto, and says who vetoed. -/
theorem intoResponse_forbidden {e : ApiError} :
    e.intoResponse.1 = 403 ↔ ∃ vetoes, e = .Mpc (.rejected vetoes) ∧
      e.intoResponse.2 = ⟨"policy denied", some vetoes⟩ := by
  unfold ApiError.intoResponse
  split <;> simp_all

variable (A : Eth.Alloy)

/-- `DkgResponse::new`. -/
def DkgResponse.new (publicKey : PubkeySec1) : Except ApiError DkgResponse :=
  match A.addressOfPubkey publicKey with
  | none => .error .Pubkey
  | some address => .ok { publicKey, addresses := [(.Ethereum, hexEncode address.bytes)] }

end Sovra.Api
