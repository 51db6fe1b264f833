import Sovra.Network
import Sovra.Eth.Finalize

/-!
# Sovra — Ethereum's implementation of the network seam

`sovra-eth`'s `network.rs`: delegation to decode, validate, signature hash and
finalize. The only logic is the error translation into the four buckets of
`TxError`, and the shape check that a transaction takes one signature.

* `Ethereum.decodeUnsigned_ok`, `Ethereum.validate_ok`, `Ethereum.finalize_ok` —
  what a success of each stage says about `sovra-eth`'s own functions.
-/

namespace Sovra.Eth

open Lib

variable (A : Alloy)

namespace Ethereum

/-- `Network::decode_unsigned`. -/
def decodeUnsigned (bytes : Bytes) : Except TxError EthTx :=
  ((Eth.decodeUnsigned A bytes).map PreparedTx.tx).mapError fun e => .Decode e.display

/-- `Network::validate`. -/
def validate (tx : EthTx) : Except TxError Unit :=
  (validateUnsigned tx).mapError fun e => .Validate e.display

/-- `Network::signing_digests`: an Ethereum transaction has one. -/
def signingDigests (tx : EthTx) : List B256 := [tx.signatureHash A]

/-- The chain id is present past `validate`; the 0 fallback only ever denies. -/
def policyView (tx : EthTx) : TxView :=
  .Ethereum { chainId := tx.chainId.getD 0, to_ := tx.to, value := tx.value, data := tx.input }

/-- `address_from_sec1` under this boundary's error. -/
def addressFromSec1 (pk : PubkeySec1) : Except TxError Address :=
  match A.addressOfPubkey pk with
  | none => .error (.Pubkey pubkeyErrorDisplay)
  | some address => .ok address

/-- `Network::finalize`: one signature, by the key that is given. -/
def finalize (tx : EthTx) (sigs : List EcdsaParts) (signer : PubkeySec1) :
    Except TxError SignedArtifacts :=
  match sigs with
  | [sig] => do
    let expectedFrom ← addressFromSec1 A signer
    let signingHash := tx.signatureHash A
    let signed ← (Eth.finalize A ⟨tx, signingHash⟩ sig.r sig.s sig.yParity expectedFrom).mapError
      fun e => .Finalize (e.display A)
    return { raw := signed.raw, txid := signed.txHash }
  | _ => .error (.Finalize ("ethereum signs exactly one digest, got " ++ toString sigs.length ++
      " signatures"))

/-- `{:#x}` of the address: lowercase hex. -/
def deriveAddress (pk : PubkeySec1) : Except TxError String := do
  let address ← addressFromSec1 A pk
  return hexEncode address.bytes

end Ethereum

/-- `impl Network for Ethereum`. -/
def Ethereum : Network where
  Unsigned := EthTx
  decodeUnsigned := Ethereum.decodeUnsigned A
  validate := Ethereum.validate
  signingDigests := Ethereum.signingDigests A
  policyView := Ethereum.policyView
  finalize := Ethereum.finalize A
  deriveAddress := Ethereum.deriveAddress A

variable {A}

namespace Ethereum

/-- The trait's decoder is the crate's, without the hash. -/
theorem decodeUnsigned_ok {bytes : Bytes} {tx : EthTx} :
    Ethereum.decodeUnsigned A bytes = .ok tx ↔
      ∃ p, Eth.decodeUnsigned A bytes = .ok p ∧ p.tx = tx := by
  rw [Ethereum.decodeUnsigned, mapError_eq_ok]
  exact map_eq_ok

/-- The trait's validation is the crate's. -/
theorem validate_ok {tx : EthTx} : validate tx = .ok () ↔ validateUnsigned tx = .ok () := by
  rw [validate, mapError_eq_ok]

/-- An address is that of a key that parses. -/
theorem addressFromSec1_ok {pk : PubkeySec1} {address : Address} :
    addressFromSec1 A pk = .ok address ↔ A.addressOfPubkey pk = some address := by
  unfold addressFromSec1
  split <;> simp [*]

/-- A finalized transaction carries one signature, which recovers to the
signer's address, and its bytes are the signed form of the transaction. -/
theorem finalize_ok {tx : EthTx} {sigs : List EcdsaParts} {signer : PubkeySec1}
    {art : SignedArtifacts} (h : Ethereum.finalize A tx sigs signer = .ok art) :
    ∃ sig address, sigs = [sig] ∧ A.addressOfPubkey signer = some address ∧
      A.recoverAddressFromPrehash ⟨sig.r, sig.s, sig.yParity⟩ (tx.signatureHash A) = some address ∧
      art.raw = tx.encodedSigned A ⟨sig.r, sig.s, sig.yParity⟩ ∧
      art.txid = tx.signedHash A ⟨sig.r, sig.s, sig.yParity⟩ := by
  unfold Ethereum.finalize at h
  split at h
  · rename_i sig
    simp only [bind_eq_ok, mapError_eq_ok, pure_eq_ok] at h
    obtain ⟨address, hAddress, signed, hSigned, rfl⟩ := h
    obtain ⟨hRecover, rfl⟩ := Eth.finalize_ok hSigned
    exact ⟨sig, address, rfl, addressFromSec1_ok.mp hAddress, hRecover, rfl, rfl⟩
  · cases h

end Ethereum

end Sovra.Eth
