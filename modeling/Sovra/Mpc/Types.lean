import Sovra.Types

/-!
# Sovra — the MPC seam's error and operation types

`sovra-mpc`'s `types.rs` and the operation discriminants of `envelope.rs`.
-/

namespace Sovra.Mpc

/-- One cosigner's policy refusal, attributed to the party that vetoed. -/
structure Veto where
  party : UInt8
  reason : String
deriving DecidableEq

/-- `MpcError`. -/
inductive MpcError
  | dkg (msg : String)
  | sign (msg : String)
  | deserialize
  | transport (msg : String)
  | partyMismatch (msg : String)
  | envelopeAuth (msg : String)
  | rejected (vetoes : List Veto)
deriving DecidableEq

/-- `Display` of an `MpcError`. -/
def MpcError.display : MpcError → String
  | .dkg msg => "distributed key generation failed: " ++ msg
  | .sign msg => "distributed signing failed: " ++ msg
  | .deserialize => "could not deserialize a key share"
  | .transport msg => "cosigner transport failed: " ++ msg
  | .partyMismatch msg => "cosigners disagreed: " ++ msg
  | .envelopeAuth msg => "envelope authentication failed: " ++ msg
  | .rejected vetoes => "rejected by cosigner policy: " ++ "; ".intercalate
      (vetoes.map fun v => "party " ++ toString v.party.toNat ++ ": " ++ v.reason)

/-- `u32::to_be_bytes`. -/
def u32Be (i : UInt32) : Bytes :=
  [(i >>> 24).toUInt8, (i >>> 16).toUInt8, (i >>> 8).toUInt8, i.toUInt8]

/-- The ceremony instance for one digest of a multi-digest sign. -/
def subInstance (keccak256 : Bytes → B256) (inst : B256) (digestIndex : UInt32) : B256 :=
  keccak256 (inst.bytes ++ u32Be digestIndex)

/-- Protocol-operation discriminants for `Envelope::op`. -/
def Op.dkg : UInt8 := 0
/-- The byte of a signing. -/
def Op.sign : UInt8 := 1
/-- The byte of a refresh. -/
def Op.refresh : UInt8 := 2

end Sovra.Mpc
