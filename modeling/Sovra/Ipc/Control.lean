import Sovra.Types

/-!
# Sovra — the control plane's wire types

`sovra-ipc`'s `control.rs`: the bodies the orchestrator and a cosigner
exchange. `SignParts` mirrors `EcdsaParts`, bridged both ways. The field
`instance` is a Lean keyword and reads `inst`.
-/

namespace Sovra.Ipc

/-- `StartDkgRequest`. -/
structure StartDkgRequest where
  inst : B256
  nParties : UInt8
  threshold : UInt8
deriving DecidableEq

/-- `StartSignRequest`. -/
structure StartSignRequest where
  inst : B256
  network : NetworkId
  unsignedTransaction : Bytes
  /-- The signing subset: global party ids, strictly ascending. -/
  participants : List UInt8
deriving DecidableEq

/-- `StartRefreshRequest`. -/
structure StartRefreshRequest where
  inst : B256
  nParties : UInt8
  threshold : UInt8
  publicKey : PubkeySec1
deriving DecidableEq

/-- `PublicKeyInfo`. -/
structure PublicKeyInfo where
  publicKey : PubkeySec1
deriving DecidableEq

/-- `GET /roster`: the scheme this party believes it is in, the roster committed
to as a hash. -/
structure RosterInfo where
  n : UInt8
  threshold : UInt8
  rosterHash : B256
deriving DecidableEq

/-- `{:?}` of a `RosterInfo`. -/
def RosterInfo.debug (info : RosterInfo) : String :=
  "RosterInfo \x7b n: " ++ toString info.n.toNat ++ ", threshold: " ++
    toString info.threshold.toNat ++ ", roster_hash: " ++ hexEncode info.rosterHash.bytes ++ " \x7d"

/-- `SignParts`. -/
structure SignParts where
  r : U256
  s : U256
  yParity : Bool
deriving DecidableEq

/-- `SignaturesInfo`. -/
structure SignaturesInfo where
  signatures : List SignParts
deriving DecidableEq

/-- `From<EcdsaParts> for SignParts`. -/
def SignParts.ofEcdsa (p : EcdsaParts) : SignParts := ⟨p.r, p.s, p.yParity⟩

/-- `From<SignParts> for EcdsaParts`. -/
def SignParts.toEcdsa (p : SignParts) : EcdsaParts := ⟨p.r, p.s, p.yParity⟩

end Sovra.Ipc
