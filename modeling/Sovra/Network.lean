import Sovra.Types

/-!
# Sovra — the network seam

`sovra-network`: one structure for "a chain this service can sign for", and
the tagged data that crosses it. Everything is derived from the raw unsigned
bytes; the seam cannot express "trust this digest".
-/

namespace Sovra

/-- Ethereum's policy view, shared by all supported transaction types. -/
structure EthTxView where
  chainId : UInt64
  /-- `None` means contract creation. -/
  to_ : Option Address
  value : U256
  data : Bytes
deriving DecidableEq

/-- The policy-relevant slice of a decoded transaction, tagged by network. -/
inductive TxView
  | Ethereum (tx : EthTxView)
deriving DecidableEq

/-- Pipeline failures, bucketed by whose fault they are. -/
inductive TxError
  | Decode (msg : String)
  | Validate (msg : String)
  | Finalize (msg : String)
  | Pubkey (msg : String)
deriving DecidableEq

/-- Its `Display`. -/
def TxError.display : TxError → String
  | .Decode msg => "undecodable transaction: " ++ msg
  | .Validate msg => "invalid transaction: " ++ msg
  | .Finalize msg => "finalize failed: " ++ msg
  | .Pubkey msg => "bad public key: " ++ msg

/-- Broadcast-ready output of `Network.finalize`. -/
structure SignedArtifacts where
  raw : Bytes
  txid : B256
deriving DecidableEq

/-- One chain's signing pipeline: the trait `Network` as a record. -/
structure Network where
  Unsigned : Type
  decodeUnsigned : Bytes → Except TxError Unsigned
  validate : Unsigned → Except TxError Unit
  /-- The digests to sign, in canonical order. -/
  signingDigests : Unsigned → List B256
  policyView : Unsigned → TxView
  finalize : Unsigned → List EcdsaParts → PubkeySec1 → Except TxError SignedArtifacts
  deriveAddress : PubkeySec1 → Except TxError String

end Sovra
