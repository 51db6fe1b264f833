import Sovra.Types

/-!
# Sovra — the transaction pipeline's types

`sovra-eth`'s `types.rs`: the closed union of transaction types this service
signs, the stages a transaction goes through, and the error of each step with
its text. The alloy crates are third-party code and appear as the parameter
`Alloy`: their RLP decoders and encoders, signing preimages and hashes, signed
forms, and signature recovery. A transaction's field `to` is a Lean token and reads
`kind`, as its accessor does.
-/

namespace Sovra.Eth

-- ---------------------------------------------------------------------------
-- Transactions
-- ---------------------------------------------------------------------------

/-- `TxKind`. -/
inductive TxKind
  | Create
  | Call (address : Address)
deriving DecidableEq

/-- `TxKind::to`. -/
def TxKind.to : TxKind → Option Address
  | .Create => none
  | .Call address => some address

/-- `AccessListItem`. -/
structure AccessListItem where
  address : Address
  storageKeys : List B256
deriving DecidableEq

/-- `AccessList`. -/
abbrev AccessList := List AccessListItem

/-- `TxLegacy`. -/
structure TxLegacy where
  chainId : Option UInt64
  nonce : UInt64
  gasPrice : U128
  gasLimit : UInt64
  kind : TxKind
  value : U256
  input : Bytes
deriving DecidableEq

/-- `TxEip2930`. -/
structure TxEip2930 where
  chainId : UInt64
  nonce : UInt64
  gasPrice : U128
  gasLimit : UInt64
  kind : TxKind
  value : U256
  accessList : AccessList
  input : Bytes
deriving DecidableEq

/-- `TxEip1559`. -/
structure TxEip1559 where
  chainId : UInt64
  nonce : UInt64
  gasLimit : UInt64
  maxFeePerGas : U128
  maxPriorityFeePerGas : U128
  kind : TxKind
  value : U256
  accessList : AccessList
  input : Bytes
deriving DecidableEq

/-- The transaction types this service will sign: a deliberately closed set. -/
inductive EthTx
  | Legacy (tx : TxLegacy)
  | Eip2930 (tx : TxEip2930)
  | Eip1559 (tx : TxEip1559)
deriving DecidableEq

/-- `None` only for a pre-EIP-155 legacy transaction. -/
def EthTx.chainId : EthTx → Option UInt64
  | .Legacy tx => tx.chainId
  | .Eip2930 tx => some tx.chainId
  | .Eip1559 tx => some tx.chainId

/-- The gas limit, whatever the type. -/
def EthTx.gasLimit : EthTx → UInt64
  | .Legacy tx => tx.gasLimit
  | .Eip2930 tx => tx.gasLimit
  | .Eip1559 tx => tx.gasLimit

/-- `None` means contract creation. -/
def EthTx.to : EthTx → Option Address
  | .Legacy tx => tx.kind.to
  | .Eip2930 tx => tx.kind.to
  | .Eip1559 tx => tx.kind.to

/-- The value in wei. -/
def EthTx.value : EthTx → U256
  | .Legacy tx => tx.value
  | .Eip2930 tx => tx.value
  | .Eip1559 tx => tx.value

/-- The calldata. -/
def EthTx.input : EthTx → Bytes
  | .Legacy tx => tx.input
  | .Eip2930 tx => tx.input
  | .Eip1559 tx => tx.input

/-- The per-type slice of an intent: the variant selects the type. -/
inductive TxParams
  | Legacy (gasPrice : U128)
  | Eip2930 (gasPrice : U128) (accessList : AccessList)
  | Eip1559 (maxFeePerGas maxPriorityFeePerGas : U128) (accessList : AccessList)
deriving DecidableEq

/-- `TxIntent`: what a caller wants sent, with all that the node adds. -/
structure TxIntent where
  chainId : UInt64
  nonce : UInt64
  kind : TxKind
  value : U256
  gasLimit : UInt64
  data : Bytes
  params : TxParams
deriving DecidableEq

/-- `From<TxIntent> for EthTx`. -/
def EthTx.ofIntent (intent : TxIntent) : EthTx :=
  match intent.params with
  | .Legacy gasPrice => .Legacy
      { chainId := some intent.chainId, nonce := intent.nonce, gasPrice
        gasLimit := intent.gasLimit, kind := intent.kind, value := intent.value
        input := intent.data }
  | .Eip2930 gasPrice accessList => .Eip2930
      { chainId := intent.chainId, nonce := intent.nonce, gasPrice
        gasLimit := intent.gasLimit, kind := intent.kind, value := intent.value, accessList
        input := intent.data }
  | .Eip1559 maxFeePerGas maxPriorityFeePerGas accessList => .Eip1559
      { chainId := intent.chainId, nonce := intent.nonce, gasLimit := intent.gasLimit
        maxFeePerGas, maxPriorityFeePerGas, kind := intent.kind, value := intent.value
        accessList, input := intent.data }

/-- `PreparedTx`: a transaction and the digest that is signed for it. -/
structure PreparedTx where
  tx : EthTx
  signingHash : B256
deriving DecidableEq

/-- `alloy_primitives::Signature`. -/
structure Signature where
  r : U256
  s : U256
  v : Bool
deriving DecidableEq

/-- `alloy_consensus::Signed<T>`: its hash is a function of the two. -/
structure Signed (T : Type) where
  tx : T
  signature : Signature
deriving DecidableEq

/-- `SignedTx`; the field `from` is a Lean keyword. -/
structure SignedTx where
  raw : Bytes
  txHash : B256
  sender : Address
deriving DecidableEq

-- ---------------------------------------------------------------------------
-- Errors and their texts
-- ---------------------------------------------------------------------------

/-- `alloy_rlp::Error`. -/
inductive RlpError
  | Overflow
  | LeadingZero
  | InputTooShort
  | NonCanonicalSingleByte
  | NonCanonicalSize
  | UnexpectedLength
  | UnexpectedString
  | UnexpectedList
  | ListLengthMismatch (expected got : Nat)
  | Custom (msg : String)
deriving DecidableEq

/-- `DecodeError`. -/
inductive DecodeError
  | Empty
  | UnsupportedType (first : UInt8)
  | Rlp (e : RlpError)
  | TrailingBytes
  | Recovery
deriving DecidableEq

/-- Its `Display`. -/
def DecodeError.display : DecodeError → String
  | .Empty => "empty transaction bytes"
  | .UnsupportedType first => "unsupported transaction type: " ++ hexByte first ++
      ", expected legacy (RLP list), 0x01 (EIP-2930) or 0x02 (EIP-1559)"
  | .Rlp _ => "invalid rlp encoding"
  | .TrailingBytes => "trailing bytes after transaction"
  | .Recovery => "could not recover signer from signed transaction"

/-- `PrepareError`, less the RPC variants that `prepare` cannot return. -/
inductive PrepareError
  | ZeroChainId
  | MissingChainId
  | MaxPriorityFeeExceedsMaxFee
  | ZeroGasLimit
deriving DecidableEq

/-- Its `Display`. -/
def PrepareError.display : PrepareError → String
  | .ZeroChainId => "chain id must not be zero"
  | .MissingChainId => "legacy transaction without EIP-155 chain id"
  | .MaxPriorityFeeExceedsMaxFee => "max priority fee per gas must not exceed max fee per gas"
  | .ZeroGasLimit => "gas limit must not be zero"

/-- `FinalizeError`. -/
inductive FinalizeError
  | Recovery
  | AddressMismatch (expected recovered : Address)
deriving DecidableEq

/-- `PubkeyError`'s text. -/
def pubkeyErrorDisplay : String := "public key is not a valid secp256k1 point"

-- ---------------------------------------------------------------------------
-- The alloy crates
-- ---------------------------------------------------------------------------

/-- `alloy_rlp::Header`. -/
structure Header where
  list : Bool
  payloadLength : Nat
deriving DecidableEq

/-- An alloy decoder: it takes a value off the front of the buffer. -/
abbrev Decoder (T : Type) := Bytes → Except RlpError (T × Bytes)

/-- What one typed transaction (`TxEip2930`, `TxEip1559`, `TxLegacy`) brings:
its signing preimage and hash, and the codec, hash and recovery of its signed
form. `rlpDecodeSigned` reads what follows the type byte; `recoverSigner` is
`Signed`'s own method, which shadows the trait's of the same name. -/
structure TxOps (T : Type) where
  encodedForSigning : T → Bytes
  signatureHash : T → B256
  encodedSigned : Signed T → Bytes
  rlpDecodeSigned : Decoder (Signed T)
  signedHash : Signed T → B256
  recoverSigner : Signed T → Option Address

/-- What `sovra-eth` calls from alloy and k256. -/
structure Alloy where
  keccak256 : Bytes → B256
  headerDecode : Decoder Header
  headerEncode : Header → Bytes
  u64Decode : Decoder UInt64
  u64Encode : UInt64 → Bytes
  u8Decode : Decoder UInt8
  u8Encode : UInt8 → Bytes
  legacyRlpDecodeFields : Decoder TxLegacy
  legacyRlpEncodeFields : TxLegacy → Bytes
  eip2930RlpDecode : Decoder TxEip2930
  eip2930RlpEncode : TxEip2930 → Bytes
  eip1559RlpDecode : Decoder TxEip1559
  eip1559RlpEncode : TxEip1559 → Bytes
  legacy : TxOps TxLegacy
  eip2930 : TxOps TxEip2930
  eip1559 : TxOps TxEip1559
  recoverAddressFromPrehash : Signature → B256 → Option Address
  /-- `VerifyingKey::from_sec1_bytes` then `Address::from_public_key`. -/
  addressOfPubkey : PubkeySec1 → Option Address
  displayAddress : Address → String
  displayU256 : U256 → String

variable (A : Alloy)

/-- `signature_hash`: the digest of the signing preimage. -/
def EthTx.signatureHash : EthTx → B256
  | .Legacy tx => A.legacy.signatureHash tx
  | .Eip2930 tx => A.eip2930.signatureHash tx
  | .Eip1559 tx => A.eip1559.signatureHash tx

/-- The signing preimage: bare RLP for legacy, type byte ‖ RLP for typed. -/
def EthTx.encodedForSigning : EthTx → Bytes
  | .Legacy tx => A.legacy.encodedForSigning tx
  | .Eip2930 tx => A.eip2930.encodedForSigning tx
  | .Eip1559 tx => A.eip1559.encodedForSigning tx

/-- Its `Display`. -/
def FinalizeError.display : FinalizeError → String
  | .Recovery => "could not recover signer from signature"
  | .AddressMismatch expected recovered => "recovered signer " ++ A.displayAddress recovered ++
      " does not match expected " ++ A.displayAddress expected

end Sovra.Eth
