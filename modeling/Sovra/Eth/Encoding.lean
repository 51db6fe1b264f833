import Sovra.Eth.Alloy
import Sovra.Eth.Prepare
import Sovra.Lib.Guard

/-!
# Sovra — the wire format of transactions

`sovra-eth`'s `encoding.rs`: legacy (bare RLP list), EIP-2930 (`0x01`) and
EIP-1559 (`0x02`) payloads, unsigned and signed. Both decoders are strict and
recompute the hash from the decoded transaction. The legacy unsigned form is
the signing preimage, of six items or, with a chain id, of nine.

* `decodeLegacy_encode`, `encode_decodeLegacy` — the hand-written parser, both
  ways.
* `unsigned_codec` — the unsigned codec is a bijection onto its image.
-/

namespace Sovra.Eth

open Lib

variable (A : Alloy)

-- ---------------------------------------------------------------------------
-- Decoding
-- ---------------------------------------------------------------------------

/-- `encode_unsigned`: the bytes that are hashed for signing. -/
def encodeUnsigned (tx : EthTx) : Bytes := tx.encodedForSigning A

/-- The strictness rule: the payload must consume every remaining byte. -/
def decodeStrict {T : Type} (decode : Decoder T) (payload : Bytes) : Except DecodeError T := do
  let (tx, rest) ← (decode payload).mapError .Rlp
  ensure (rest = []) .TrailingBytes
  return tx

/-- One dispatch for both decode directions, on the first byte. -/
def decodeDispatch {T : Type} (raw : Bytes) (legacy eip2930 eip1559 : Bytes → Except DecodeError T) :
    Except DecodeError T :=
  match raw with
  | [] => .error .Empty
  | first :: payload =>
    if first = 0x01 then eip2930 payload
    else if first = 0x02 then eip1559 payload
    else if 0xc0 ≤ first then legacy raw
    else .error (.UnsupportedType first)

/-- The EIP-155 tail `chain_id, 0, 0` of a legacy preimage. -/
def decodeEip155Tail (payload : Bytes) : Except DecodeError UInt64 := do
  let (chainId, payload) ← (A.u64Decode payload).mapError .Rlp
  let (zeroR, payload) ← (A.u8Decode payload).mapError .Rlp
  let (zeroS, payload) ← (A.u8Decode payload).mapError .Rlp
  ensure (zeroR = 0 ∧ zeroS = 0 ∧ payload = [])
    (.Rlp (.Custom "malformed EIP-155 signing preimage"))
  return chainId

/-- `decode_legacy_unsigned`; alloy's field decoder leaves `chain_id: None`. -/
def decodeLegacyUnsigned (raw : Bytes) : Except DecodeError TxLegacy := do
  let (header, buf) ← (A.headerDecode raw).mapError .Rlp
  ensure (header.list = true) (.Rlp .UnexpectedString)
  ensure (header.payloadLength ≤ buf.length) (.Rlp .InputTooShort)
  ensure (buf.length ≤ header.payloadLength) .TrailingBytes
  let (tx, payload) ← (A.legacyRlpDecodeFields buf).mapError .Rlp
  if payload = [] then return tx
  else
    let chainId ← decodeEip155Tail A payload
    return { tx with chainId := some chainId }

/-- `decode_unsigned`: what was prepared, under its signature hash. -/
def decodeUnsigned (raw : Bytes) : Except DecodeError PreparedTx := do
  let tx ← decodeDispatch raw
    (fun p => EthTx.Legacy <$> decodeLegacyUnsigned A p)
    (fun p => EthTx.Eip2930 <$> decodeStrict A.eip2930RlpDecode p)
    (fun p => EthTx.Eip1559 <$> decodeStrict A.eip1559RlpDecode p)
  return ⟨tx, tx.signatureHash A⟩

/-- The inner function of `decode_signed`. -/
def toSignedTx {T : Type} (ops : TxOps T) (raw : Bytes) (signed : Signed T) :
    Except DecodeError SignedTx :=
  match ops.recoverSigner signed with
  | none => .error .Recovery
  | some sender => .ok ⟨raw, ops.signedHash signed, sender⟩

/-- `decode_signed`: the transaction is not kept, its hash and signer are. -/
def decodeSigned (raw : Bytes) : Except DecodeError SignedTx :=
  decodeDispatch raw
    (fun p => do toSignedTx A.legacy raw (← decodeStrict A.legacy.rlpDecodeSigned p))
    (fun p => do toSignedTx A.eip2930 raw (← decodeStrict A.eip2930.rlpDecodeSigned p))
    (fun p => do toSignedTx A.eip1559 raw (← decodeStrict A.eip1559.rlpDecodeSigned p))

variable {A}

/-- The signing hash is the hash of the signing preimage. -/
theorem signatureHash_eq (hA : A.Canonical) (tx : EthTx) :
    tx.signatureHash A = A.keccak256 (encodeUnsigned A tx) := by
  cases tx with
  | Legacy tx => exact hA.legacy_hash tx
  | Eip2930 tx => exact hA.eip2930_hash tx
  | Eip1559 tx => exact hA.eip1559_hash tx

-- ---------------------------------------------------------------------------
-- Both ways, form by form
-- ---------------------------------------------------------------------------

/-- A strict decoder is one that leaves nothing. -/
theorem decodeStrict_ok_iff {T : Type} {decode : Decoder T} {payload : Bytes} {tx : T} :
    decodeStrict decode payload = .ok tx ↔ decode payload = .ok (tx, []) := by
  simp [decodeStrict]

/-- A typed payload decodes to what encodes to it. -/
theorem decodeStrict_iff_write {T : Type} {w : Wire UInt8 RlpError T} (hw : w.Lawful)
    {payload : Bytes} {tx : T} : decodeStrict w.read payload = .ok tx ↔ payload = w.write tx := by
  rw [decodeStrict_ok_iff]
  constructor
  · intro h
    rw [hw.eq_write h, List.append_nil]
  · rintro rfl
    have hRead := hw.read_write tx []
    rwa [List.append_nil] at hRead

/-- The tail is read off what is written for the chain id, and off nothing else. -/
theorem decodeEip155Tail_iff (hA : A.Canonical) {payload : Bytes} {chainId : UInt64} :
    decodeEip155Tail A payload = .ok chainId ↔ payload = eip155Tail A (some chainId) := by
  constructor
  · intro h
    simp only [decodeEip155Tail, bind_eq_ok, mapError_eq_ok, ensure_eq_ok, pure_eq_ok,
      Prod.exists] at h
    obtain ⟨id, p₁, hId, r, p₂, hR, s, p₃, hS, -, ⟨rfl, rfl, rfl⟩, rfl⟩ := h
    rw [hA.u64.eq_write hId, hA.u8.eq_write hR, hA.u8.eq_write hS]
    simp [eip155Tail]
  · rintro rfl
    have hId := hA.u64.read_write chainId (A.u8Encode 0 ++ A.u8Encode 0)
    have hR := hA.u8.read_write 0 (A.u8Encode 0)
    have hS := hA.u8.read_write 0 []
    rw [List.append_nil] at hS
    simp only [decodeEip155Tail, eip155Tail, List.append_assoc, bind_eq_ok, mapError_eq_ok,
      ensure_eq_ok, pure_eq_ok, Prod.exists]
    exact ⟨_, _, hId, _, _, hR, _, _, hS, (), ⟨rfl, rfl, rfl⟩, rfl⟩

/-- The tail is what tells a nine-item preimage from a six-item one. -/
theorem eip155Tail_ne_nil (hA : A.Canonical) (chainId : UInt64) :
    eip155Tail A (some chainId) ≠ [] := by
  have hNe : (0 : UInt8) ≠ 1 := by decide
  simp [eip155Tail, hA.u8.write_ne_nil hNe]

/-- **The legacy parser, forwards.** -/
theorem decodeLegacy_encode (hA : A.Canonical) (tx : TxLegacy) :
    decodeLegacyUnsigned A (A.legacy.encodedForSigning tx) = .ok tx := by
  have hHeader := hA.header_read (legacyPayload A tx).length (legacyPayload A tx) (Nat.le_refl _)
  have hFields := hA.fields_read tx (eip155Tail A tx.chainId)
  rw [decodeLegacyUnsigned, hA.legacy_preimage]
  simp only [bind_eq_ok, mapError_eq_ok, ensure_eq_ok, Prod.exists]
  refine ⟨_, _, hHeader, (), rfl, (), Nat.le_refl _, (), Nat.le_refl _, _, _, hFields, ?_⟩
  obtain ⟨chainId, nonce, gasPrice, gasLimit, kind, value, input⟩ := tx
  -- without a chain id nothing follows the six items
  cases chainId with
  | none => rfl
  | some chainId =>
    have hTail := (decodeEip155Tail_iff hA).mpr (Eq.refl (eip155Tail A (some chainId)))
    simp only [eip155Tail_ne_nil hA chainId, if_false, hTail]
    rfl

/-- **The legacy parser, backwards.** Everything it accepts is the signing
preimage of what it returns. -/
theorem encode_decodeLegacy (hA : A.Canonical) {raw : Bytes} {tx : TxLegacy}
    (h : decodeLegacyUnsigned A raw = .ok tx) : A.legacy.encodedForSigning tx = raw := by
  simp only [decodeLegacyUnsigned, bind_eq_ok, mapError_eq_ok, ensure_eq_ok, Prod.exists] at h
  obtain ⟨⟨list, n⟩, buf, hHeader, -, hList, -, hLong, -, hShort, fields, payload, hFields, h⟩ := h
  simp only at hList hLong hShort
  subst hList
  obtain ⟨hBuf, hNone⟩ := hA.fields_eq hFields
  -- six items or nine, the tail is the chain id's
  have hTail : legacyPayload A tx = buf := by
    split at h
    · rename_i hNil
      obtain rfl := pure_eq_ok.mp h
      rw [legacyPayload, hNone, hBuf, hNil]
      rfl
    · rw [bind_eq_ok] at h
      obtain ⟨chainId, hChain, hTx⟩ := h
      obtain rfl := pure_eq_ok.mp hTx
      rw [legacyPayload, hA.fields_chainId, hBuf, (decodeEip155Tail_iff hA).mp hChain]
  have hn : n = buf.length := by omega
  rw [hA.legacy_preimage, hTail, ← hn]
  exact (hA.header_eq hHeader).symm

-- ---------------------------------------------------------------------------
-- The codec
-- ---------------------------------------------------------------------------

/-- The dispatch, by the kind of the first byte. -/
theorem decodeDispatch_ok {T : Type} {raw : Bytes} {legacy eip2930 eip1559 : Bytes → Except DecodeError T}
    {a : T} (h : decodeDispatch raw legacy eip2930 eip1559 = .ok a) :
    (∃ payload, raw = 0x01 :: payload ∧ eip2930 payload = .ok a) ∨
    (∃ payload, raw = 0x02 :: payload ∧ eip1559 payload = .ok a) ∨ legacy raw = .ok a := by
  unfold decodeDispatch at h
  split at h
  · cases h
  rename_i first payload
  split at h
  · rename_i hFirst
    exact Or.inl ⟨payload, by rw [hFirst], h⟩
  split at h
  · rename_i hFirst
    exact Or.inr (Or.inl ⟨payload, by rw [hFirst], h⟩)
  split at h
  · exact Or.inr (Or.inr h)
  · cases h

/-- A first byte from `0xc0` on is a legacy transaction's. -/
theorem decodeDispatch_list {T : Type} {first : UInt8} {payload : Bytes}
    {legacy eip2930 eip1559 : Bytes → Except DecodeError T} (hFirst : 0xc0 ≤ first) :
    decodeDispatch (first :: payload) legacy eip2930 eip1559 = legacy (first :: payload) := by
  have hNat := UInt8.le_iff_toNat_le.mp hFirst
  have hOne : first ≠ 0x01 := by
    rintro rfl
    exact absurd hNat (by decide)
  have hTwo : first ≠ 0x02 := by
    rintro rfl
    exact absurd hNat (by decide)
  rw [decodeDispatch, if_neg hOne, if_neg hTwo, if_pos hFirst]

/-- **The codec, forwards.** What is encoded decodes to itself. -/
theorem decodeUnsigned_encode (hA : A.Canonical) (tx : EthTx) :
    decodeUnsigned A (encodeUnsigned A tx) = .ok ⟨tx, tx.signatureHash A⟩ := by
  rw [decodeUnsigned, bind_eq_ok]
  refine ⟨tx, ?_, rfl⟩
  -- the first byte tells the types apart: a list header from 0xc0 on, and the two type
  -- bytes
  cases tx with
  | Legacy tx =>
    obtain ⟨first, rest, hHeader, hFirst⟩ := hA.header_first (legacyPayload A tx).length
    have hRaw : encodeUnsigned A (.Legacy tx) = first :: (rest ++ legacyPayload A tx) := by
      show A.legacy.encodedForSigning tx = _
      rw [hA.legacy_preimage, hHeader]
      rfl
    have hDec := decodeLegacy_encode hA tx
    rw [show A.legacy.encodedForSigning tx = _ from hRaw] at hDec
    rw [hRaw, decodeDispatch_list hFirst, hDec]
    rfl
  | Eip2930 tx =>
    have hDec := (decodeStrict_iff_write hA.eip2930).mpr (Eq.refl (A.eip2930RlpEncode tx))
    show decodeDispatch (A.eip2930.encodedForSigning tx) _ _ _ = _
    rw [hA.eip2930_preimage, decodeDispatch, if_pos rfl, hDec]
    rfl
  | Eip1559 tx =>
    have hDec := (decodeStrict_iff_write hA.eip1559).mpr (Eq.refl (A.eip1559RlpEncode tx))
    show decodeDispatch (A.eip1559.encodedForSigning tx) _ _ _ = _
    rw [hA.eip1559_preimage, decodeDispatch, if_neg (by decide), if_pos rfl, hDec]
    rfl

/-- **The codec, backwards.** What is decoded was encoded so. -/
theorem encode_decodeUnsigned (hA : A.Canonical) {raw : Bytes} {p : PreparedTx}
    (h : decodeUnsigned A raw = .ok p) :
    encodeUnsigned A p.tx = raw ∧ p.signingHash = p.tx.signatureHash A := by
  rw [decodeUnsigned, bind_eq_ok] at h
  obtain ⟨tx, hTx, hP⟩ := h
  obtain rfl := pure_eq_ok.mp hP
  refine ⟨?_, rfl⟩
  -- one case for each decoder that may have accepted the bytes
  rcases decodeDispatch_ok hTx with ⟨payload, rfl, hDec⟩ | ⟨payload, rfl, hDec⟩ | hDec
  · obtain ⟨inner, hInner, rfl⟩ := map_eq_ok.mp hDec
    rw [(decodeStrict_iff_write hA.eip2930).mp hInner]
    exact hA.eip2930_preimage inner
  · obtain ⟨inner, hInner, rfl⟩ := map_eq_ok.mp hDec
    rw [(decodeStrict_iff_write hA.eip1559).mp hInner]
    exact hA.eip1559_preimage inner
  · obtain ⟨inner, hInner, rfl⟩ := map_eq_ok.mp hDec
    exact encode_decodeLegacy hA hInner

/-- **The unsigned codec is a bijection onto its image.** Every transaction
decodes from its encoding, under its signature hash; every accepted byte string
is the encoding of what it decodes to, and its digest is the hash of the bytes.
So what `prepare` accepts, every party accepts with the same digest, and no two
accepted byte strings denote the same transaction. -/
theorem unsigned_codec (A : Alloy) (hA : A.Canonical) :
    (∀ tx, decodeUnsigned A (encodeUnsigned A tx) = .ok ⟨tx, tx.signatureHash A⟩) ∧
    (∀ raw p, decodeUnsigned A raw = .ok p →
      encodeUnsigned A p.tx = raw ∧ p.signingHash = A.keccak256 raw) ∧
    (∀ intent p, prepare A intent = .ok p →
      decodeUnsigned A (encodeUnsigned A p.tx) = .ok p ∧ validateUnsigned p.tx = .ok ()) ∧
    (∀ raw₁ raw₂ p₁ p₂, decodeUnsigned A raw₁ = .ok p₁ → decodeUnsigned A raw₂ = .ok p₂ →
      p₁.tx = p₂.tx → raw₁ = raw₂) := by
  refine ⟨decodeUnsigned_encode hA, ?_, ?_, ?_⟩
  · intro raw p h
    obtain ⟨hRaw, hHash⟩ := encode_decodeUnsigned hA h
    exact ⟨hRaw, by rw [hHash, signatureHash_eq hA, hRaw]⟩
  · intro intent p h
    obtain ⟨-, hValid, hHash⟩ := prepare_ok h
    have hDec := decodeUnsigned_encode hA p.tx
    rw [← hHash] at hDec
    exact ⟨hDec, hValid⟩
  · intro raw₁ raw₂ p₁ p₂ h₁ h₂ hTx
    rw [← (encode_decodeUnsigned hA h₁).1, ← (encode_decodeUnsigned hA h₂).1, hTx]

/-- A transfer on Sepolia, over real RLP. -/
theorem unsigned_codec_transfer :
    decodeUnsigned Sample.alloy (encodeUnsigned Sample.alloy (.Eip1559 Sample.tx)) =
      .ok ⟨.Eip1559 Sample.tx, Sample.signingHash⟩ :=
  (unsigned_codec Sample.alloy rlpAlloy_canonical).1 (.Eip1559 Sample.tx)

end Sovra.Eth
