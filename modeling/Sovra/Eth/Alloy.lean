import Sovra.Eth.Types
import Sovra.Lib.Rlp

/-!
# Sovra — what is assumed of alloy

`Alloy` is third-party code. The pipeline's results rest on two groups of
documented facts about it, each a structure here: its unsigned side is
canonical RLP laid out by EIP-155, EIP-2930 and EIP-1559, and its signed side
round-trips and recovers signers whatever their s. `rlpAlloy` builds an `Alloy`
from the RLP codes of the library, given a hash and an address recovery.

* `Alloy.Canonical`, `Alloy.SignedForms` — the assumptions.
* `rlpAlloy_canonical`, `rlpAlloy_signedForms` — both hold of real RLP.
-/

namespace Sovra.Eth

open Lib

variable (A : Alloy)

-- ---------------------------------------------------------------------------
-- The unsigned side
-- ---------------------------------------------------------------------------

/-- The tail EIP-155 appends to a legacy preimage. -/
def eip155Tail : Option UInt64 → Bytes
  | none => []
  | some chainId => A.u64Encode chainId ++ A.u8Encode 0 ++ A.u8Encode 0

/-- The payload of a legacy signing preimage. -/
def legacyPayload (tx : TxLegacy) : Bytes :=
  A.legacyRlpEncodeFields tx ++ eip155Tail A tx.chainId

/-- Alloy's unsigned side: list headers, integers, the six legacy fields and
the typed bodies are canonical codes, and the signing preimages are laid out by
EIP-155, EIP-2930 and EIP-1559. -/
structure Alloy.Canonical (A : Alloy) : Prop where
  header_read : ∀ n rest, n ≤ rest.length →
    A.headerDecode (A.headerEncode ⟨true, n⟩ ++ rest) = .ok (⟨true, n⟩, rest)
  header_eq : ∀ {input n rest}, A.headerDecode input = .ok (⟨true, n⟩, rest) →
    input = A.headerEncode ⟨true, n⟩ ++ rest
  header_first : ∀ n, ∃ first rest, A.headerEncode ⟨true, n⟩ = first :: rest ∧ 0xc0 ≤ first
  u64 : (Wire.mk A.u64Encode A.u64Decode).Lawful
  u8 : (Wire.mk A.u8Encode A.u8Decode).Lawful
  fields_read : ∀ tx rest, A.legacyRlpDecodeFields (A.legacyRlpEncodeFields tx ++ rest) =
    .ok ({ tx with chainId := none }, rest)
  fields_eq : ∀ {input tx rest}, A.legacyRlpDecodeFields input = .ok (tx, rest) →
    input = A.legacyRlpEncodeFields tx ++ rest ∧ tx.chainId = none
  fields_chainId : ∀ tx chainId,
    A.legacyRlpEncodeFields { tx with chainId } = A.legacyRlpEncodeFields tx
  eip2930 : (Wire.mk A.eip2930RlpEncode A.eip2930RlpDecode).Lawful
  eip1559 : (Wire.mk A.eip1559RlpEncode A.eip1559RlpDecode).Lawful
  legacy_preimage : ∀ tx, A.legacy.encodedForSigning tx =
    A.headerEncode ⟨true, (legacyPayload A tx).length⟩ ++ legacyPayload A tx
  eip2930_preimage : ∀ tx, A.eip2930.encodedForSigning tx = 0x01 :: A.eip2930RlpEncode tx
  eip1559_preimage : ∀ tx, A.eip1559.encodedForSigning tx = 0x02 :: A.eip1559RlpEncode tx
  legacy_hash : ∀ tx, A.legacy.signatureHash tx = A.keccak256 (A.legacy.encodedForSigning tx)
  eip2930_hash : ∀ tx, A.eip2930.signatureHash tx = A.keccak256 (A.eip2930.encodedForSigning tx)
  eip1559_hash : ∀ tx, A.eip1559.signatureHash tx = A.keccak256 (A.eip1559.encodedForSigning tx)

-- ---------------------------------------------------------------------------
-- The signed side
-- ---------------------------------------------------------------------------

/-- The order of secp256k1. -/
def secp256k1N : Nat := 0xfffffffffffffffffffffffffffffffebaaedce6af48a03bbfd25e8cd0364141

/-- Half of it, the bound between low and high s. -/
def secp256k1NHalf : Nat := 0x7fffffffffffffffffffffffffffffff5d576e7357a4501ddfe92f46681b20a0

/-- So the negation of s fits its 256 bits. -/
theorem secp256k1N_sub_lt (sig : Signature) : secp256k1N - sig.s.val < 2 ^ 256 := by
  unfold secp256k1N
  omega

/-- `Signature::normalized_s`: the low-s twin. -/
def Signature.normalizedS (sig : Signature) : Signature :=
  if sig.s.val ≤ secp256k1NHalf then sig
  else { sig with s := ⟨secp256k1N - sig.s.val, secp256k1N_sub_lt sig⟩, v := !sig.v }

/-- Alloy's signed side: the EIP-2718 and legacy encodings round-trip,
`recover_address_from_prehash` recovers from the low-s form of a signature, and
`Signed::recover_signer` is that recovery from the transaction's own hash. Neither
of them checks s. -/
structure Alloy.SignedForms (A : Alloy) : Prop where
  legacy_first : ∀ signed, ∃ first rest, A.legacy.encodedSigned signed = first :: rest ∧
    0xc0 ≤ first
  legacy_read : ∀ signed, A.legacy.rlpDecodeSigned (A.legacy.encodedSigned signed) =
    .ok (signed, [])
  eip2930_read : ∀ signed, ∃ payload, A.eip2930.encodedSigned signed = 0x01 :: payload ∧
    A.eip2930.rlpDecodeSigned payload = .ok (signed, [])
  eip1559_read : ∀ signed, ∃ payload, A.eip1559.encodedSigned signed = 0x02 :: payload ∧
    A.eip1559.rlpDecodeSigned payload = .ok (signed, [])
  recover_normalized : ∀ sig hash, A.recoverAddressFromPrehash sig hash =
    A.recoverAddressFromPrehash sig.normalizedS hash
  legacy_signer : ∀ signed, A.legacy.recoverSigner signed =
    A.recoverAddressFromPrehash signed.signature (A.legacy.signatureHash signed.tx)
  eip2930_signer : ∀ signed, A.eip2930.recoverSigner signed =
    A.recoverAddressFromPrehash signed.signature (A.eip2930.signatureHash signed.tx)
  eip1559_signer : ∀ signed, A.eip1559.recoverSigner signed =
    A.recoverAddressFromPrehash signed.signature (A.eip1559.signatureHash signed.tx)

-- ---------------------------------------------------------------------------
-- RLP field codes
-- ---------------------------------------------------------------------------

namespace RlpCodes

/-- The error of every refused code; which of alloy's it is plays no part. -/
def bad : RlpError := .UnexpectedLength

/-- An unsigned integer of `k` bytes, without leading zeros. -/
def fin (k m : Nat) (h : 256 ^ k = m) : Wire UInt8 RlpError (Fin m) :=
  (Rlp.uint k bad).iso (Fin.cast h) (Fin.cast h.symm)

/-- It is read in one way only. -/
theorem lawful_fin (k m : Nat) (h : 256 ^ k = m) : (fin k m h).Lawful :=
  Wire.lawful_iso (Rlp.lawful_uint k bad) (fun _ => rfl) (fun _ => rfl)

/-- The codec of a `u64`. -/
def u64 : Wire UInt8 RlpError UInt64 :=
  (fin 8 (2 ^ 64) (by decide)).iso UInt64.ofFin UInt64.toFin

theorem lawful_u64 : u64.Lawful :=
  Wire.lawful_iso (lawful_fin 8 _ _) (fun _ => rfl) (fun _ => rfl)

/-- The codec of a `u8`. -/
def u8 : Wire UInt8 RlpError UInt8 :=
  (fin 1 (2 ^ 8) (by decide)).iso UInt8.ofFin UInt8.toFin

theorem lawful_u8 : u8.Lawful :=
  Wire.lawful_iso (lawful_fin 1 _ _) (fun _ => rfl) (fun _ => rfl)

/-- The codec of a `u128`. -/
def u128 : Wire UInt8 RlpError U128 := fin 16 (2 ^ 128) (by decide)

/-- The codec of a `U256`. -/
def u256 : Wire UInt8 RlpError U256 := fin 32 (2 ^ 256) (by decide)

/-- The codec of a string of exactly `n` bytes. -/
def fixed (n : Nat) : Wire UInt8 RlpError (FixedBytes n) :=
  (Rlp.bytesN n bad).iso (fun b => ⟨b.1, b.2⟩) (fun b => ⟨b.bytes, b.length_eq⟩)

theorem lawful_fixed (n : Nat) : (fixed n).Lawful :=
  Wire.lawful_iso (Rlp.lawful_bytesN n bad) (fun _ => rfl) (fun _ => rfl)

/-- The empty string for a creation, else the address. -/
def txKind : Wire UInt8 RlpError TxKind :=
  ((Rlp.string bad).guarded (fun b => b.length = 0 ∨ b.length = 20) bad).iso
    (fun b => if h : b.1.length = 20 then .Call ⟨b.1, h⟩ else .Create)
    (fun kind => match kind with
      | .Create => ⟨[], Or.inl rfl⟩
      | .Call address => ⟨address.bytes, Or.inr address.length_eq⟩)

/-- The two lengths tell the two kinds apart. -/
theorem lawful_txKind : txKind.Lawful := by
  refine Wire.lawful_iso (Wire.lawful_guarded (Rlp.lawful_string bad) _ bad) ?_ ?_
  · intro kind
    cases kind with
    | Create => rfl
    | Call address => exact dif_pos address.length_eq
  · rintro ⟨b, hLen⟩
    -- 20 bytes are a call; the only other length that passes the guard is none
    by_cases hCall : b.length = 20
    · simp only [hCall, dite_true]
    · have hNil : b = [] := List.length_eq_zero_iff.mp (hLen.resolve_right hCall)
      subst hNil
      rfl

/-- A list of values that each write something. -/
def listOf {T : Type} (w : Wire UInt8 RlpError T) : Wire UInt8 RlpError (List T) :=
  Rlp.list (w.many bad) bad

/-- The list says where it ends, each value where it does. -/
theorem lawful_listOf {T : Type} {w : Wire UInt8 RlpError T} (hw : w.Lawful)
    (hNe : ∀ a, w.write a ≠ []) : (listOf w).Lawful :=
  Rlp.lawful_list (Wire.lawful_many hw hNe bad) bad

/-- A list that is one tuple of fields. -/
def record {T : Type} (w : Wire UInt8 RlpError T) : Wire UInt8 RlpError T :=
  Rlp.list (w.whole bad) bad

/-- A tuple is the whole of its list. -/
theorem lawful_record {T : Type} {w : Wire UInt8 RlpError T} (hw : w.Lawful) :
    (record w).Lawful :=
  Rlp.lawful_list (Wire.lawful_whole hw bad) bad

/-- Addresses, each with its storage keys. -/
def accessList : Wire UInt8 RlpError AccessList :=
  listOf ((record ((fixed 20).seq (listOf (fixed 32)))).iso
    (fun p => ⟨p.1, p.2⟩) (fun item => (item.address, item.storageKeys)))

/-- A key has 32 bytes and an item a header, so neither is empty. -/
theorem lawful_accessList : accessList.Lawful := by
  have hKey : (listOf (fixed 32)).Lawful :=
    lawful_listOf (lawful_fixed 32) fun a => by
      have hNe : FixedBytes.repeatByte 32 0 ≠ FixedBytes.repeatByte 32 1 := by decide
      by_cases h : a = FixedBytes.repeatByte 32 0
      · exact (lawful_fixed 32).write_ne_nil (h ▸ hNe)
      · exact (lawful_fixed 32).write_ne_nil h
  refine lawful_listOf (Wire.lawful_iso (lawful_record (Wire.lawful_seq (lawful_fixed 20) hKey))
    (fun _ => rfl) (fun _ => rfl)) fun item => ?_
  exact Rlp.list_write_ne_nil _ bad _

/-- The six fields of a legacy transaction. -/
def legacyFields :
    Wire UInt8 RlpError (UInt64 × U128 × UInt64 × TxKind × U256 × Bytes) :=
  u64.seq (u128.seq (u64.seq (txKind.seq (u256.seq (Rlp.string bad)))))

/-- Six fields, one after the other. -/
theorem lawful_legacyFields : legacyFields.Lawful :=
  Wire.lawful_seq lawful_u64 (Wire.lawful_seq (lawful_fin 16 _ _) (Wire.lawful_seq lawful_u64
    (Wire.lawful_seq lawful_txKind (Wire.lawful_seq (lawful_fin 32 _ _)
      (Rlp.lawful_string bad)))))

/-- The fields of an EIP-2930 transaction, in the order they are encoded in. -/
def eip2930Fields : Wire UInt8 RlpError TxEip2930 :=
  (u64.seq (u64.seq (u128.seq (u64.seq (txKind.seq (u256.seq
    ((Rlp.string bad).seq accessList))))))).iso
    (fun (chainId, nonce, gasPrice, gasLimit, kind, value, input, accessList) =>
      { chainId, nonce, gasPrice, gasLimit, kind, value, accessList, input })
    (fun tx => (tx.chainId, tx.nonce, tx.gasPrice, tx.gasLimit, tx.kind, tx.value, tx.input,
      tx.accessList))

/-- Eight fields. -/
theorem lawful_eip2930Fields : eip2930Fields.Lawful :=
  Wire.lawful_iso
    (Wire.lawful_seq lawful_u64 (Wire.lawful_seq lawful_u64 (Wire.lawful_seq (lawful_fin 16 _ _)
      (Wire.lawful_seq lawful_u64 (Wire.lawful_seq lawful_txKind
        (Wire.lawful_seq (lawful_fin 32 _ _)
          (Wire.lawful_seq (Rlp.lawful_string bad) lawful_accessList)))))))
    (fun _ => rfl) (fun _ => rfl)

/-- The fields of an EIP-1559 transaction. -/
def eip1559Fields : Wire UInt8 RlpError TxEip1559 :=
  (u64.seq (u64.seq (u128.seq (u128.seq (u64.seq (txKind.seq (u256.seq
    ((Rlp.string bad).seq accessList)))))))).iso
    (fun (chainId, nonce, maxPriorityFeePerGas, maxFeePerGas, gasLimit, kind, value, input,
        accessList) =>
      { chainId, nonce, gasLimit, maxFeePerGas, maxPriorityFeePerGas, kind, value, accessList,
        input })
    (fun tx => (tx.chainId, tx.nonce, tx.maxPriorityFeePerGas, tx.maxFeePerGas, tx.gasLimit,
      tx.kind, tx.value, tx.input, tx.accessList))

/-- Nine fields. -/
theorem lawful_eip1559Fields : eip1559Fields.Lawful :=
  Wire.lawful_iso
    (Wire.lawful_seq lawful_u64 (Wire.lawful_seq lawful_u64 (Wire.lawful_seq (lawful_fin 16 _ _)
      (Wire.lawful_seq (lawful_fin 16 _ _) (Wire.lawful_seq lawful_u64
        (Wire.lawful_seq lawful_txKind (Wire.lawful_seq (lawful_fin 32 _ _)
          (Wire.lawful_seq (Rlp.lawful_string bad) lawful_accessList))))))))
    (fun _ => rfl) (fun _ => rfl)

/-- A parity bit: the integer 0 or 1. -/
def parity : Wire UInt8 RlpError Bool :=
  (u8.guarded (fun b => b = 0 ∨ b = 1) bad).iso (fun b => decide (b.1 = 1))
    (fun v => if v then ⟨1, Or.inr rfl⟩ else ⟨0, Or.inl rfl⟩)

/-- Two integers are parities, and both are written as they are read. -/
theorem lawful_parity : parity.Lawful := by
  refine Wire.lawful_iso (Wire.lawful_guarded lawful_u8 _ bad) (fun v => ?_) ?_
  · cases v <;> rfl
  · rintro ⟨b, rfl | rfl⟩ <;> rfl

/-- The `v` of a signed legacy transaction: 27 or 28 before EIP-155, after it
`35 + 2 * chain_id` or one more. -/
def legacyV : Wire UInt8 RlpError (Option UInt64 × Bool) :=
  (u128.guarded (fun v => v.val = 27 ∨ v.val = 28 ∨ 35 ≤ v.val ∧ v.val < 35 + 2 ^ 65) bad).iso
    (fun v => if v.1.val < 35 then (none, decide (v.1.val = 28))
      else (some (UInt64.ofNat ((v.1.val - 35) / 2)), decide ((v.1.val - 35) % 2 = 1)))
    (fun p => match p with
      | (none, v) => ⟨⟨27 + v.toNat, by cases v <;> decide⟩, by cases v <;> simp⟩
      | (some chainId, v) => ⟨⟨35 + 2 * chainId.toNat + v.toNat, by
          have := chainId.toNat_lt
          cases v <;> simp <;> omega⟩, by
          have := chainId.toNat_lt
          cases v <;> simp <;> omega⟩)

/-- From `v` both the chain id and the parity can be read back. -/
theorem lawful_legacyV : legacyV.Lawful := by
  refine Wire.lawful_iso (Wire.lawful_guarded (lawful_fin 16 _ _) _ bad) ?_ ?_
  · rintro ⟨chainId, v⟩
    cases chainId with
    | none => cases v <;> rfl
    | some chainId =>
      -- the parity is the last bit above 35, the chain id the rest
      have hBit : v.toNat < 2 := by cases v <;> decide
      have hDiv : (35 + 2 * chainId.toNat + v.toNat - 35) / 2 = chainId.toNat := by omega
      have hMod : (35 + 2 * chainId.toNat + v.toNat - 35) % 2 = v.toNat := by omega
      have hBig : ¬ 35 + 2 * chainId.toNat + v.toNat < 35 := by omega
      simp only [hBig, if_false, hDiv, hMod, UInt64.ofNat_toNat]
      cases v <;> rfl
  · rintro ⟨v, hv⟩
    apply Subtype.ext
    apply Fin.ext
    -- 27 and 28 name no chain; from 35 on the bound keeps the id in 64 bits
    by_cases hSmall : v.val < 35
    · rcases hv with h | h | h
      · simp [h]
      · simp [h]
      · omega
    · have hId : ((v.val - 35) / 2) < 2 ^ 64 := by omega
      have hNat : (UInt64.ofNat ((v.val - 35) / 2)).toNat = (v.val - 35) / 2 := by
        rw [UInt64.toNat_ofNat']
        exact Nat.mod_eq_of_lt hId
      simp only [hSmall, if_false, hNat]
      by_cases hOdd : (v.val - 35) % 2 = 1
      · simp only [hOdd, decide_true, Bool.toNat_true]
        omega
      · simp only [hOdd, decide_false, Bool.toNat_false]
        omega

/-- A signed legacy transaction: `v` carries the chain id. -/
def legacySigned : Wire UInt8 RlpError (Signed TxLegacy) :=
  (record (legacyFields.seq (legacyV.seq (u256.seq u256)))).iso
    (fun ((nonce, gasPrice, gasLimit, kind, value, input), (chainId, v), r, s) =>
      ⟨{ chainId, nonce, gasPrice, gasLimit, kind, value, input }, ⟨r, s, v⟩⟩)
    (fun signed => ((signed.tx.nonce, signed.tx.gasPrice, signed.tx.gasLimit, signed.tx.kind,
      signed.tx.value, signed.tx.input), (signed.tx.chainId, signed.signature.v),
      signed.signature.r, signed.signature.s))

/-- Nine items, of which three are the signature. -/
theorem lawful_legacySigned : legacySigned.Lawful :=
  Wire.lawful_iso
    (lawful_record (Wire.lawful_seq lawful_legacyFields (Wire.lawful_seq lawful_legacyV
      (Wire.lawful_seq (lawful_fin 32 _ _) (lawful_fin 32 _ _)))))
    (fun _ => rfl) (fun _ => rfl)

/-- A typed body with the signature's three fields behind it. -/
def typedSigned {T : Type} (fields : Wire UInt8 RlpError T) : Wire UInt8 RlpError (Signed T) :=
  (record (fields.seq (parity.seq (u256.seq u256)))).iso
    (fun (tx, v, r, s) => ⟨tx, ⟨r, s, v⟩⟩)
    (fun signed => (signed.tx, signed.signature.v, signed.signature.r, signed.signature.s))

/-- The signature's three behind those of the body. -/
theorem lawful_typedSigned {T : Type} {fields : Wire UInt8 RlpError T} (hFields : fields.Lawful) :
    (typedSigned fields).Lawful :=
  Wire.lawful_iso
    (lawful_record (Wire.lawful_seq hFields (Wire.lawful_seq lawful_parity
      (Wire.lawful_seq (lawful_fin 32 _ _) (lawful_fin 32 _ _)))))
    (fun _ => rfl) (fun _ => rfl)

-- ---------------------------------------------------------------------------
-- An alloy of RLP
-- ---------------------------------------------------------------------------

/-- What `rlp_encode_fields` writes of a legacy transaction. -/
def legacyTuple (tx : TxLegacy) : UInt64 × U128 × UInt64 × TxKind × U256 × Bytes :=
  (tx.nonce, tx.gasPrice, tx.gasLimit, tx.kind, tx.value, tx.input)

/-- `Header::encode`. -/
def headerEncode (h : Header) : Bytes :=
  (Rlp.length (if h.list then 0xc0 else 0x80) bad).write h.payloadLength

/-- `Header::decode`: a byte below `0x80` is a one-byte string without header;
the payload must be there. -/
def headerDecode (input : Bytes) : Except RlpError (Header × Bytes) :=
  match input with
  | [] => .error .InputTooShort
  | first :: _ =>
    if first < 0x80 then .ok (⟨false, 1⟩, input)
    else
      match (Rlp.length (if 0xc0 ≤ first then 0xc0 else 0x80) bad).read input with
      | .error e => .error e
      | .ok (n, rest) =>
        if n ≤ rest.length then .ok (⟨decide (0xc0 ≤ first), n⟩, rest) else .error .InputTooShort

/-- A legacy signing preimage, with the EIP-155 tail if there is a chain id. -/
def legacyPreimage (tx : TxLegacy) : Bytes :=
  let payload := legacyFields.write (legacyTuple tx) ++
    (match tx.chainId with
      | none => []
      | some chainId => u64.write chainId ++ u8.write 0 ++ u8.write 0)
  headerEncode ⟨true, payload.length⟩ ++ payload

/-- One transaction type of `rlpAlloy`; `typeByte` is empty for legacy. -/
def ops {T : Type} (keccak256 : Bytes → B256) (recover : Signature → B256 → Option Address)
    (preimage : T → Bytes) (typeByte : Bytes) (signed : Wire UInt8 RlpError (Signed T)) :
    TxOps T where
  encodedForSigning := preimage
  signatureHash tx := keccak256 (preimage tx)
  encodedSigned s := typeByte ++ signed.write s
  rlpDecodeSigned := signed.read
  signedHash s := keccak256 (typeByte ++ signed.write s)
  recoverSigner s := recover s.signature (keccak256 (preimage s.tx))

end RlpCodes

open RlpCodes in
/-- Alloy as RLP, over a given hash, public-key recovery from low-s signatures
and key-to-address map. -/
def rlpAlloy (keccak256 : Bytes → B256) (recoverLowS : Signature → B256 → Option Address)
    (addressOfPubkey : PubkeySec1 → Option Address) : Alloy where
  keccak256
  headerDecode := RlpCodes.headerDecode
  headerEncode := RlpCodes.headerEncode
  u64Decode := u64.read
  u64Encode := u64.write
  u8Decode := u8.read
  u8Encode := u8.write
  legacyRlpDecodeFields input :=
    match legacyFields.read input with
    | .error e => .error e
    | .ok ((nonce, gasPrice, gasLimit, kind, value, input), rest) =>
      .ok ({ chainId := none, nonce, gasPrice, gasLimit, kind, value, input }, rest)
  legacyRlpEncodeFields tx := legacyFields.write (legacyTuple tx)
  eip2930RlpDecode := (record eip2930Fields).read
  eip2930RlpEncode := (record eip2930Fields).write
  eip1559RlpDecode := (record eip1559Fields).read
  eip1559RlpEncode := (record eip1559Fields).write
  legacy := ops keccak256 (fun sig => recoverLowS sig.normalizedS) legacyPreimage [] legacySigned
  eip2930 := ops keccak256 (fun sig => recoverLowS sig.normalizedS)
    (fun tx => 0x01 :: (record eip2930Fields).write tx) [0x01] (typedSigned eip2930Fields)
  eip1559 := ops keccak256 (fun sig => recoverLowS sig.normalizedS)
    (fun tx => 0x02 :: (record eip1559Fields).write tx) [0x02] (typedSigned eip1559Fields)
  recoverAddressFromPrehash sig := recoverLowS sig.normalizedS
  addressOfPubkey
  displayAddress address := String.join (address.bytes.map hexByte)
  displayU256 value := toString value.val

section

variable {keccak256 : Bytes → B256} {recoverLowS : Signature → B256 → Option Address}
  {addressOfPubkey : PubkeySec1 → Option Address}

/-- A list header is read off exactly what was written, if the payload is there. -/
theorem headerDecode_list_iff {input : Bytes} {n : Nat} {rest : Bytes} :
    RlpCodes.headerDecode input = .ok (⟨true, n⟩, rest) ↔
      input = RlpCodes.headerEncode ⟨true, n⟩ ++ rest ∧ n ≤ rest.length := by
  have hLen : (Rlp.length 0xc0 RlpCodes.bad).Lawful := Rlp.lawful_length (by decide) _
  constructor
  · intro h
    unfold RlpCodes.headerDecode at h
    split at h
    · cases h
    rename_i first tail
    split at h
    · cases h
    split at h
    · cases h
    rename_i n' rest' hRead
    split at h
    · rename_i hFits
      -- the flag says the first byte was one of a list, so the length was read as a
      -- list's
      obtain ⟨hHeader, rfl⟩ := Prod.mk.inj (Except.ok.inj h)
      obtain ⟨hList, rfl⟩ := Header.mk.inj hHeader
      rw [if_pos (of_decide_eq_true hList)] at hRead
      exact ⟨hLen.eq_write hRead, hFits⟩
    · cases h
  · rintro ⟨rfl, hFits⟩
    obtain ⟨first, tail, hWrite, hFirst, -⟩ :=
      Rlp.length_write_cons (show 0xc0 + 63 < 256 by decide) RlpCodes.bad n
    have hRead := hLen.read_write n rest
    -- a length written for a list starts at `0xc0` or above
    have hBig : (0xc0 : UInt8) ≤ first := UInt8.le_iff_toNat_le.mpr hFirst
    have hNot : ¬ first < 0x80 := by
      rw [UInt8.lt_iff_toNat_lt]
      exact Nat.not_lt.mpr (Nat.le_trans (by decide) hFirst)
    unfold RlpCodes.headerDecode RlpCodes.headerEncode
    simp only [if_true, hWrite, List.cons_append] at hRead ⊢
    simp only [hNot, if_false, hBig, if_true, hRead, hFits, decide_true]

/-- Real RLP is canonical. -/
theorem rlpAlloy_canonical : (rlpAlloy keccak256 recoverLowS addressOfPubkey).Canonical where
  header_read n rest hFits := headerDecode_list_iff.mpr ⟨rfl, hFits⟩
  header_eq h := (headerDecode_list_iff.mp h).1
  header_first n := by
    obtain ⟨first, rest, hWrite, hFirst, -⟩ :=
      Rlp.length_write_cons (show 0xc0 + 63 < 256 by decide) RlpCodes.bad n
    exact ⟨first, rest, hWrite, UInt8.le_iff_toNat_le.mpr hFirst⟩
  u64 := RlpCodes.lawful_u64
  u8 := RlpCodes.lawful_u8
  fields_read tx rest := by
    have hRead := RlpCodes.lawful_legacyFields.read_write (RlpCodes.legacyTuple tx) rest
    simp only [rlpAlloy, hRead]
    rfl
  fields_eq := by
    intro input tx rest h
    simp only [rlpAlloy] at h ⊢
    split at h
    · cases h
    rename_i hRead
    obtain ⟨rfl, rfl⟩ := Prod.mk.inj (Except.ok.inj h)
    exact ⟨RlpCodes.lawful_legacyFields.eq_write hRead, rfl⟩
  fields_chainId _ _ := rfl
  eip2930 := RlpCodes.lawful_record RlpCodes.lawful_eip2930Fields
  eip1559 := RlpCodes.lawful_record RlpCodes.lawful_eip1559Fields
  legacy_preimage tx := by
    obtain ⟨chainId, nonce, gasPrice, gasLimit, kind, value, input⟩ := tx
    cases chainId <;> rfl
  eip2930_preimage _ := rfl
  eip1559_preimage _ := rfl
  legacy_hash _ := rfl
  eip2930_hash _ := rfl
  eip1559_hash _ := rfl

/-- A low s is left alone. -/
theorem normalizedS_idem (sig : Signature) : sig.normalizedS.normalizedS = sig.normalizedS := by
  by_cases hLow : sig.s.val ≤ secp256k1NHalf
  · have hEq : sig.normalizedS = sig := if_pos hLow
    rw [hEq, hEq]
  · -- the twin of a high s is low: the order is twice its half and one
    have hTwin : secp256k1N - sig.s.val ≤ secp256k1NHalf := by
      unfold secp256k1N secp256k1NHalf at *
      omega
    have hEq : sig.normalizedS =
        { sig with s := ⟨secp256k1N - sig.s.val, secp256k1N_sub_lt sig⟩, v := !sig.v } :=
      if_neg hLow
    rw [hEq, Signature.normalizedS, if_pos hTwin]

/-- Real RLP gives signed forms that round-trip. -/
theorem rlpAlloy_signedForms : (rlpAlloy keccak256 recoverLowS addressOfPubkey).SignedForms where
  legacy_first signed := by
    obtain ⟨first, rest, hWrite, hFirst, -⟩ := Rlp.length_write_cons
      (show 0xc0 + 63 < 256 by decide) RlpCodes.bad _
    exact ⟨first, _, congrArg (· ++ _) hWrite, UInt8.le_iff_toNat_le.mpr hFirst⟩
  legacy_read signed := by
    have hRead := RlpCodes.lawful_legacySigned.read_write signed []
    rwa [List.append_nil] at hRead
  eip2930_read signed := by
    have hRead := (RlpCodes.lawful_typedSigned RlpCodes.lawful_eip2930Fields).read_write signed []
    rw [List.append_nil] at hRead
    exact ⟨_, rfl, hRead⟩
  eip1559_read signed := by
    have hRead := (RlpCodes.lawful_typedSigned RlpCodes.lawful_eip1559Fields).read_write signed []
    rw [List.append_nil] at hRead
    exact ⟨_, rfl, hRead⟩
  recover_normalized sig hash := by
    show recoverLowS sig.normalizedS hash = recoverLowS sig.normalizedS.normalizedS hash
    rw [normalizedS_idem]
  legacy_signer _ := rfl
  eip2930_signer _ := rfl
  eip1559_signer _ := rfl

end

-- ---------------------------------------------------------------------------
-- One transfer, with its real hashes and signatures
-- ---------------------------------------------------------------------------

namespace Sample

/-- A transfer of a gwei on Sepolia. -/
def tx : TxEip1559 where
  chainId := 11155111
  nonce := 0
  gasLimit := 21000
  maxFeePerGas := 3
  maxPriorityFeePerGas := 2
  kind := .Call (.repeatByte 20 0x11)
  value := 1000000000
  accessList := []
  input := []

/-- Its signature hash. -/
def signingHash : B256 :=
  .ofNat 32 0xadce2a223d91bec42b46bb928ed3e78990fabecad9b8d764e21be71e8ea0478a

/-- The address of the key `0x0101…01`. -/
def sender : Address := .ofNat 20 0x1a642f0e3c3af545e7acbd38b07251b3990914f1

/-- That key's low-s signature of the transfer. -/
def lowS : Signature where
  r := 0x544e77a4dbfad982648d8e4c293bc8bb5185e04417b4b073d7155c4ee55a1350
  s := 0x4f13b0dce12a159a537b3ac9791107544b8c403ab6ef3d14689a7ddbca28f181
  v := true

/-- Its high-s twin. -/
def highS : Signature where
  r := 0x544e77a4dbfad982648d8e4c293bc8bb5185e04417b4b073d7155c4ee55a1350
  s := 0xb0ec4f231ed5ea65ac84c53686eef8aa6f229cabf85963275737e0b1060d4fc0
  v := false

/-- The transfer's signing preimage. -/
def preimage : Bytes := 0x02 :: (RlpCodes.record RlpCodes.eip1559Fields).write tx

example : preimage = (FixedBytes.ofNat 40
    0x02e683aa36a7800203825208941111111111111111111111111111111111111111843b9aca0080c0).bytes := by
  decide +kernel

/-- The transfer's signed form. -/
def rawOf (sig : Signature) : Bytes :=
  0x02 :: (RlpCodes.typedSigned RlpCodes.eip1559Fields).write ⟨tx, sig⟩

/-- keccak256 on the transfer's preimage and its two signed forms. -/
def keccak256 (m : Bytes) : B256 :=
  if m = preimage then signingHash
  else if m = rawOf lowS then
    .ofNat 32 0x6133aaaa926edd010f879085ce010db670e6702b0ad792c57f38d0c12f0ff039
  else if m = rawOf highS then
    .ofNat 32 0x78d84a77ec0fdf1bb3b067c561f24a5eec349f33a966d2cd7638ae3dc3f8324f
  else .repeatByte 32 0

/-- Recovery of the one signature. -/
def recoverLowS (sig : Signature) (hash : B256) : Option Address :=
  if sig = lowS ∧ hash = signingHash then some sender else none

/-- The key `0x0101…01`, compressed. -/
def pubkey : PubkeySec1 where
  bytes := (FixedBytes.ofNat 33
    0x031b84c5567b126440995d3ed5aaba0565d71e1834604819ff9c17f5e9d5dd078f).bytes
  length_eq := (FixedBytes.ofNat 33 _).length_eq
  parity := by decide

/-- Alloy, as far as this transfer needs it. -/
def alloy : Alloy :=
  rlpAlloy keccak256 recoverLowS fun pk => if pk = pubkey then some sender else none

end Sample

end Sovra.Eth
