import Sovra.Mpc.Types

/-!
# Sovra — the signed, sealed relay envelope

`sovra-mpc`'s `envelope.rs`. Every round message travels as one
`SignedEnvelope`: a fixed 49-byte routing header, a payload, and an ed25519
signature over `header ‖ SHA-512(payload)`. A p2p payload is sealed to its
recipient with the header as associated data; a broadcast payload is plain.

The primitives are third-party code, so they are a parameter (`Crypto`); what
the envelope layer does with them is the source's. The field names `from`,
`to` and `instance` are Lean keywords and read `sender`, `recipient`, `inst`.

* `headerBytes_injective`, `signingPreimage_injective` — nothing a signature
  covers can change without changing the signed bytes.
* `unseal_mkSealed` — the addressee opens an honest seal to the plaintext it
  was made from.
-/

namespace Sovra.Mpc

/-- What `envelope.rs` calls from ed25519-dalek, sha2, x25519-dalek and
chacha20poly1305. Public x25519 keys and shared secrets are their 32 bytes. -/
structure Crypto where
  SigningKey : Type
  VerifyingKey : Type
  Signature : Type
  X25519Secret : Type
  verifyingKey : SigningKey → VerifyingKey
  signBytes : SigningKey → Bytes → Signature
  verifyStrict : VerifyingKey → Bytes → Signature → Bool
  sha512 : Bytes → FixedBytes 64
  toMontgomery : VerifyingKey → B256
  toScalarBytes : SigningKey → X25519Secret
  publicOf : X25519Secret → B256
  diffieHellman : X25519Secret → B256 → B256
  wasContributory : B256 → Bool
  encrypt : B256 → FixedBytes 24 → Bytes → Bytes → Option Bytes
  decrypt : B256 → FixedBytes 24 → Bytes → Bytes → Option Bytes

/-- What makes a sealed box open: X25519 commutes, an ed25519 key pair maps to
an x25519 key pair, and the AEAD decrypts what it encrypted. -/
structure Crypto.SealedBox (C : Crypto) : Prop where
  dh_comm : ∀ a b, C.diffieHellman a (C.publicOf b) = C.diffieHellman b (C.publicOf a)
  toMontgomery_eq : ∀ sk, C.toMontgomery (C.verifyingKey sk) = C.publicOf (C.toScalarBytes sk)
  decrypt_encrypt : ∀ {k n aad msg ct}, C.encrypt k n aad msg = some ct →
    C.decrypt k n aad ct = some msg

/-- `b"SOVRA-ENV-V1"`. -/
def domain : Bytes :=
  [0x53, 0x4f, 0x56, 0x52, 0x41, 0x2d, 0x45, 0x4e, 0x56, 0x2d, 0x56, 0x31]

/-- `b"SOVRA-SEAL-V1"`. -/
def sealDomain : Bytes :=
  [0x53, 0x4f, 0x56, 0x52, 0x41, 0x2d, 0x53, 0x45, 0x41, 0x4c, 0x2d, 0x56, 0x31]

/-- XChaCha20-Poly1305's nonce. -/
def nonceLen : Nat := 24
/-- An X25519 public key. -/
def ephPkLen : Nat := 32

/-- `Envelope`: the header of a message and its payload. -/
structure Envelope where
  inst : B256
  op : UInt8
  round : UInt8
  sender : UInt8
  recipient : UInt8
  payload : Bytes
  sealed : Bool
deriving DecidableEq

/-- An envelope plus its sender's signature: the only thing that crosses a
relay. -/
structure SignedEnvelope (C : Crypto) where
  env : Envelope
  sig : C.Signature

/-- The two values `Envelope::sealed` draws from the OS generator. -/
structure SealRandomness (C : Crypto) where
  eph : C.X25519Secret
  nonce : FixedBytes 24

section

variable {C : Crypto}

-- ---------------------------------------------------------------------------
-- Signing and verifying
-- ---------------------------------------------------------------------------

/-- `header_bytes`: the routing header; doubles as the seal's associated data
and the wire prefix. -/
def Envelope.headerBytes (e : Envelope) : Bytes :=
  domain ++ e.inst.bytes ++
    [e.op, e.round, e.sender, e.recipient, if e.sealed then 1 else 0]

/-- `signing_preimage`: header ‖ SHA-512(payload). -/
def Envelope.signingPreimage (C : Crypto) (e : Envelope) : Bytes :=
  e.headerBytes ++ (C.sha512 e.payload).bytes

/-- `Envelope::sign`. -/
def Envelope.sign (e : Envelope) (sk : C.SigningKey) : SignedEnvelope C :=
  ⟨e, C.signBytes sk (e.signingPreimage C)⟩

/-- `SignedEnvelope::verify` against the pinned roster. -/
def SignedEnvelope.verify (s : SignedEnvelope C) (roster : List C.VerifyingKey) :
    Except MpcError Unit :=
  match roster[s.env.sender.toNat]? with
  | none => .error (.envelopeAuth ("sender " ++ toString s.env.sender.toNat ++
      " is not in the " ++ toString roster.length ++ "-party roster"))
  | some vk =>
    if C.verifyStrict vk (s.env.signingPreimage C) s.sig then .ok ()
    else .error (.envelopeAuth ("bad signature on envelope claiming party " ++
      toString s.env.sender.toNat))

-- ---------------------------------------------------------------------------
-- Sealing and opening
-- ---------------------------------------------------------------------------

/-- `box_key`: the first half of SHA-512 over the ECDH output and both public
keys. -/
def boxKey (C : Crypto) (shared ephPk recipientPk : B256) : B256 :=
  ⟨(C.sha512 (sealDomain ++ shared.bytes ++ ephPk.bytes ++ recipientPk.bytes)).bytes.take 32,
    by simp [FixedBytes.length_eq]⟩

/-- `Envelope::broadcast`: a plaintext envelope. -/
def Envelope.mkBroadcast (inst : B256) (op round sender recipient : UInt8)
    (payload : Bytes) : Envelope :=
  { inst, op, round, sender, recipient, payload, sealed := false }

/-- `Envelope::sealed`: a p2p envelope only the holder of `recipientVk` can
open. -/
def Envelope.mkSealed (rnd : SealRandomness C) (inst : B256)
    (op round sender recipient : UInt8) (recipientVk : C.VerifyingKey)
    (plaintext : Bytes) : Except MpcError Envelope :=
  let env : Envelope := { inst, op, round, sender, recipient, payload := [], sealed := true }
  let ephPk := C.publicOf rnd.eph
  let recipientPk := C.toMontgomery recipientVk
  let shared := C.diffieHellman rnd.eph recipientPk
  if C.wasContributory shared then
    match C.encrypt (boxKey C shared ephPk recipientPk) rnd.nonce env.headerBytes plaintext with
    | none => .error (.envelopeAuth "sealing failed")
    | some ciphertext =>
      .ok { env with payload := ephPk.bytes ++ rnd.nonce.bytes ++ ciphertext }
  else
    .error (.envelopeAuth ("party " ++ toString recipient.toNat ++
      "'s pinned key maps to a non-contributory x25519 point"))

/-- `Envelope::open`. -/
def Envelope.unseal (e : Envelope) (sk : C.SigningKey) : Except MpcError Bytes :=
  if !e.sealed then
    .error (.envelopeAuth "open() on a plaintext envelope")
  else if hLen : e.payload.length < ephPkLen + nonceLen then
    .error (.envelopeAuth "sealed payload truncated")
  else
    let rest := e.payload.drop ephPkLen
    let ephPk : B256 := ⟨e.payload.take ephPkLen, by
      rw [List.length_take]; unfold ephPkLen nonceLen at *; omega⟩
    let nonce : FixedBytes 24 := ⟨rest.take nonceLen, by
      rw [List.length_take, List.length_drop]; unfold ephPkLen nonceLen at *; omega⟩
    let ciphertext := rest.drop nonceLen
    let secret := C.toScalarBytes sk
    let shared := C.diffieHellman secret ephPk
    if C.wasContributory shared then
      match C.decrypt (boxKey C shared ephPk (C.publicOf secret)) nonce e.headerBytes ciphertext with
      | some plaintext => .ok plaintext
      | none => .error (.envelopeAuth "unsealing failed — tampered or misaddressed")
    else
      .error (.envelopeAuth "non-contributory ephemeral key")

-- ---------------------------------------------------------------------------
-- What the signature and the seal bind
-- ---------------------------------------------------------------------------

/-- The header's flag byte says which kind it is. -/
theorem sealedByte_injective {a b : Bool}
    (h : (if a then (1 : UInt8) else 0) = if b then 1 else 0) : a = b := by
  revert h
  cases a <;> cases b <;> decide

/-- The header has one length: domain, instance and five bytes. -/
theorem headerBytes_length (e : Envelope) : e.headerBytes.length = 49 := by
  simp [Envelope.headerBytes, domain, e.inst.length_eq]

/-- The header determines every field but the payload. -/
theorem headerBytes_injective {e e' : Envelope} (h : e.headerBytes = e'.headerBytes) :
    e = { e' with payload := e.payload } := by
  unfold Envelope.headerBytes at h
  rw [List.append_assoc, List.append_assoc] at h
  have hRest := List.append_cancel_left h
  obtain ⟨hInst, hTail⟩ :=
    List.append_inj hRest (by rw [e.inst.length_eq, e'.inst.length_eq])
  simp only [List.cons.injEq, and_true] at hTail
  obtain ⟨hOp, hRound, hFrom, hTo, hSealed⟩ := hTail
  have hInst' : e.inst = e'.inst := FixedBytes.ext hInst
  have hSealed' : e.sealed = e'.sealed := sealedByte_injective hSealed
  cases e
  cases e'
  simp_all

/-- Where SHA-512 has no collision, the signed bytes determine the envelope. -/
theorem signingPreimage_injective {e e' : Envelope}
    (hSha : C.sha512 e.payload = C.sha512 e'.payload → e.payload = e'.payload)
    (h : e.signingPreimage C = e'.signingPreimage C) : e = e' := by
  obtain ⟨hHead, hHash⟩ := List.append_inj h (by rw [headerBytes_length, headerBytes_length])
  have hPayload := hSha (FixedBytes.ext hHash)
  rw [headerBytes_injective hHead, hPayload]

/-- An envelope `mkSealed` returned carries the fields it was given. -/
theorem mkSealed_fields {rnd : SealRandomness C} {inst : B256} {op round sender recipient : UInt8}
    {vk : C.VerifyingKey} {plaintext : Bytes} {e : Envelope}
    (h : Envelope.mkSealed rnd inst op round sender recipient vk plaintext = .ok e) :
    e = { inst, op, round, sender, recipient, payload := e.payload, sealed := true } := by
  unfold Envelope.mkSealed at h
  simp only at h
  split at h
  · split at h
    · cases h
    · rw [← Except.ok.inj h]
  · cases h

/-- **Sealed round trip.** The holder of the key a payload was sealed to opens
it to the plaintext. -/
theorem unseal_mkSealed (hBox : C.SealedBox) {rnd : SealRandomness C} {inst : B256}
    {op round sender recipient : UInt8} {sk : C.SigningKey} {plaintext : Bytes} {e : Envelope}
    (hSeal : Envelope.mkSealed rnd inst op round sender recipient (C.verifyingKey sk)
      plaintext = .ok e) : e.unseal sk = .ok plaintext := by
  unfold Envelope.mkSealed at hSeal
  simp only [hBox.toMontgomery_eq, hBox.dh_comm rnd.eph] at hSeal
  split at hSeal
  case isFalse => cases hSeal
  rename_i hContributory
  split at hSeal
  case h_1 => cases hSeal
  rename_i ciphertext hEnc
  rw [← Except.ok.inj hSeal]
  -- the three slices `open` cuts are the ones `sealed` concatenated
  have hPk : (C.publicOf rnd.eph).bytes.length = 32 := (C.publicOf rnd.eph).length_eq
  have hNonce : rnd.nonce.bytes.length = 24 := rnd.nonce.length_eq
  have hTake : ((C.publicOf rnd.eph).bytes ++ rnd.nonce.bytes ++ ciphertext).take 32 =
      (C.publicOf rnd.eph).bytes := by
    rw [List.append_assoc, List.take_left' hPk]
  have hDrop : ((C.publicOf rnd.eph).bytes ++ rnd.nonce.bytes ++ ciphertext).drop 32 =
      rnd.nonce.bytes ++ ciphertext := by
    rw [List.append_assoc, List.drop_left' hPk]
  have hLong : ¬ ((C.publicOf rnd.eph).bytes ++ rnd.nonce.bytes ++ ciphertext).length < 32 + 24 := by
    simp only [List.length_append, hPk, hNonce]
    omega
  have hDec := hBox.decrypt_encrypt hEnc
  simp only [Envelope.headerBytes, if_true] at hDec
  simp only [Envelope.unseal, Bool.not_true, Bool.false_eq_true, if_false, hLong, dite_false,
    ephPkLen, nonceLen, hTake, hDrop, List.take_left' hNonce, List.drop_left' hNonce,
    hContributory, if_true, Envelope.headerBytes, hDec]

end

end Sovra.Mpc
