import Sovra.Mpc.Frame
import Sovra.State.Store

/-!
# Sovra — sealing at rest

`XChaChaSealer` of `sovra-state`'s `types.rs`: `SVR1`, a 24-byte nonce and an
AEAD ciphertext. The absence of the prefix is a hard error on `open`, never a
fallback to plaintext. The cipher is third-party code and a parameter.

* `xchacha_roundTrip` — a sealed shard opens to what was sealed.
* `xchacha_unprefixed` — bytes without the prefix never open.
-/

namespace Sovra.State

/-- `XChaCha20Poly1305` as the sealer calls it: a key, a nonce and no associated
data. -/
structure XChaCha20Poly1305 where
  encrypt : B256 → FixedBytes 24 → Bytes → Option Bytes
  decrypt : B256 → FixedBytes 24 → Bytes → Option Bytes

/-- The AEAD decrypts what it encrypted. -/
def XChaCha20Poly1305.RoundTrips (X : XChaCha20Poly1305) : Prop :=
  ∀ {k n msg ct}, X.encrypt k n msg = some ct → X.decrypt k n ct = some msg

/-- `b"SVR1"`. -/
def sealMagic : Bytes := [0x53, 0x56, 0x52, 0x31]

/-- `NONCE_LEN`. -/
def nonceLen : Nat := 24

/-- `strip_prefix`. -/
def stripPrefix (magic bytes : Bytes) : Option Bytes :=
  if bytes.take magic.length = magic then some (bytes.drop magic.length) else none

/-- `XChaChaSealer`; the nonce is what the OS generator fills in. -/
def xchachaSealer (X : XChaCha20Poly1305) (key : B256) : ShardSealer where
  sealBytes nonce plaintext :=
    let nonce := FixedBytes.fromSlice nonceLen nonce
    match X.encrypt key nonce plaintext with
    | none => .error .Seal
    | some ciphertext => .ok (sealMagic ++ nonce.bytes ++ ciphertext)
  openBytes sealed :=
    match stripPrefix sealMagic sealed with
    | none => .error .Seal
    | some rest =>
      if rest.length < nonceLen then .error .Seal
      else
        match X.decrypt key (.fromSlice nonceLen (rest.take nonceLen)) (rest.drop nonceLen) with
        | none => .error .Seal
        | some plaintext => .ok plaintext

/-- A prefix that was put in front comes off. -/
theorem stripPrefix_append (magic rest : Bytes) : stripPrefix magic (magic ++ rest) = some rest := by
  unfold stripPrefix
  rw [if_pos List.take_left, List.drop_left]

/-- Two prefixes of one length exclude each other. -/
theorem stripPrefix_other {magic magic' rest : Bytes} (hLength : magic.length = magic'.length)
    (hNe : magic' ≠ magic) : stripPrefix magic (magic' ++ rest) = none := by
  have hTake : (magic' ++ rest).take magic.length = magic' := by
    rw [hLength]
    exact List.take_left
  unfold stripPrefix
  rw [hTake, if_neg hNe]

/-- Without the magic nothing is opened. -/
theorem xchacha_unprefixed {X : XChaCha20Poly1305} {key : B256} {bytes : Bytes}
    (h : stripPrefix sealMagic bytes = none) :
    (xchachaSealer X key).openBytes bytes = .error .Seal := by
  simp only [xchachaSealer, h]

/-- What was sealed opens to what it was. -/
theorem xchacha_roundTrip {X : XChaCha20Poly1305} (hX : X.RoundTrips) {key : B256}
    {nonce plaintext sealed : Bytes}
    (h : (xchachaSealer X key).sealBytes nonce plaintext = .ok sealed) :
    (xchachaSealer X key).openBytes sealed = .ok plaintext := by
  simp only [xchachaSealer] at h
  split at h
  · simp at h
  rename_i ciphertext hEncrypt
  rw [Except.ok.injEq, List.append_assoc] at h
  have hNonce : (FixedBytes.fromSlice nonceLen nonce).bytes.length = nonceLen :=
    (FixedBytes.fromSlice nonceLen nonce).length_eq
  have hTake : ((FixedBytes.fromSlice nonceLen nonce).bytes ++ ciphertext).take nonceLen =
      (FixedBytes.fromSlice nonceLen nonce).bytes := List.take_left' hNonce
  have hDrop : ((FixedBytes.fromSlice nonceLen nonce).bytes ++ ciphertext).drop nonceLen =
      ciphertext := List.drop_left' hNonce
  have hLong : ¬ ((FixedBytes.fromSlice nonceLen nonce).bytes ++ ciphertext).length < nonceLen := by
    rw [List.length_append, hNonce]
    omega
  rw [← h]
  simp only [xchachaSealer, stripPrefix_append, if_neg hLong, hTake, hDrop,
    FixedBytes.fromSlice_bytes, hX hEncrypt]

end Sovra.State
