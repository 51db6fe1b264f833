import Sovra.Lib.Guard
import Sovra.Mpc.Exchange
import Sovra.Mpc.Frame

/-!
# Sovra — the slice conversions of `envelope.rs`

`open` and `decode` cut their input with `split_at`, indexing and
`try_into().expect(..)`, each of which panics on a wrong length. Here are the two
functions with those panics, as the source writes them.

* `openOrPanic_eq`, `decodeOrPanic_eq` — the lengths always fit: these are
  `Envelope.unseal` and `SignedEnvelope.decode`.
-/

namespace Sovra.Mpc

open Lib

/-- `bytes.split_at(n)`. -/
def splitAt (bytes : Bytes) (n : Nat) : Except Halt (Bytes × Bytes) :=
  if n ≤ bytes.length then .ok (bytes.take n, bytes.drop n) else .error .panic

/-- `<[u8; n]>::try_from(bytes).expect(..)`, also behind `from_slice`. -/
def toArray (n : Nat) (bytes : Bytes) : Except Halt (FixedBytes n) :=
  if h : bytes.length = n then .ok ⟨bytes, h⟩ else .error .panic

/-- `bytes[i]`. -/
def byteAt (bytes : Bytes) (i : Nat) : Except Halt UInt8 :=
  match bytes[i]? with
  | some b => .ok b
  | none => .error .panic

/-- Splitting within bounds does not panic. -/
theorem splitAt_ok {bytes : Bytes} {n : Nat} (h : n ≤ bytes.length) :
    splitAt bytes n = .ok (bytes.take n, bytes.drop n) := if_pos h

/-- Converting bytes of the right length does not panic. -/
theorem toArray_ok {n : Nat} {bytes : Bytes} (h : bytes.length = n) :
    toArray n bytes = .ok ⟨bytes, h⟩ := dif_pos h

/-- Indexing within bounds does not panic. -/
theorem byteAt_ok {bytes : Bytes} {i : Nat} (h : i < bytes.length) :
    byteAt bytes i = .ok (bytes.getD i 0) := by
  unfold byteAt
  rw [List.getElem?_eq_getElem h, List.getD_eq_getElem bytes 0 h]

section

variable {C : Crypto}

/-- `Envelope::open`, as the source writes it. -/
def Envelope.openOrPanic (e : Envelope) (sk : C.SigningKey) : Except Halt Bytes := do
  ensure (e.sealed = true) (.error (.envelopeAuth "open() on a plaintext envelope"))
  ensure (¬ e.payload.length < ephPkLen + nonceLen)
    (.error (.envelopeAuth "sealed payload truncated"))
  let (ephPkBytes, rest) ← splitAt e.payload ephPkLen
  let (nonce, ciphertext) ← splitAt rest nonceLen
  let ephPk ← toArray 32 ephPkBytes
  let secret := C.toScalarBytes sk
  let shared := C.diffieHellman secret ephPk
  ensure (C.wasContributory shared = true)
    (.error (.envelopeAuth "non-contributory ephemeral key"))
  let nonce ← toArray 24 nonce
  match C.decrypt (boxKey C shared ephPk (C.publicOf secret)) nonce e.headerBytes ciphertext with
  | some plaintext => return plaintext
  | none => .error (.error (.envelopeAuth "unsealing failed — tampered or misaddressed"))

/-- **`open` never panics.** The length check covers both splits. -/
theorem openOrPanic_eq (e : Envelope) (sk : C.SigningKey) :
    e.openOrPanic sk = (e.unseal sk).mapError Halt.error := by
  unfold Envelope.openOrPanic Envelope.unseal
  by_cases hSealed : e.sealed = true
  swap
  · simp [ensure, hSealed, Except.mapError, bind, Except.bind]
  by_cases hLen : e.payload.length < ephPkLen + nonceLen
  · simp [ensure, hSealed, hLen, Except.mapError, bind, Except.bind]
  -- both splits are within what the check ensured
  have hFirst : splitAt e.payload ephPkLen =
      .ok (e.payload.take ephPkLen, e.payload.drop ephPkLen) := splitAt_ok (by omega)
  have hSecond : splitAt (e.payload.drop ephPkLen) nonceLen =
      .ok ((e.payload.drop ephPkLen).take nonceLen, (e.payload.drop ephPkLen).drop nonceLen) :=
    splitAt_ok (by rw [List.length_drop]; omega)
  have hPk : (e.payload.take ephPkLen).length = 32 := by
    rw [List.length_take]
    unfold ephPkLen nonceLen at *
    omega
  have hNonce : ((e.payload.drop ephPkLen).take nonceLen).length = 24 := by
    rw [List.length_take, List.length_drop]
    unfold ephPkLen nonceLen at *
    omega
  simp only [ensure, hSealed, hLen, hFirst, hSecond, toArray_ok hPk, toArray_ok hNonce,
    Bool.not_true, Bool.false_eq_true, if_false, if_true, not_false_eq_true, dif_neg, bind,
    Except.bind]
  generalize C.diffieHellman (C.toScalarBytes sk) ⟨e.payload.take ephPkLen, hPk⟩ = shared
  by_cases hContributory : C.wasContributory shared = true
  · simp only [hContributory, if_true]
    generalize C.decrypt _ _ _ _ = opened
    rcases opened with _ | plaintext <;> rfl
  · simp only [hContributory]
    rfl

end

section

variable {C : Crypto} (sigBytes : C.Signature ≃ FixedBytes 64)

/-- `&bytes[..n]`. -/
def sliceTo (bytes : Bytes) (n : Nat) : Except Halt Bytes := do
  let (slice, _) ← splitAt bytes n
  return slice

/-- `SignedEnvelope::decode`, as the source writes it. -/
def SignedEnvelope.decodeOrPanic (bytes : Bytes) : Except Halt (SignedEnvelope C) := do
  ensure (¬ bytes.length < headerLen + 4 + sigLen) (.error (malformed "truncated"))
  let (header, rest) ← splitAt bytes headerLen
  let (found, fields) ← splitAt header domain.length
  ensure (found = domain) (.error (malformed "unknown domain/version"))
  match sealedFlag (← byteAt fields 36) with
  | none => .error (.error (malformed "non-canonical sealed flag"))
  | some sealed =>
    let (lenBytes, rest) ← splitAt rest 4
    let len ← toArray 4 lenBytes
    let payloadLen := (fromU32Be len.bytes).toNat
    ensure (rest.length = payloadLen + sigLen) (.error (malformed "length mismatch"))
    let (payload, sig) ← splitAt rest payloadLen
    let inst ← toArray 32 (← sliceTo fields 32)
    let op ← byteAt fields 32
    let round ← byteAt fields 33
    let sender ← byteAt fields 34
    let recipient ← byteAt fields 35
    let sig ← toArray 64 sig
    return ⟨⟨inst, op, round, sender, recipient, payload, sealed⟩, sigBytes.symm sig⟩

/-- A slice within bounds does not panic. -/
theorem sliceTo_ok {bytes : Bytes} {n : Nat} (h : n ≤ bytes.length) :
    sliceTo bytes n = .ok (bytes.take n) := by
  unfold sliceTo
  rw [splitAt_ok h]
  rfl

/-- At the right length `fromSlice` is the conversion. -/
theorem fromSlice_eq {n : Nat} {bytes : Bytes} (h : bytes.length = n) :
    FixedBytes.fromSlice n bytes = ⟨bytes, h⟩ := dif_pos h

/-- **`decode` never panics.** The two length checks cover every split and index. -/
theorem decodeOrPanic_eq (bytes : Bytes) :
    SignedEnvelope.decodeOrPanic sigBytes bytes =
      (SignedEnvelope.decode sigBytes bytes).mapError Halt.error := by
  have hDomain : domain.length = 12 := rfl
  unfold SignedEnvelope.decodeOrPanic SignedEnvelope.decode
  by_cases hLen : bytes.length < headerLen + 4 + sigLen
  · simp [ensure, hLen, Except.mapError, bind, Except.bind]
  -- the first check: header, length and signature fit
  have hTotal : 49 + 4 + 64 ≤ bytes.length := by
    unfold headerLen sigLen at hLen
    omega
  have hHeader : (bytes.take headerLen).length = 49 := by
    rw [List.length_take]
    unfold headerLen
    omega
  have hFields : ((bytes.take headerLen).drop domain.length).length = 37 := by
    rw [List.length_drop, hHeader, hDomain]
  have hRest : (bytes.drop headerLen).length = bytes.length - 49 := by
    rw [List.length_drop]
    rfl
  have hFour : ((bytes.drop headerLen).take 4).length = 4 := by
    rw [List.length_take, hRest]
    omega
  have hInst : (((bytes.take headerLen).drop domain.length).take 32).length = 32 := by
    rw [List.length_take, hFields]
    rfl
  have hSplit : splitAt bytes headerLen = .ok (bytes.take headerLen, bytes.drop headerLen) :=
    splitAt_ok (by unfold headerLen; omega)
  have hSplit' : splitAt (bytes.take headerLen) domain.length =
      .ok ((bytes.take headerLen).take domain.length, (bytes.take headerLen).drop domain.length) :=
    splitAt_ok (by omega)
  have hSplit'' : splitAt (bytes.drop headerLen) 4 =
      .ok ((bytes.drop headerLen).take 4, (bytes.drop headerLen).drop 4) :=
    splitAt_ok (by omega)
  simp only [hSplit, hSplit', hSplit'', bind, Except.bind, toArray_ok hFour, toArray_ok hInst,
    sliceTo_ok (Nat.le_trans (by decide : 32 ≤ 37) hFields.ge),
    byteAt_ok (Nat.lt_of_lt_of_le (by decide : 36 < 37) hFields.ge),
    byteAt_ok (Nat.lt_of_lt_of_le (by decide : 35 < 37) hFields.ge),
    byteAt_ok (Nat.lt_of_lt_of_le (by decide : 34 < 37) hFields.ge),
    byteAt_ok (Nat.lt_of_lt_of_le (by decide : 33 < 37) hFields.ge),
    byteAt_ok (Nat.lt_of_lt_of_le (by decide : 32 < 37) hFields.ge), fromSlice_eq hInst, ensure, hLen,
    not_false_eq_true, if_true, if_false, ne_eq, ite_not]
  by_cases hFound : (bytes.take headerLen).take domain.length = domain
  swap
  · simp only [hFound, if_false]
    rfl
  simp only [hFound, if_true]
  rcases sealedFlag (((bytes.take headerLen).drop domain.length).getD 36 0) with _ | sealed
  · rfl
  by_cases hLength : ((bytes.drop headerLen).drop 4).length =
      (fromU32Be ((bytes.drop headerLen).take 4)).toNat + sigLen
  swap
  · simp only [hLength, if_false]
    rfl
  -- the second check: what is left is payload and signature
  have hPayload := splitAt_ok (n := (fromU32Be ((bytes.drop headerLen).take 4)).toNat)
    (Nat.le_trans (Nat.le_add_right _ sigLen) hLength.ge)
  have hSig : (((bytes.drop headerLen).drop 4).drop
      (fromU32Be ((bytes.drop headerLen).take 4)).toNat).length = 64 := by
    rw [List.length_drop, hLength]
    unfold sigLen
    omega
  simp only [hLength, if_true, hPayload, toArray_ok hSig, fromSlice_eq hSig]
  rfl

end

end Sovra.Mpc
