import Sovra.Eth.Encoding

/-!
# Sovra — finalize

`sovra-eth`'s `finalize.rs`: attach a signature to a prepared transaction,
recover the signer, and emit broadcast-ready bytes. Signatures reach it as the
MPC layer produced them; nothing bounds `s`, neither here nor in the broadcast
gate, which recovers the signer in the same way from the decoded transaction.

* `finalize_ok` — what a successful finalize establishes.
* `finalize_accepted` — the broadcast gate accepts what finalize emits.
* `finalize_twin` — and the same transaction once more, with the other s.
-/

namespace Sovra.Eth

variable (A : Alloy)

/-- The EIP-2718 bytes of `into_envelope(signature)`; legacy is bare RLP. -/
def EthTx.encodedSigned (tx : EthTx) (sig : Signature) : Bytes :=
  match tx with
  | .Legacy tx => A.legacy.encodedSigned ⟨tx, sig⟩
  | .Eip2930 tx => A.eip2930.encodedSigned ⟨tx, sig⟩
  | .Eip1559 tx => A.eip1559.encodedSigned ⟨tx, sig⟩

/-- The envelope's transaction hash. -/
def EthTx.signedHash (tx : EthTx) (sig : Signature) : B256 :=
  match tx with
  | .Legacy tx => A.legacy.signedHash ⟨tx, sig⟩
  | .Eip2930 tx => A.eip2930.signedHash ⟨tx, sig⟩
  | .Eip1559 tx => A.eip1559.signedHash ⟨tx, sig⟩

/-- `finalize`: the signature must be the expected signer's. -/
def finalize (preparedTx : PreparedTx) (r s : U256) (yParity : Bool) (expectedFrom : Address) :
    Except FinalizeError SignedTx :=
  let signature : Signature := ⟨r, s, yParity⟩
  match A.recoverAddressFromPrehash signature preparedTx.signingHash with
  | none => .error .Recovery
  | some recovered =>
    if recovered ≠ expectedFrom then .error (.AddressMismatch expectedFrom recovered)
    else .ok ⟨preparedTx.tx.encodedSigned A signature, preparedTx.tx.signedHash A signature,
      recovered⟩

variable {A}

/-- A finalized transaction is the signed form of the prepared one, by the
expected signer. -/
theorem finalize_ok {p : PreparedTx} {r s : U256} {v : Bool} {expectedFrom : Address}
    {signed : SignedTx} (h : finalize A p r s v expectedFrom = .ok signed) :
    A.recoverAddressFromPrehash ⟨r, s, v⟩ p.signingHash = some expectedFrom ∧
      signed = ⟨p.tx.encodedSigned A ⟨r, s, v⟩, p.tx.signedHash A ⟨r, s, v⟩, expectedFrom⟩ := by
  unfold finalize at h
  simp only at h
  -- recovery fails, or gives somebody else, or the signer that was expected
  split at h
  · cases h
  rename_i recovered hRecover
  split at h
  · cases h
  rename_i hMatch
  rw [not_not] at hMatch
  subst hMatch
  exact ⟨hRecover, (Except.ok.inj h).symm⟩

-- ---------------------------------------------------------------------------
-- The broadcast gate on finalized bytes
-- ---------------------------------------------------------------------------

/-- Decoding a signed form recovers the signer of the decoded transaction. -/
theorem decodeSigned_encodedSigned (hA : A.SignedForms) (tx : EthTx) (sig : Signature) :
    decodeSigned A (tx.encodedSigned A sig) =
      match A.recoverAddressFromPrehash sig (tx.signatureHash A) with
      | none => .error .Recovery
      | some sender => .ok ⟨tx.encodedSigned A sig, tx.signedHash A sig, sender⟩ := by
  -- each type's bytes go to its own decoder; what that reads is what was signed
  cases tx with
  | Legacy tx =>
    obtain ⟨first, rest, hRaw, hFirst⟩ := hA.legacy_first ⟨tx, sig⟩
    have hDec := decodeStrict_ok_iff.mpr (hA.legacy_read ⟨tx, sig⟩)
    show decodeSigned A (A.legacy.encodedSigned ⟨tx, sig⟩) = _
    rw [hRaw] at hDec
    rw [decodeSigned, hRaw, decodeDispatch_list hFirst, hDec, ← hRaw]
    show toSignedTx A.legacy _ _ = _
    rw [toSignedTx, hA.legacy_signer]
    rfl
  | Eip2930 tx =>
    obtain ⟨payload, hRaw, hRead⟩ := hA.eip2930_read ⟨tx, sig⟩
    have hDec := decodeStrict_ok_iff.mpr hRead
    show decodeSigned A (A.eip2930.encodedSigned ⟨tx, sig⟩) = _
    rw [decodeSigned, hRaw, decodeDispatch, if_pos rfl, hDec, ← hRaw]
    show toSignedTx A.eip2930 _ _ = _
    rw [toSignedTx, hA.eip2930_signer]
    rfl
  | Eip1559 tx =>
    obtain ⟨payload, hRaw, hRead⟩ := hA.eip1559_read ⟨tx, sig⟩
    have hDec := decodeStrict_ok_iff.mpr hRead
    show decodeSigned A (A.eip1559.encodedSigned ⟨tx, sig⟩) = _
    rw [decodeSigned, hRaw, decodeDispatch, if_neg (by decide), if_pos rfl, hDec, ← hRaw]
    show toSignedTx A.eip1559 _ _ = _
    rw [toSignedTx, hA.eip1559_signer]
    rfl

/-- The other signature of the same digest and signer: s negated, parity
flipped. -/
def Signature.twin (sig : Signature) : Signature :=
  { sig with s := ⟨secp256k1N - sig.s.val, secp256k1N_sub_lt sig⟩, v := !sig.v }

/-- The twin of a low s is high, and normalizes back to it. -/
theorem normalizedS_twin {sig : Signature} (hLow : sig.s.val ≤ secp256k1NHalf) :
    sig.twin.normalizedS = sig := by
  have hHigh : ¬ sig.twin.s.val ≤ secp256k1NHalf := by
    show ¬ secp256k1N - sig.s.val ≤ secp256k1NHalf
    unfold secp256k1N secp256k1NHalf at *
    omega
  have hBack : secp256k1N - (secp256k1N - sig.s.val) = sig.s.val := by
    unfold secp256k1N secp256k1NHalf at *
    omega
  rw [Signature.normalizedS, if_neg hHigh]
  obtain ⟨r, s, v⟩ := sig
  simp only [Signature.twin, hBack, Bool.not_not]

/-- Every low-s signature finalize accepts has a twin it accepts too, and so does
the broadcast gate. -/
theorem finalize_twin (hA : A.SignedForms) {tx : EthTx} {sig : Signature} {expectedFrom : Address}
    {signed : SignedTx} (hLow : sig.s.val ≤ secp256k1NHalf)
    (h : finalize A ⟨tx, tx.signatureHash A⟩ sig.r sig.s sig.v expectedFrom = .ok signed) :
    ∃ signed', finalize A ⟨tx, tx.signatureHash A⟩ sig.twin.r sig.twin.s sig.twin.v expectedFrom =
      .ok signed' ∧ decodeSigned A signed'.raw = .ok signed' := by
  have hRecover : A.recoverAddressFromPrehash sig.twin (tx.signatureHash A) = some expectedFrom := by
    rw [hA.recover_normalized, normalizedS_twin hLow]
    exact (finalize_ok h).1
  refine ⟨⟨tx.encodedSigned A sig.twin, tx.signedHash A sig.twin, expectedFrom⟩, ?_, ?_⟩
  · rw [finalize]
    simp only [hRecover, ne_eq, not_true_eq_false, if_false]
  · rw [decodeSigned_encodedSigned hA, hRecover]

/-- **What the signing gate emits, the broadcast gate accepts.** Of a validated
transaction under its own hash, whatever the signature: if finalize returns a
signed transaction, its bytes decode to it, with the same hash and signer. -/
theorem finalize_accepted (A : Alloy) (hA : A.SignedForms) (p : PreparedTx) (r s : U256)
    (yParity : Bool) (expectedFrom : Address) (signed : SignedTx)
    (_hValid : validateUnsigned p.tx = .ok ()) (hHash : p.signingHash = p.tx.signatureHash A)
    (hFinal : finalize A p r s yParity expectedFrom = .ok signed) :
    decodeSigned A signed.raw = .ok signed := by
  obtain ⟨hRecover, rfl⟩ := finalize_ok hFinal
  rw [hHash] at hRecover
  rw [decodeSigned_encodedSigned hA, hRecover]

/-- The transfer, finalized with either of the two signatures of its digest. -/
theorem finalize_accepted_both :
    let low : SignedTx := ⟨Sample.rawOf Sample.lowS,
      .ofNat 32 0x6133aaaa926edd010f879085ce010db670e6702b0ad792c57f38d0c12f0ff039, Sample.sender⟩
    let high : SignedTx := ⟨Sample.rawOf Sample.highS,
      .ofNat 32 0x78d84a77ec0fdf1bb3b067c561f24a5eec349f33a966d2cd7638ae3dc3f8324f, Sample.sender⟩
    low.raw ≠ high.raw ∧ decodeSigned Sample.alloy low.raw = .ok low ∧
      decodeSigned Sample.alloy high.raw = .ok high := by
  intro low high
  have hHash : Sample.signingHash = (EthTx.Eip1559 Sample.tx).signatureHash Sample.alloy := by
    decide +kernel
  have hLow : finalize Sample.alloy ⟨.Eip1559 Sample.tx, Sample.signingHash⟩ Sample.lowS.r
      Sample.lowS.s Sample.lowS.v Sample.sender = .ok low := by
    decide +kernel
  have hHigh : finalize Sample.alloy ⟨.Eip1559 Sample.tx, Sample.signingHash⟩ Sample.highS.r
      Sample.highS.s Sample.highS.v Sample.sender = .ok high := by
    decide +kernel
  exact ⟨by decide +kernel,
    finalize_accepted Sample.alloy rlpAlloy_signedForms _ _ _ _ _ low (by decide) hHash hLow,
    finalize_accepted Sample.alloy rlpAlloy_signedForms _ _ _ _ _ high (by decide) hHash hHigh⟩

end Sovra.Eth
