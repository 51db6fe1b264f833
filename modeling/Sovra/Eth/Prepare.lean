import Sovra.Eth.Types

/-!
# Sovra — prepare and validate

The pure part of `sovra-eth`'s `prepare.rs`. `validate_unsigned` holds for
transactions built here and for transactions supplied as raw bytes alike; its
check order is fixed, so a multiply-invalid transaction reports the same error
everywhere.
-/

namespace Sovra.Eth

/-- The chain-id check of `validate_unsigned`. -/
def validateChainId : Option UInt64 → Except PrepareError Unit
  | none => .error .MissingChainId
  | some id => if id = 0 then .error .ZeroChainId else .ok ()

/-- `validate_unsigned`. -/
def validateUnsigned (tx : EthTx) : Except PrepareError Unit :=
  match validateChainId tx.chainId with
  | .error e => .error e
  | .ok () =>
    if tx.gasLimit = 0 then .error .ZeroGasLimit
    else
      match tx with
      | .Eip1559 tx =>
        if tx.maxPriorityFeePerGas > tx.maxFeePerGas then .error .MaxPriorityFeeExceedsMaxFee
        else .ok ()
      | _ => .ok ()

/-- `prepare`: validate, then hash. -/
def prepare (A : Alloy) (intent : TxIntent) : Except PrepareError PreparedTx :=
  let tx := EthTx.ofIntent intent
  match validateUnsigned tx with
  | .error e => .error e
  | .ok () => .ok ⟨tx, tx.signatureHash A⟩

/-- What validation establishes. -/
theorem validateUnsigned_ok {tx : EthTx} (h : validateUnsigned tx = .ok ()) :
    (∃ id, tx.chainId = some id ∧ id ≠ 0) ∧ tx.gasLimit ≠ 0 ∧
      ∀ inner, tx = .Eip1559 inner → inner.maxPriorityFeePerGas ≤ inner.maxFeePerGas := by
  unfold validateUnsigned at h
  split at h
  · cases h
  -- the three checks, one after the other
  rename_i hChain
  split at h
  · cases h
  rename_i hGas
  have hId : ∃ id, tx.chainId = some id ∧ id ≠ 0 := by
    cases hTx : tx.chainId with
    | none => rw [hTx] at hChain; cases hChain
    | some id =>
      rw [hTx, validateChainId] at hChain
      split at hChain
      · cases hChain
      · rename_i hNe
        exact ⟨id, rfl, hNe⟩
  refine ⟨hId, hGas, ?_⟩
  rintro inner rfl
  simp only at h
  split at h
  · cases h
  · rename_i hFee
    exact not_lt.mp hFee

/-- `prepare` only hands out validated transactions under their own hash. -/
theorem prepare_ok {A : Alloy} {intent : TxIntent} {p : PreparedTx} (h : prepare A intent = .ok p) :
    p.tx = EthTx.ofIntent intent ∧ validateUnsigned p.tx = .ok () ∧
      p.signingHash = p.tx.signatureHash A := by
  unfold prepare at h
  simp only at h
  split at h
  · cases h
  · rename_i hValid
    rw [← Except.ok.inj h]
    exact ⟨rfl, hValid, rfl⟩

end Sovra.Eth
