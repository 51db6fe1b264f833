import Sovra.Network
import Sovra.Eth.Network

/-!
# Sovra — the signing policy

`sovra-policy`: a decoded transaction view goes in, a verdict comes out. The
check order is fixed (chain, destination shape, recipient, value, calldata)
and the first violation is the reported reason. `Policy.Permits` is what a
policy is for, clause by clause.

* `evaluate_allow_iff` — the verdict is allow exactly when every clause holds.
* `evaluate_policyView` — on a validated transaction, the view the policy sees
  and the transaction that is hashed agree clause by clause.
-/

namespace Sovra

/-- Why a transaction was refused. -/
inductive DenyReason
  | ChainId (chainId : UInt64)
  | Recipient (to_ : Address)
  | ValueCeiling (value max : U256)
  | Calldata
  | ContractCreation
deriving DecidableEq

/-- The text that crosses the wire in the 403 body. -/
def DenyReason.display (A : Eth.Alloy) : DenyReason → String
  | .ChainId chainId => "chain id " ++ toString chainId ++ " not allowed"
  | .Recipient to_ => "recipient " ++ A.displayAddress to_ ++ " not allowed"
  | .ValueCeiling value max => "value " ++ A.displayU256 value ++ " wei exceeds ceiling " ++
      A.displayU256 max
  | .Calldata => "calldata not allowed"
  | .ContractCreation => "contract creation not allowed"

/-- What a policy says of a transaction. -/
inductive Verdict
  | Allow
  | Deny (reason : DenyReason)
deriving DecidableEq

/-- `allowed_recipients`: the wildcard, or a list; an empty list denies all. -/
inductive Recipients
  | Any
  | List (allowed : List Address)
deriving DecidableEq

/-- One cosigner's local signing policy. -/
structure Policy where
  allowedChainIds : List UInt64
  allowedRecipients : Recipients
  maxValueWei : U256
  allowCalldata : Bool
  allowContractCreation : Bool
deriving DecidableEq

namespace Policy

/-- The destination arm of `evaluate_ethereum`: its early return, if any. -/
def destinationDenied (p : Policy) : Option Address → Option DenyReason
  | none => if p.allowContractCreation then none else some .ContractCreation
  | some to_ =>
    match p.allowedRecipients with
    | .Any => none
    | .List allowed => if to_ ∈ allowed then none else some (.Recipient to_)

/-- `evaluate_ethereum`: the first check that fails names the reason. -/
def evaluateEthereum (p : Policy) (tx : EthTxView) : Verdict :=
  if tx.chainId ∉ p.allowedChainIds then .Deny (.ChainId tx.chainId)
  else
    match p.destinationDenied tx.to_ with
    | some reason => .Deny reason
    | none =>
      if tx.value > p.maxValueWei then .Deny (.ValueCeiling tx.value p.maxValueWei)
      else if !p.allowCalldata && !tx.data.isEmpty then .Deny .Calldata
      else .Allow

/-- `evaluate`: a policy judges the one kind of transaction there is. -/
def evaluate (p : Policy) : TxView → Verdict
  | .Ethereum tx => p.evaluateEthereum tx

/-- Where a transaction may go: creations by their own knob, calls by the
recipient list or its wildcard. -/
def PermitsDestination (p : Policy) : Option Address → Prop
  | none => p.allowContractCreation = true
  | some to_ => p.allowedRecipients = .Any ∨
      ∃ allowed, p.allowedRecipients = .List allowed ∧ to_ ∈ allowed

/-- A transaction the policy permits. -/
structure Permits (p : Policy) (tx : Eth.EthTx) : Prop where
  chain : ∃ id, tx.chainId = some id ∧ id ∈ p.allowedChainIds
  destination : p.PermitsDestination tx.to
  value : tx.value ≤ p.maxValueWei
  data : tx.input = [] ∨ p.allowCalldata = true

/-- No destination is denied exactly where the destination is permitted. -/
theorem destinationDenied_eq_none {p : Policy} {to_ : Option Address} :
    p.destinationDenied to_ = none ↔ p.PermitsDestination to_ := by
  match to_ with
  | none => simp [destinationDenied, PermitsDestination]
  | some to_ =>
    unfold destinationDenied PermitsDestination
    rcases hRecipients : p.allowedRecipients with _ | allowed
    · simp
    · by_cases hMem : to_ ∈ allowed <;> simp [hMem]

/-- **Allow means every clause.** The four checks, in whatever order they were made. -/
theorem evaluate_allow_iff {p : Policy} {tx : EthTxView} :
    p.evaluate (.Ethereum tx) = .Allow ↔
      tx.chainId ∈ p.allowedChainIds ∧ p.PermitsDestination tx.to_ ∧
        tx.value ≤ p.maxValueWei ∧ (tx.data = [] ∨ p.allowCalldata = true) := by
  rw [← destinationDenied_eq_none]
  show p.evaluateEthereum tx = .Allow ↔ _
  unfold evaluateEthereum
  -- the clauses in the order of the checks; where one fails the verdict is its reason
  by_cases hChain : tx.chainId ∈ p.allowedChainIds
  swap
  · simp [hChain]
  rw [if_neg (not_not.mpr hChain)]
  rcases hDest : p.destinationDenied tx.to_ with _ | reason
  swap
  · simp
  by_cases hValue : tx.value ≤ p.maxValueWei
  swap
  · simp [hValue, not_le.mp hValue]
  simp only [gt_iff_lt, not_lt.mpr hValue, if_false, hChain, hValue, true_and]
  by_cases hData : tx.data = []
  · simp [hData]
  · rcases hCalldata : p.allowCalldata <;> simp [hData]

/-- The policy's view of a validated transaction permits what the transaction
itself is permitted. -/
theorem evaluate_policyView {p : Policy} {tx : Eth.EthTx}
    (hValid : Eth.validateUnsigned tx = .ok ()) :
    p.evaluate (Eth.Ethereum.policyView tx) = .Allow ↔ p.Permits tx := by
  obtain ⟨⟨id, hId, -⟩, -, -⟩ := Eth.validateUnsigned_ok hValid
  rw [Eth.Ethereum.policyView, evaluate_allow_iff, hId]
  constructor
  · rintro ⟨hChain, hDest, hValue, hData⟩
    exact ⟨⟨id, hId, hChain⟩, hDest, hValue, hData⟩
  · rintro ⟨⟨id', hId', hChain⟩, hDest, hValue, hData⟩
    rw [hId, Option.some.injEq] at hId'
    subst hId'
    exact ⟨hChain, hDest, hValue, hData⟩

end Policy

end Sovra
