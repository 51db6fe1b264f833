import Sovra.Ipc.Control
import Sovra.Mpc.Exchange
import Sovra.Policy
import Sovra.State.Store

/-!
# Sovra — the cosigner's state and errors

`sovra-cosigner`'s `state.rs` and `errors.rs`. `CosignerState` is immutable
after startup; what changes is the op lock and the directory behind the store,
which the service carries (`OpState`). A 403 body's `reason` is the contract
the orchestrator parses to attribute a veto.

* `response_forbidden` — a 403 is exactly a policy denial, with its reason.
-/

namespace Sovra.Cosigner

open Mpc State

/-- Less the connection materials, the ttl and the mutex, which are inputs or
part of `OpState`. -/
structure CosignerState (C : Crypto) where
  partyId : UInt8
  signingKey : C.SigningKey
  /-- Full pinned roster, index = party id; `None` = bootstrap mode. -/
  roster : Option (List C.VerifyingKey)
  threshold : UInt8
  sealer : ShardSealer
  policy : Policy

/-- What changes while the cosigner serves. -/
structure OpState where
  dir : ShardDir
  op : Bool

/-- `CosignerError`. -/
inductive CosignerError
  | Busy
  | ShardExists
  | NoShard
  | RosterUnset
  | RosterMismatch (msg : String)
  | InvalidSubset (msg : String)
  | Undecodable (msg : String)
  | PolicyDenied (reason : DenyReason)
  | NoSigner
  | Relay (msg : String)
  | Mpc (e : MpcError)
  | State (e : StateError)
  | RunTimeout
deriving DecidableEq

/-- The JSON body of an error. -/
structure ErrorBody where
  error : String
  reason : Option String
deriving DecidableEq

variable (A : Eth.Alloy) in
/-- The error's text; a `State` error shows only as the body below. -/
def CosignerError.display : CosignerError → String
  | .Busy => "an mpc run is already in progress"
  | .ShardExists => "a key shard already exists; refusing to overwrite"
  | .NoShard => "no key shard; run dkg first"
  | .RosterUnset => "participant roster not configured"
  | .RosterMismatch msg => "scheme mismatch: " ++ msg
  | .InvalidSubset msg => "invalid signing subset: " ++ msg
  | .Undecodable msg => "invalid transaction bytes: " ++ msg
  | .PolicyDenied reason => "policy denied: " ++ reason.display A
  | .NoSigner => "no active signer"
  | .Relay msg => "relay connection failed: " ++ msg
  | .Mpc e => "mpc run failed: " ++ e.display
  | .State _ => "internal storage error"
  | .RunTimeout => "mpc run timed out; peer never joined or stalled mid-run"

/-- `IntoResponse`: the status. -/
def CosignerError.status : CosignerError → Nat
  | .Busy | .ShardExists | .NoShard | .RosterUnset | .RosterMismatch _ | .InvalidSubset _ => 409
  | .Undecodable _ => 422
  | .PolicyDenied _ => 403
  | .NoSigner => 404
  | .Relay _ | .Mpc _ | .RunTimeout => 502
  | .State _ => 500

variable (A : Eth.Alloy) in
/-- `IntoResponse`: the body; only a denial carries a reason. -/
def CosignerError.body (e : CosignerError) : ErrorBody :=
  match e with
  | .PolicyDenied reason => ⟨"policy denied", some (reason.display A)⟩
  | e => ⟨e.display A, none⟩

/-- A 403 is a policy's denial, and its body says why. -/
theorem response_forbidden {A : Eth.Alloy} {e : CosignerError} :
    e.status = 403 ↔ ∃ reason, e = .PolicyDenied reason ∧
      e.body A = ⟨"policy denied", some (reason.display A)⟩ := by
  unfold CosignerError.status
  split <;> simp [CosignerError.body]

section

variable {C : Crypto} (st : CosignerState C)

/-- The pinned roster; a cosigner still in bootstrap mode has none. -/
def CosignerState.rosterOrUnset : Except CosignerError (List C.VerifyingKey) :=
  match st.roster with
  | none => .error .RosterUnset
  | some roster => .ok roster

/-- `ctx`: what a ceremony of this instance is run with. -/
def CosignerState.ctx (inst : B256) : Except CosignerError (PartyContext C) := do
  let roster ← st.rosterOrUnset
  return { partyId := st.partyId, inst, signingKey := st.signingKey, partyVks := roster
           threshold := st.threshold }

/-- A missing shard under its own error, any other failure of the store as is. -/
def missingOr (missing : CosignerError) : StateError → CosignerError
  | .NotFound _ => missing
  | e => .State e

/-- `load_shard` of the active signer. -/
def CosignerState.loadShardOr (missing : CosignerError) (dir : ShardDir)
    (fault : Option StateError) : Except CosignerError KeyShare :=
  (loadShard st.sealer dir fault).mapError (missingOr missing)

end

/-- The roster is the one that is set. -/
@[simp] theorem rosterOrUnset_eq_ok {C : Crypto} {st : CosignerState C}
    {roster : List C.VerifyingKey} : st.rosterOrUnset = .ok roster ↔ st.roster = some roster := by
  unfold CosignerState.rosterOrUnset
  split <;> simp [*]

end Sovra.Cosigner
