import Sovra.Api.Relay
import Sovra.Lib.Transition

/-!
# Sovra — broadcasting one transaction any number of times

The `/v1/broadcast` calls of one signed transaction, past their guard, against a
node that takes it once: it accepts the transaction while it does not hold it,
answers every later submission with an error response, and serves a receipt under
its hash once it is mined. Calls interleave at their awaits, with mining and with
each other; requests and answers may get lost on the way.

* `resubmission_reported` — who is answered 400, and who is confirmed.
-/

namespace Sovra.Api

open Lib Eth

/-- What the node holds of the transaction. -/
inductive Held
  | unknown
  | pending
  | mined
deriving DecidableEq

/-- How a call ended, and what the node held then. -/
structure Ended where
  call : Nat
  held : Held
  result : Except BroadcastError BroadcastOutcome
deriving DecidableEq

/-- The node, the calls under way, and how calls have ended. -/
structure Chain where
  held : Held
  calls : Nat → Option Broadcasting
  ended : List Ended

/-- A step of a call, of the network, or of the node. -/
inductive ChainEvent
  | call (i : Nat)
  /-- The node answers a submission; an error response has this text. -/
  | submit (i : Nat) (payload : String) (now : Nat)
  /-- The node answers a request for the receipt. -/
  | receipt (i : Nat) (now : Nat)
  | wake (i : Nat)
  /-- A call loses its connection, before or after the node got the request. -/
  | lost (i : Nat) (detail : String) (arrived : Bool)
  | mine

section

variable (txHash : B256) (timeout : Nat) (body : Receipt)

/-- `eth_sendRawTransaction`. -/
def Held.submit (payload : String) : Held → Except RpcError B256 × Held
  | .unknown => (.ok txHash, .pending)
  | held => (.error (.ErrorResp payload), held)

/-- `eth_getTransactionReceipt` of the transaction's hash. -/
def Held.receipt : Held → Option Receipt
  | .mined => some { body with transactionHash := txHash }
  | _ => none

/-- A call takes an answer, with the node as it is then. -/
def Chain.advance (w : Chain) (i : Nat) (held : Held) (out : RpcOutcome) : Option Chain :=
  (w.calls i).bind fun at_ => (broadcastStep txHash timeout at_ out).map fun
    | .inl result =>
      { held, calls := Function.update w.calls i none, ended := w.ended ++ [⟨i, held, result⟩] }
    | .inr next =>
      { held, calls := Function.update w.calls i (some next), ended := w.ended }

/-- One event: a new call, what a call's await brings, or the mining of the
transaction. -/
def Chain.step (w : Chain) : ChainEvent → Option Chain
  | .call i =>
    match w.calls i with
    | some _ => none
    | none => some { w with calls := Function.update w.calls i (some .send) }
  | .submit i payload now =>
    let (answer, held) := w.held.submit txHash payload
    w.advance txHash timeout i held (.sent answer now)
  | .receipt i now =>
    w.advance txHash timeout i w.held (.receipt (.ok (w.held.receipt txHash body)) now)
  | .wake i => w.advance txHash timeout i w.held .woken
  | .lost i detail arrived =>
    match w.calls i with
    | some .send => w.advance txHash timeout i
        (if arrived then (w.held.submit txHash detail).2 else w.held)
        (.sent (.error (.Transport detail)) 0)
    | _ => w.advance txHash timeout i w.held (.receipt (.error (.Transport detail)) 0)
  | .mine => if w.held = .pending then some { w with held := .mined } else none

/-- The node and its callers. -/
def chain : Machine Chain ChainEvent := ⟨Chain.step txHash timeout body⟩

end

/-- The status a call is answered with. -/
def statusOf (A : Alloy) : RelayAnswer → Nat
  | .ok (.prepare _) => 200
  | .ok (.broadcast status _) => status
  | .error e => (e.intoResponse A).1

/-- No call is under way and none has ended. -/
def Chain.init (held : Held) : Chain := ⟨held, fun _ => none, []⟩

section

variable {A : Alloy} {txHash : B256} {timeout : Nat} {body : Receipt} {w w' : Chain}

/-- 400 is for a rejection. -/
theorem statusOf_rejected {result : Except BroadcastError BroadcastOutcome}
    (h : statusOf A (broadcastReply txHash result) = 400) :
    ∃ reason, result = .error (.Rejected reason) := by
  rcases result with e | outcome
  · rcases e with reason | e | ⟨computed, node⟩
    · exact ⟨reason, rfl⟩
    · simp [statusOf, broadcastReply, RelayError.intoResponse] at h
    · simp [statusOf, broadcastReply, RelayError.intoResponse] at h
  · rcases outcome with receipt | _ <;> simp [statusOf, broadcastReply] at h

-- ---------------------------------------------------------------------------
-- What a step does
-- ---------------------------------------------------------------------------

/-- A call goes on or ends; everybody else stays. -/
theorem advance_cases {i : Nat} {held : Held} {out : RpcOutcome}
    (h : w.advance txHash timeout i held out = some w') :
    ∃ at_, w.calls i = some at_ ∧ w'.held = held ∧
      ((∃ result, broadcastStep txHash timeout at_ out = some (.inl result) ∧
          w'.calls = Function.update w.calls i none ∧ w'.ended = w.ended ++ [⟨i, held, result⟩]) ∨
        ∃ next, broadcastStep txHash timeout at_ out = some (.inr next) ∧
          w'.calls = Function.update w.calls i (some next) ∧ w'.ended = w.ended) := by
  obtain ⟨at_, hCall, hRest⟩ := Option.bind_eq_some_iff.mp h
  obtain ⟨next, hStep, rfl⟩ := Option.map_eq_some_iff.mp hRest
  refine ⟨at_, hCall, ?_⟩
  rcases next with result | next
  · exact ⟨rfl, Or.inl ⟨result, hStep, rfl, rfl⟩⟩
  · exact ⟨rfl, Or.inr ⟨next, hStep, rfl, rfl⟩⟩

/-- What was submitted is held, and what is held stays as it is. -/
theorem submit_held {held : Held} {payload : String} :
    (held.submit txHash payload).2 ≠ .unknown ∧
      (held ≠ .unknown → (held.submit txHash payload).2 = held) := by
  rcases held with _ | _ | _ <;> simp [Held.submit]

/-- What the node answers a call: its echo, an error response to what it holds, a
receipt of its own, or nothing. -/
structure Honest (txHash : B256) (body : Receipt) (held : Held) (out : RpcOutcome) : Prop where
  refused : ∀ payload now, out = .sent (.error (.ErrorResp payload)) now → held ≠ .unknown
  served : ∀ receipt now, out = .receipt (.ok (some receipt)) now →
    held = .mined ∧ receipt.transactionHash = txHash
  unserved : ∀ now, out = .receipt (.ok none) now → held ≠ .mined

/-- A step of one call, or of the node, as the others see it. -/
def Moves (txHash : B256) (timeout : Nat) (body : Receipt) (w w' : Chain) : Prop :=
  (w.held ≠ .unknown → w'.held ≠ .unknown) ∧
  ((∃ i, w'.calls = Function.update w.calls i (some .send) ∧ w'.ended = w.ended) ∨
    (∃ i out, Honest txHash body w'.held out ∧
      w.advance txHash timeout i w'.held out = some w') ∨
    w'.calls = w.calls ∧ w'.ended = w.ended)

/-- A call that is answered honestly moves so. -/
theorem moves_of_advance {i : Nat} {held : Held} {out : RpcOutcome}
    (h : w.advance txHash timeout i held out = some w') (hOut : Honest txHash body held out)
    (hKeep : w.held ≠ .unknown → held ≠ .unknown) : Moves txHash timeout body w w' := by
  obtain ⟨-, -, hHeld, -⟩ := advance_cases h
  rw [← hHeld] at h hOut hKeep
  exact ⟨hKeep, Or.inr (Or.inl ⟨i, out, hOut, h⟩)⟩

/-- **What a step can do**: a new call, a call's next answer, or mining. What the
node holds stays held. -/
theorem chain_cases {e : ChainEvent} (h : w.step txHash timeout body e = some w') :
    Moves txHash timeout body w w' := by
  rcases e with i | ⟨i, payload, now⟩ | ⟨i, now⟩ | i | ⟨i, detail, arrived⟩ | _
  · -- a new call
    simp only [Chain.step] at h
    split at h
    · simp at h
    · rw [← Option.some.inj h]
      exact ⟨id, Or.inl ⟨i, rfl, rfl⟩⟩
  · -- the node takes the submission or refuses it: it holds it either way
    refine moves_of_advance h ⟨?_, ?_, ?_⟩ fun _ => submit_held.1
    · intro _ _ _
      exact submit_held.1
    · simp
    · simp
  · -- it is asked for a receipt: it has one exactly if the transaction is mined
    refine moves_of_advance h ⟨by simp, ?_, ?_⟩ id
    · intro receipt now' hOut
      rcases hHeld : w.held with _ | _ | _ <;> simp [hHeld, Held.receipt] at hOut
      exact ⟨rfl, hOut.1 ▸ rfl⟩
    · intro now' hOut
      rcases hHeld : w.held with _ | _ | _ <;> simp [hHeld, Held.receipt] at hOut ⊢
  · -- no answer at all
    exact moves_of_advance h ⟨by simp, by simp, by simp⟩ id
  · -- a lost submission, which the node may have got all the same
    simp only [Chain.step] at h
    split at h
    · refine moves_of_advance h ⟨by simp, by simp, by simp⟩ fun hHeld => ?_
      split
      · exact submit_held.1
      · exact hHeld
    · exact moves_of_advance h ⟨by simp, by simp, by simp⟩ id
  · -- the transaction is mined
    simp only [Chain.step] at h
    split at h
    · rw [← Option.some.inj h]
      exact ⟨fun _ => by simp, Or.inr (Or.inr ⟨rfl, rfl⟩)⟩
    · simp at h

-- ---------------------------------------------------------------------------
-- What every run reports
-- ---------------------------------------------------------------------------

/-- A 400 goes to a resubmission whose receipt was asked for too early; a
confirmation is of this transaction, and mined. -/
def Reported (A : Alloy) (txHash : B256) (e : Ended) : Prop :=
  (statusOf A (broadcastReply txHash e.result) = 400 → e.held = .pending) ∧
  ∀ receipt, e.result = .ok (.Confirmed receipt) →
    receipt.transactionHash = txHash ∧ e.held = .mined

/-- Who re-checks was refused by a node that holds the transaction. -/
structure ChainInv (A : Alloy) (txHash : B256) (w : Chain) : Prop where
  refused : ∀ i payload, w.calls i = some (.recheck payload) → w.held ≠ .unknown
  reported : ∀ e ∈ w.ended, Reported A txHash e

/-- A call's next answer keeps the invariant. -/
theorem ChainInv.advance (h : ChainInv A txHash w) {i : Nat} {out : RpcOutcome}
    (hKeep : w.held ≠ .unknown → w'.held ≠ .unknown) (hOut : Honest txHash body w'.held out)
    (hStep : w.advance txHash timeout i w'.held out = some w') : ChainInv A txHash w' := by
  obtain ⟨at_, hCall, -, hNext⟩ := advance_cases hStep
  obtain ⟨result, hResult, hCalls, hEnded⟩ | ⟨next, hResult, hCalls, hEnded⟩ := hNext
  · -- the call ends
    constructor
    · intro j payload hj
      rw [hCalls] at hj
      by_cases hId : j = i
      · simp [hId] at hj
      · rw [Function.update_of_ne hId] at hj
        exact hKeep (h.refused j payload hj)
    · intro e he
      rw [hEnded, List.mem_append, List.mem_singleton] at he
      rcases he with he | rfl
      · exact h.reported e he
      constructor
      · -- 400: it was refused, by a node that held the transaction, and found no
        -- receipt
        intro hStatus
        obtain ⟨reason, rfl⟩ := statusOf_rejected hStatus
        obtain ⟨rfl, now, rfl⟩ := broadcastStep_rejected hResult
        have hHeld := hKeep (h.refused i reason hCall)
        have hUnmined := hOut.unserved now rfl
        show w'.held = .pending
        rcases hNow : w'.held with _ | _ | _
        · exact absurd hNow hHeld
        · rfl
        · exact absurd hNow hUnmined
      · -- confirmed: on a receipt, which the node has of a mined transaction only
        rintro receipt rfl
        obtain ⟨now, rfl⟩ := broadcastStep_confirmed hResult
        obtain ⟨hMined, hHash⟩ := hOut.served receipt now rfl
        exact ⟨hHash, hMined⟩
  · -- the call goes on: to the re-check only where the node refused it
    refine ⟨?_, hEnded ▸ h.reported⟩
    intro j payload hj
    rw [hCalls] at hj
    by_cases hId : j = i
    · rw [hId, Function.update_self, Option.some.injEq] at hj
      subst hj
      obtain ⟨now, rfl⟩ := broadcastStep_recheck hResult
      exact hOut.refused payload now rfl
    · rw [Function.update_of_ne hId] at hj
      exact hKeep (h.refused j payload hj)

/-- Every step keeps the invariant. -/
theorem ChainInv.step (h : ChainInv A txHash w) {e : ChainEvent}
    (hStep : w.step txHash timeout body e = some w') : ChainInv A txHash w' := by
  obtain ⟨hKeep, ⟨i, hCalls, hEnded⟩ | ⟨i, out, hOut, hAdvance⟩ | ⟨hCalls, hEnded⟩⟩ :=
    chain_cases hStep
  · -- a new call is at its submission
    refine ⟨?_, hEnded ▸ h.reported⟩
    intro j payload hj
    rw [hCalls] at hj
    by_cases hId : j = i
    · simp [hId] at hj
    · rw [Function.update_of_ne hId] at hj
      exact hKeep (h.refused j payload hj)
  · exact h.advance hKeep hOut hAdvance
  · -- the node alone has moved
    refine ⟨?_, hEnded ▸ h.reported⟩
    intro j payload hj
    rw [hCalls] at hj
    exact hKeep (h.refused j payload hj)

/-- **What a broadcast reports.** In every interleaving of any number of calls with
each other and with the node, a call is answered 400 only while the transaction is
pending, and confirmed only once it is mined, with a receipt under the hash
computed here. A resubmission that asks for the receipt of a mined transaction is
confirmed. -/
theorem resubmission_reported (A : Alloy) (txHash : B256) (timeout : Nat) (body : Receipt)
    (held : Held) {w : Chain}
    (hReach : (chain txHash timeout body).Reach (fun _ _ => True) (Chain.init held) w) :
    (∀ e ∈ w.ended, (statusOf A (broadcastReply txHash e.result) = 400 → e.held = .pending) ∧
      ∀ receipt, e.result = .ok (.Confirmed receipt) →
        receipt.transactionHash = txHash ∧ e.held = .mined) ∧
    ∀ i payload now, w.calls i = some (.recheck payload) → w.held = .mined →
      ∃ w', w.step txHash timeout body (.receipt i now) = some w' ∧
        w'.ended = w.ended ++
          [⟨i, .mined, .ok (.Confirmed { body with transactionHash := txHash })⟩] := by
  have hInv : ChainInv A txHash w := by
    refine Machine.Reach.invariant hReach ?_ fun w e w' h _ hStep => h.step hStep
    exact ⟨by simp [Chain.init], by simp [Chain.init]⟩
  refine ⟨hInv.reported, ?_⟩
  intro i payload now hCall hHeld
  have hStep : w.step txHash timeout body (.receipt i now) = some
      { held := .mined, calls := Function.update w.calls i none
        ended := w.ended ++
          [⟨i, .mined, .ok (.Confirmed { body with transactionHash := txHash })⟩] } := by
    simp only [Chain.step, Chain.advance, hCall, hHeld, Held.receipt, broadcastStep,
      Option.bind_some, Option.map_some]
  exact ⟨_, hStep, rfl⟩

end

namespace Sample

/-- The hash of the transaction. -/
def txHash : B256 := .repeatByte 32 0x77

/-- Its receipt. -/
def mined : Receipt := ⟨txHash, some 123, 21000, true⟩

/-- Call 1 submits what call 0 has just submitted, and is refused. -/
def resubmit : List ChainEvent :=
  [.call 0, .submit 0 "" 0, .call 1, .submit 1 "already known" 1]

/-- It asks for the receipt at once. -/
def early : List ChainEvent := resubmit ++ [.receipt 1 2]

/-- It asks once the transaction is mined, and call 0 does. -/
def late : List ChainEvent := resubmit ++ [.mine, .receipt 1 2, .receipt 0 3]

theorem early_run :
    ((chain txHash 30 mined).run (Chain.init .unknown) early).isSome = true := by
  decide +kernel

theorem late_run : ((chain txHash 30 mined).run (Chain.init .unknown) late).isSome = true := by
  decide +kernel

/-- The state after the first. -/
def earlyChain : Chain := ((chain txHash 30 mined).run (Chain.init .unknown) early).get early_run

/-- The state after the second. -/
def lateChain : Chain := ((chain txHash 30 mined).run (Chain.init .unknown) late).get late_run

end Sample

open Sample in
/-- A resubmission of a pending transaction is answered 400. -/
theorem pending_resubmission_refused : ¬ ∀ w : Chain,
    (chain txHash 30 mined).Reach (fun _ _ => True) (Chain.init .unknown) w →
    ∀ e ∈ w.ended,
      statusOf Eth.Sample.alloy (broadcastReply txHash e.result) = 400 → e.held = .unknown := by
  intro hNever
  have hReach : (chain txHash 30 mined).Reach (fun _ _ => True) (Chain.init .unknown) earlyChain :=
    Machine.reach_of_run (Option.some_get early_run).symm
  have hEnded : earlyChain.ended = [⟨1, .pending, .error (.Rejected "already known")⟩] := by
    decide +kernel
  have hHeld := hNever earlyChain hReach ⟨1, .pending, .error (.Rejected "already known")⟩
    (hEnded ▸ List.mem_cons_self) rfl
  simp at hHeld

open Sample in
/-- Both calls of the other run are confirmed. -/
theorem resubmission_reported_twice :
    lateChain.ended = [⟨1, .mined, .ok (.Confirmed mined)⟩, ⟨0, .mined, .ok (.Confirmed mined)⟩] ∧
    ∀ e ∈ lateChain.ended, ∀ receipt, e.result = .ok (.Confirmed receipt) →
      receipt.transactionHash = txHash ∧ e.held = .mined := by
  have hReach : (chain txHash 30 mined).Reach (fun _ _ => True) (Chain.init .unknown) lateChain :=
    Machine.reach_of_run (Option.some_get late_run).symm
  obtain ⟨hEnded, -⟩ := resubmission_reported Eth.Sample.alloy txHash 30 mined .unknown hReach
  exact ⟨by decide +kernel, fun e he => (hEnded e he).2⟩

end Sovra.Api
