import Sovra.Mpc.Authenticity
import Sovra.Mpc.Script

/-!
# Sovra — scripts that do not panic

One party against the network: the relay answers its sends, and hands it any
envelopes, errors or the deadline. The only inbox a script ever sees is one that
`recv_round` completed: its senders are peers, and every peer is in the slots the
round expects. A `Careful` script does not panic on such inboxes.

* `Careful.run` — on a roster that has every peer's key, a careful script never
  panics.
-/

namespace Sovra.Mpc

open Lib

section

variable {C : Crypto} {κ α β : Type}

/-- What a party's script ends with, if the inbound things suffice to end it. -/
def Script.run (rnd : UInt8 → UInt8 → SealRandomness C)
    (relay : UInt8 → SignedEnvelope C → Except MpcError Unit) :
    Script κ α → Exchange C → List (Inbound C) → Option (Except Halt α)
  | .done a, _, _ => some (.ok a)
  | .halt h, _, _ => some (.error h)
  | .call _ next, ex, inbound => next.run rnd relay ex inbound
  | .round r outbox expect next, ex, inbound =>
    match (ex.sendRound (relay r) (rnd r) r outbox).2 with
    | .error h => some (.error h)
    | .ok () =>
      match ex.recvRound r expect inbound with
      | .failed e => some (.error (.error e))
      | .pending => none
      | .ready inbox ex' rest => (next inbox).run rnd relay ex' rest

/-- What `recv_round` returns: nothing but the peers', and everything expected of
them. -/
structure RoundInbox.Filled (peers : List UInt8) (expect : Expect) (inbox : RoundInbox) :
    Prop where
  only : ∀ k (q : UInt8), q ∈ inbox.slot k → q ∈ peers
  all : ∀ k, expect.wants k = true → ∀ p ∈ peers, p ∈ inbox.slot k

/-- No panic, whatever the peers' entries hold. -/
inductive Script.Careful (peers : List UInt8) : Script κ α → Prop
  | done {a : α} : Careful peers (.done a)
  | halt {e : MpcError} : Careful peers (.halt (.error e))
  | call {c next} (hNext : Careful peers next) : Careful peers (.call c next)
  | round {r outbox expect next}
      (hNext : ∀ inbox : RoundInbox, inbox.Filled peers expect → Careful peers (next inbox)) :
      Careful peers (.round r outbox expect next)

-- ---------------------------------------------------------------------------
-- Sequences
-- ---------------------------------------------------------------------------

namespace Script

variable {peers : List UInt8}

/-- A sequence of careful scripts is careful. -/
theorem Careful.bind {s : Script κ α} {f : α → Script κ β} (hs : s.Careful peers)
    (hf : ∀ a, (f a).Careful peers) : (s >>= f).Careful peers := by
  show (s.bind f).Careful peers
  induction hs with
  | done => exact hf _
  | halt => exact .halt
  | call _ ih => exact .call ih
  | round _ ih => exact .round fun inbox hInbox => ih inbox hInbox

/-- A local step that avoids the panic is careful. -/
theorem Careful.ofExcept {e : Except Halt α} {f : α → Script κ β} (he : Avoids .panic e)
    (hf : ∀ a, e = .ok a → (f a).Careful peers) : (Script.ofExcept e >>= f).Careful peers := by
  rcases e with h | a
  · rcases h with e | _
    · exact .halt
    · exact absurd rfl he
  · exact hf a rfl

/-- So is one at the end. -/
theorem Careful.ends {e : Except Halt α} (he : Avoids .panic e) :
    (Script.ofExcept e : Script κ α).Careful peers := by
  rcases e with h | a
  · rcases h with e | _
    · exact .halt
    · exact absurd rfl he
  · exact .done

/-- An `MpcError` is no panic. -/
theorem avoids_mpcError {e : Except MpcError α} : Avoids Halt.panic (e.mapError Halt.error) :=
  avoids_mapError fun _ => by simp

/-- A step that fails with an `MpcError` is careful. -/
theorem Careful.attempt {e : Except MpcError α} {f : α → Script κ β}
    (hf : ∀ a, e = .ok a → (f a).Careful peers) : (Script.attempt e >>= f).Careful peers :=
  Careful.ofExcept avoids_mpcError fun a h => hf a (mapError_eq_ok.mp h)

/-- Marks are. -/
theorem Careful.mark {c : κ} {f : Unit → Script κ β} (hf : (f ()).Careful peers) :
    (Script.mark c >>= f).Careful peers :=
  .call hf

/-- A round is careful if what follows is, on any inbox `recv_round` can return. -/
theorem Careful.exchange {r : UInt8} {outbox : RoundOutbox} {expect : Expect}
    {f : RoundInbox → Script κ β}
    (hf : ∀ inbox : RoundInbox, inbox.Filled peers expect → (f inbox).Careful peers) :
    (Script.exchange r outbox expect >>= f).Careful peers :=
  .round hf

end Script

-- ---------------------------------------------------------------------------
-- Runs
-- ---------------------------------------------------------------------------

section

variable {ex ex' : Exchange C}

/-- `send_round` checks its recipients against the peers before it indexes the
roster. -/
theorem outgoing_avoids (hPeers : ∀ p ∈ ex.peers, p.toNat < ex.ctx.partyVks.length)
    {round : UInt8} {outbox : RoundOutbox} {rnd : UInt8 → SealRandomness C}
    {step : Except Halt (SignedEnvelope C)} (h : step ∈ ex.outgoing round outbox rnd) :
    Avoids .panic step := by
  rw [Exchange.outgoing, List.mem_append] at h
  rcases h with hBroadcast | hP2p
  · rcases hPayload : outbox.broadcast with _ | payload
    · simp [hPayload] at hBroadcast
    · rw [hPayload] at hBroadcast
      obtain ⟨to_, -, rfl⟩ := List.mem_map.mp hBroadcast
      exact avoids_ok
  · obtain ⟨⟨to_, plaintext⟩, -, rfl⟩ := List.mem_map.mp hP2p
    intro hPanic
    simp only at hPanic
    split at hPanic
    · simp at hPanic
    rename_i hPeer
    rw [not_not] at hPeer
    rw [List.getElem?_eq_getElem (hPeers to_ hPeer)] at hPanic
    simp only at hPanic
    split at hPanic <;> simp at hPanic

/-- Sending panics only where an envelope could not be made. -/
theorem transmit_avoids {relay : SignedEnvelope C → Except MpcError Unit}
    {steps : List (Except Halt (SignedEnvelope C))} (h : ∀ step ∈ steps, Avoids .panic step) :
    Avoids .panic (transmit relay steps).2 := by
  -- the first step that fails decides
  induction steps with
  | nil => exact avoids_ok
  | cons step steps ih =>
    rcases step with halt | senv
    · have hHere := h (.error halt) List.mem_cons_self
      simpa [Avoids, transmit] using hHere
    · rw [transmit]
      rcases relay senv with e | u
      · intro hPanic
        simp at hPanic
      · exact ih fun step hStep => h step (List.mem_cons_of_mem _ hStep)

/-- What `recv_round` returns is full: every peer, every expected kind, nobody else. -/
theorem filled_of_recvRound {round : UInt8} {expect : Expect} {inbound rest : List (Inbound C)}
    {inbox : RoundInbox} (h : ex.recvRound round expect inbound = .ready inbox ex' rest) :
    inbox.Filled ex.peers expect ∧ ex'.ctx = ex.ctx ∧ ex'.peers = ex.peers := by
  have hSeen : ∀ s : SignedEnvelope C, s ∈ (Set.univ : Set (SignedEnvelope C)) := Set.mem_univ
  obtain ⟨ahead, rfl, -, -, hSourced, hComplete⟩ :=
    recvRound_sourced h (fun s _ => hSeen s) fun s _ => hSeen s
  refine ⟨⟨?_, complete_iff.mp hComplete⟩, rfl, rfl⟩
  intro k q hq
  obtain ⟨m, hm⟩ := Option.isSome_iff_exists.mp (Std.ExtTreeMap.mem_iff_isSome_getElem?.mp hq)
  obtain ⟨-, senv, -, hAccepts, -, -, rfl, -⟩ := hSourced k q m hm
  exact (concerns_iff.mp hAccepts.1).2.2.2

/-- **A careful script never panics**, whatever the network does. -/
theorem Script.Careful.run {peers : List UInt8} {s : Script κ α} (h : s.Careful peers)
    (hPeers : ex.peers = peers) (hRoster : ∀ p ∈ peers, p.toNat < ex.ctx.partyVks.length)
    (rnd : UInt8 → UInt8 → SealRandomness C)
    (relay : UInt8 → SignedEnvelope C → Except MpcError Unit) (inbound : List (Inbound C)) :
    s.run rnd relay ex inbound ≠ some (.error .panic) := by
  -- along the script: only a round can stop, and its inbox is filled when it does not
  induction h generalizing ex inbound with
  | done => simp [Script.run]
  | halt => simp [Script.run]
  | call hNext ih => exact ih hPeers hRoster inbound
  | @round r outbox expect next hNext ih =>
    subst hPeers
    have hSend : Avoids .panic (ex.sendRound (relay r) (rnd r) r outbox).2 :=
      transmit_avoids fun step hStep => outgoing_avoids hRoster hStep
    rw [Script.run]
    split
    · rename_i halt hHalt
      intro hPanic
      rw [Option.some.injEq, Except.error.injEq] at hPanic
      exact hSend (hHalt.trans (congrArg Except.error hPanic))
    · split
      · simp
      · simp
      · rename_i inbox ex' rest hReady
        obtain ⟨hFilled, hCtx, hSame⟩ := filled_of_recvRound hReady
        exact ih inbox hFilled hSame (hCtx ▸ hRoster) rest

end

end

end Sovra.Mpc
