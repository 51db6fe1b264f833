import Sovra.Lib.Refine
import Sovra.Mpc.Ledger

/-!
# Sovra — the in-process relay

`sovra-mpc`'s `memhub.rs` and a ceremony of parties that share one `MemoryHub`,
as `InProcessBackend` and the tests run it: every party connects before any of
them is polled, a send finds the recipient's mailbox or is refused because its
relay is gone, a party that has ended drops its relay and what it holds.

The hub is the twin of the network of `Mpc.Ceremony`: each of its mailboxes is
what is in flight to one recipient, in order of sending. What `Simulation` shows
of all schedules of the network then holds of all schedules of the hub, with one
thing more to know: nobody sends to a party that has ended (`Mpc.Ledger`).

* `hub_refines`     — the hub's steps are steps of the network.
* `hosted_computes` — so it computes what direct routing computes.
-/

namespace Sovra.Mpc

open Lib

-- ---------------------------------------------------------------------------
-- The hub
-- ---------------------------------------------------------------------------

/-- Where a mailbox's receiver is: still in the mailbox, with the relay that
claimed it, or gone with that relay. -/
inductive Receiver
  | unclaimed
  | claimed
  | dropped
deriving DecidableEq

/-- `Mailbox`: the unbounded channel of one party, and who has its receiver. -/
structure Mailbox (C : Crypto) where
  queue : List (SignedEnvelope C)
  rx : Receiver

/-- A mailbox nobody has connected to. -/
def Mailbox.new {C : Crypto} : Mailbox C := ⟨[], .unclaimed⟩

/-- `MemoryHub`, by party id. -/
structure MemoryHub (C : Crypto) where
  mailboxes : UInt8 → Option (Mailbox C)

namespace MemoryHub

variable {C : Crypto} (hub : MemoryHub C) (p : UInt8)

/-- `MemoryHub::new`. -/
def new : MemoryHub C := ⟨fun _ => none⟩

/-- `entry(p).or_insert_with(Mailbox::new)`. -/
def mailbox : Mailbox C := (hub.mailboxes p).getD .new

/-- Put a mailbox in place. -/
def set (box : Mailbox C) : MemoryHub C := ⟨Function.update hub.mailboxes p (some box)⟩

/-- `connect`: a mailbox claimed twice is a panic. -/
def connect : Except Halt (MemoryHub C) :=
  match (hub.mailbox p).rx with
  | .unclaimed => .ok (hub.set p { hub.mailbox p with rx := .claimed })
  | .claimed | .dropped => .error .panic

/-- `MemoryRelay::send`. -/
def send (senv : SignedEnvelope C) : MemoryHub C × Except MpcError Unit :=
  let box := hub.mailbox senv.env.recipient
  match box.rx with
  | .unclaimed | .claimed =>
    (hub.set senv.env.recipient { box with queue := box.queue ++ [senv] }, .ok ())
  | .dropped =>
    (hub.set senv.env.recipient box, .error (.transport "recipient's mailbox is closed"))

/-- `MemoryRelay::recv` by the relay of `p`; `none` while its mailbox is empty. -/
def recv : Option (SignedEnvelope C × MemoryHub C) :=
  match (hub.mailbox p).queue with
  | [] => none
  | senv :: queue => some (senv, hub.set p { hub.mailbox p with queue })

/-- The relay of `p` is dropped, with what waits in its channel. -/
def dropRelay : MemoryHub C := hub.set p ⟨[], .dropped⟩

/-- Sends one after the other, up to the first refused. -/
def sendAll (hub : MemoryHub C) : List (SignedEnvelope C) → MemoryHub C × Except MpcError Unit
  | [] => (hub, .ok ())
  | senv :: rest =>
    match hub.send senv with
    | (hub, .ok ()) => hub.sendAll rest
    | (hub, .error e) => (hub, .error e)

/-- Setting a mailbox changes that one. -/
theorem mailbox_set (q : UInt8) (box : Mailbox C) :
    (hub.set p box).mailbox q = if q = p then box else hub.mailbox q := by
  show (Function.update hub.mailboxes p (some box) q).getD .new = _
  split
  · rename_i hSame
    rw [hSame, Function.update_self]
    rfl
  · rename_i hOther
    rw [Function.update_of_ne hOther]
    rfl

variable {hub p}

/-- A first `connect` takes the receiver. -/
theorem connect_ok (h : (hub.mailbox p).rx = .unclaimed) :
    ∃ hub', hub.connect p = .ok hub' ∧
      ∀ q, hub'.mailbox q =
        if q = p then { hub.mailbox p with rx := .claimed } else hub.mailbox q := by
  refine ⟨hub.set p { hub.mailbox p with rx := .claimed }, ?_, fun q => hub.mailbox_set p q _⟩
  simp only [connect, h]

/-- A send to a mailbox whose receiver is not gone adds to the end of its queue. -/
theorem send_ok {senv : SignedEnvelope C} (h : (hub.mailbox senv.env.recipient).rx ≠ .dropped) :
    ∃ hub', hub.send senv = (hub', .ok ()) ∧ ∀ q, hub'.mailbox q =
      if q = senv.env.recipient then
        { hub.mailbox q with queue := (hub.mailbox q).queue ++ [senv] } else hub.mailbox q := by
  refine ⟨hub.set senv.env.recipient { hub.mailbox senv.env.recipient with
    queue := (hub.mailbox senv.env.recipient).queue ++ [senv] }, ?_, fun q => ?_⟩
  · rcases hRx : (hub.mailbox senv.env.recipient).rx with _ | _ | _
    · simp only [send, hRx]
    · simp only [send, hRx]
    · exact absurd hRx h
  · rw [mailbox_set]
    split
    · rename_i hSame
      rw [hSame]
    · rfl

/-- A read takes the oldest envelope. -/
theorem recv_some {senv : SignedEnvelope C} {hub' : MemoryHub C}
    (h : hub.recv p = some (senv, hub')) :
    ∃ queue, (hub.mailbox p).queue = senv :: queue ∧ ∀ q, hub'.mailbox q =
      if q = p then { hub.mailbox p with queue } else hub.mailbox q := by
  unfold recv at h
  split at h
  · simp at h
  · rename_i senv' queue hQueue
    rw [Option.some.injEq, Prod.mk.injEq] at h
    obtain ⟨rfl, rfl⟩ := h
    exact ⟨queue, hQueue, fun q => hub.mailbox_set p q _⟩

/-- Where no addressee is gone, all is queued in order. -/
theorem sendAll_ok {sent : List (SignedEnvelope C)}
    (h : ∀ senv ∈ sent, (hub.mailbox senv.env.recipient).rx ≠ .dropped) :
    ∃ hub', hub.sendAll sent = (hub', .ok ()) ∧ ∀ q, hub'.mailbox q =
      { hub.mailbox q with
        queue := (hub.mailbox q).queue ++ sent.filter fun s => s.env.recipient = q } := by
  -- envelope by envelope; no send closes a mailbox
  induction sent generalizing hub with
  | nil => exact ⟨hub, rfl, fun q => by simp⟩
  | cons senv sent ih =>
    obtain ⟨hub₁, hSend, hBoxes⟩ := send_ok (h senv List.mem_cons_self)
    have hOpen : ∀ s ∈ sent, (hub₁.mailbox s.env.recipient).rx ≠ .dropped := by
      intro s hs
      have hBefore := h s (List.mem_cons_of_mem senv hs)
      rw [hBoxes]
      split
      · exact hBefore
      · exact hBefore
    obtain ⟨hub₂, hRest, hAfter⟩ := ih hOpen
    refine ⟨hub₂, ?_, fun q => ?_⟩
    · simp only [sendAll, hSend, hRest]
    · rw [hAfter q, hBoxes q]
      by_cases hTo : q = senv.env.recipient
      · subst hTo
        simp
      · have hOther : ¬ senv.env.recipient = q := fun h => hTo h.symm
        simp [hTo, hOther]

/-- `connect` for each party of a list. -/
def connectAll (hub : MemoryHub C) (ps : List UInt8) : Except Halt (MemoryHub C) :=
  ps.foldlM connect hub

/-- Distinct parties connect without a panic, and every one has its mailbox. -/
theorem connectAll_ok {ps : List UInt8} (hNodup : ps.Nodup)
    (hFresh : ∀ p ∈ ps, (hub.mailbox p).rx = .unclaimed) :
    ∃ hub', hub.connectAll ps = .ok hub' ∧
      (∀ p ∈ ps, hub'.mailbox p = { hub.mailbox p with rx := .claimed }) ∧
      ∀ p, p ∉ ps → hub'.mailbox p = hub.mailbox p := by
  -- party by party: the next one's mailbox is still unclaimed
  induction ps generalizing hub with
  | nil => exact ⟨hub, rfl, by simp, fun p _ => rfl⟩
  | cons p ps ih =>
    obtain ⟨hNot, hNodup⟩ := List.nodup_cons.mp hNodup
    obtain ⟨hub₁, hConnect, hBoxes⟩ := connect_ok (hFresh p List.mem_cons_self)
    have hOther : ∀ q ∈ ps, hub₁.mailbox q = hub.mailbox q := by
      intro q hq
      have hNe : q ≠ p := by
        rintro rfl
        exact hNot hq
      rw [hBoxes q, if_neg hNe]
    obtain ⟨hub₂, hRest, hClaimed, hKept⟩ := ih hNodup fun q hq => by
      rw [hOther q hq]
      exact hFresh q (List.mem_cons_of_mem p hq)
    refine ⟨hub₂, ?_, ?_, ?_⟩
    · show List.foldlM connect hub (p :: ps) = _
      rw [List.foldlM_cons, hConnect]
      exact hRest
    · intro q hq
      rcases List.mem_cons.mp hq with rfl | hq
      · rw [hKept q hNot, hBoxes q, if_pos rfl]
      · rw [hClaimed q hq, hOther q hq]
    · intro q hq
      obtain ⟨hNe, hNotIn⟩ := not_or.mp (List.mem_cons.not.mp hq)
      rw [hKept q hNotIn, hBoxes q, if_neg hNe]

end MemoryHub

-- ---------------------------------------------------------------------------
-- A ceremony over the hub
-- ---------------------------------------------------------------------------

section

variable {C : Crypto} {κ α : Type}

/-- The script has returned. -/
def Party.ended (party : Party C κ α) : Bool :=
  match party.node with
  | .finished _ => true
  | _ => false

/-- The parties of one process and the hub between them. -/
structure Hosted (C : Crypto) (κ α : Type) where
  hub : MemoryHub C
  party : UInt8 → Party C κ α

/-- A party does something by itself, reads its mailbox, or returns and drops its
relay. -/
inductive HostMove
  | turn (p : UInt8)
  | recv (p : UInt8)
  | leave (p : UInt8)

namespace Ceremony

variable (K : Ceremony C κ α)

/-- Every party is connected before any of them runs. -/
def hosted : Except Halt (Hosted C κ α) := do
  let hub ← MemoryHub.new.connectAll K.participants
  return { hub, party := K.init.party }

/-- One move of a hosted party, if it is possible. -/
def hostStep (w : Hosted C κ α) : HostMove → Option (Hosted C κ α)
  | .turn p =>
    if p ∈ K.participants then
      ((w.party p).turn (K.rnd p)).map fun (party, sent) =>
        match w.hub.sendAll sent with
        | (hub, .ok ()) => { hub, party := Function.update w.party p party }
        -- `send_round` returns the relay's error, and so does the party
        | (hub, .error e) =>
          { hub, party := Function.update w.party p ⟨party.calls, .finished (.error (.error e))⟩ }
    else none
  | .recv p =>
    if p ∈ K.participants then
      (w.hub.recv p).bind fun (senv, hub) =>
        ((w.party p).receive senv).map fun party =>
          { hub, party := Function.update w.party p party }
    else none
  | .leave p =>
    if p ∈ K.participants ∧ (w.party p).ended = true ∧ (w.hub.mailbox p).rx = .claimed then
      some { w with hub := w.hub.dropRelay p }
    else none

/-- The process as a transition system. -/
def hostMachine : Machine (Hosted C κ α) HostMove := ⟨K.hostStep⟩

/-- Every run over the hub makes these calls and ends so, none gets stuck, and
when nothing can move any more every relay is gone. -/
def HostComputes (calls : UInt8 → List κ) (result : UInt8 → Except Halt α) : Prop :=
  ∃ start, K.hosted = .ok start ∧
    ∀ w, K.hostMachine.Reach (fun _ _ => True) start w →
      (∀ p ∈ K.participants, (w.party p).calls <+: calls p ∧
        ∀ r, (w.party p).node = .finished r → (w.party p).calls = calls p ∧ r = result p) ∧
      ((∀ m, K.hostStep w m = none) → ∀ p ∈ K.participants,
        (∃ r, (w.party p).node = .finished r) ∧ (w.hub.mailbox p).rx = .dropped)

-- ---------------------------------------------------------------------------
-- The hub and the network
-- ---------------------------------------------------------------------------

/-- The same parties, and in each mailbox that still has a reader what is in
flight to it. -/
structure Mirrors (w : Hosted C κ α) (v : Net C κ α) : Prop where
  party : w.party = v.party
  boxes : ∀ p ∈ K.participants,
    ((w.hub.mailbox p).rx = .claimed ∧
      (w.hub.mailbox p).queue = v.flight.filter fun s => s.env.recipient = p) ∨
    ((w.hub.mailbox p).rx = .dropped ∧ (w.party p).ended = true)

variable {K}

/-- An ended party has a result. -/
theorem Party.ended_iff {party : Party C κ α} :
    party.ended = true ↔ ∃ r, party.node = .finished r := by
  unfold Party.ended
  split <;> simp_all

/-- The oldest envelope in flight to `p`, taken out. -/
theorem flight_head {flight queue : List (SignedEnvelope C)} {senv : SignedEnvelope C} {p : UInt8}
    (h : flight.filter (fun s => s.env.recipient = p) = senv :: queue) :
    ∃ i, flight[i]? = some senv ∧ senv.env.recipient = p ∧
      (flight.eraseIdx i).filter (fun s => s.env.recipient = p) = queue ∧
      ∀ q, q ≠ p → (flight.eraseIdx i).filter (fun s => s.env.recipient = q) =
        flight.filter fun s => s.env.recipient = q := by
  obtain ⟨before, after, rfl, hNone, hTo, hQueue⟩ := List.filter_eq_cons_iff.mp h
  have hTo' : senv.env.recipient = p := of_decide_eq_true hTo
  have hErase : (before ++ senv :: after).eraseIdx before.length = before ++ after := by
    rw [List.eraseIdx_append_of_length_le (Nat.le_refl _), Nat.sub_self]
    rfl
  refine ⟨before.length, ?_, hTo', ?_, ?_⟩
  · rw [List.getElem?_append_right (Nat.le_refl _), Nat.sub_self]
    rfl
  · rw [hErase, List.filter_append, List.filter_eq_nil_iff.mpr hNone, hQueue]
    rfl
  · intro q hNe
    have hOther : ¬ senv.env.recipient = q := fun hq => hNe (hq.symm.trans hTo')
    rw [hErase, List.filter_append, List.filter_append, List.filter_cons,
      if_neg (by simpa using hOther)]

variable {stages : List Stage} {calls : UInt8 → List κ} {result : UInt8 → Except Halt α}
  (D : K.Direct stages calls result) (hNodup : K.participants.Nodup)
  (hWanted : ∀ st ∈ stages, st.Wanted) {w w' : Hosted C κ α} {v : Net C κ α} {p : UInt8}
include D

/-- What a state of the hub has to do with one of the network. -/
def Follower (K : Ceremony C κ α) (stages : List Stage) (calls : UInt8 → List κ)
    (result : UInt8 → Except Halt α) (w : Hosted C κ α) (v : Net C κ α) : Prop :=
  K.Mirrors w v ∧ Ledger K stages calls result v

include hNodup hWanted in
/-- A turn is a turn: no mailbox it sends to is closed. -/
theorem follower_turn (h : K.Follower stages calls result w v)
    (hStep : K.hostStep w (.turn p) = some w') :
    ∃ v', K.step v (.turn p) = some v' ∧ K.Follower stages calls result w' v' := by
  obtain ⟨⟨hParty, hBoxes⟩, hLedger⟩ := h
  simp only [hostStep] at hStep
  split at hStep
  case isFalse => simp at hStep
  rename_i hp
  obtain ⟨⟨party, sent⟩, hTurn, hNext⟩ := Option.map_eq_some_iff.mp hStep
  rw [hParty] at hTurn
  -- a party that ended is written to no more, so no send fails
  have hOpen : ∀ senv ∈ sent, (w.hub.mailbox senv.env.recipient).rx ≠ .dropped := by
    intro senv hOut hDropped
    obtain ⟨hTo, hRuns⟩ := hLedger.mailbox_open D hNodup hWanted hp hTurn hOut
    rcases hBoxes _ hTo with ⟨hClaimed, -⟩ | ⟨-, hEnded⟩
    · rw [hClaimed] at hDropped
      cases hDropped
    · rw [hParty] at hEnded
      obtain ⟨r, hFinished⟩ := Party.ended_iff.mp hEnded
      exact hRuns r hFinished
  obtain ⟨hub, hSent, hAfter⟩ := MemoryHub.sendAll_ok hOpen
  simp only [hSent] at hNext
  subst hNext
  refine ⟨{ v with party := Function.update v.party p party, flight := v.flight ++ sent }, ?_,
    ⟨?_, ?_⟩, hLedger.turn D hNodup hp hTurn⟩
  · simp only [Ceremony.step, if_pos hp, hTurn, Option.map_some]
  · show Function.update w.party p party = Function.update v.party p party
    rw [hParty]
  · intro q hq
    show (hub.mailbox q).rx = _ ∧ (hub.mailbox q).queue = (v.flight ++ sent).filter _ ∨
      (hub.mailbox q).rx = _ ∧ (Function.update w.party p party q).ended = true
    rw [hAfter q, List.filter_append]
    rcases hBoxes q hq with ⟨hClaimed, hQueue⟩ | ⟨hDropped, hEnded⟩
    · exact Or.inl ⟨hClaimed, by rw [hQueue]⟩
    · refine Or.inr ⟨hDropped, ?_⟩
      by_cases hSame : q = p
      · -- whoever turned had not ended
        subst hSame
        rw [hParty] at hEnded
        obtain ⟨r, hFinished⟩ := Party.ended_iff.mp hEnded
        simp [Party.turn, hFinished] at hTurn
      · rwa [Function.update_of_ne hSame]

/-- A read delivers the oldest envelope in flight to the reader. -/
theorem follower_recv (h : K.Follower stages calls result w v)
    (hStep : K.hostStep w (.recv p) = some w') :
    ∃ i v', K.step v (.deliver i) = some v' ∧ K.Follower stages calls result w' v' := by
  obtain ⟨⟨hParty, hBoxes⟩, hLedger⟩ := h
  simp only [hostStep] at hStep
  split at hStep
  case isFalse => simp at hStep
  rename_i hp
  obtain ⟨⟨senv, hub⟩, hRecv, hMap⟩ := Option.bind_eq_some_iff.mp hStep
  obtain ⟨party, hReceive, rfl⟩ := Option.map_eq_some_iff.mp hMap
  rw [hParty] at hReceive
  obtain ⟨queue, hHead, hAfter⟩ := MemoryHub.recv_some hRecv
  -- whose relay is gone has ended, and reads nothing
  rcases hBoxes p hp with ⟨hClaimed, hQueue⟩ | ⟨-, hEnded⟩
  swap
  · rw [hParty] at hEnded
    obtain ⟨r, hFinished⟩ := Party.ended_iff.mp hEnded
    simp [Party.receive, hFinished] at hReceive
  obtain ⟨i, hAt, rfl, hRest, hOthers⟩ := flight_head (hQueue.symm.trans hHead)
  refine ⟨i, { party := Function.update v.party senv.env.recipient party
               flight := v.flight.eraseIdx i
               handed := Function.update v.handed senv.env.recipient
                 (v.handed senv.env.recipient ++ [senv]) }, ?_, ⟨?_, ?_⟩,
    hLedger.deliver D hAt hReceive⟩
  · simp only [Ceremony.step, hAt, Option.bind_some, hReceive, Option.map_some]
  · show Function.update w.party _ party = Function.update v.party _ party
    rw [hParty]
  · intro q hq
    show (hub.mailbox q).rx = _ ∧ (hub.mailbox q).queue = (v.flight.eraseIdx i).filter _ ∨
      (hub.mailbox q).rx = _ ∧ (Function.update w.party senv.env.recipient party q).ended = true
    rw [hAfter q]
    by_cases hSame : q = senv.env.recipient
    · rw [if_pos hSame, hSame]
      exact Or.inl ⟨hClaimed, hRest.symm⟩
    · rw [if_neg hSame, Function.update_of_ne hSame, hOthers q hSame]
      exact hBoxes q hq

omit D in
/-- A relay that goes takes along only what its party does not read any more. -/
theorem follower_leave (h : K.Follower stages calls result w v)
    (hStep : K.hostStep w (.leave p) = some w') : K.Follower stages calls result w' v := by
  obtain ⟨⟨hParty, hBoxes⟩, hLedger⟩ := h
  simp only [hostStep] at hStep
  split at hStep
  case isFalse => simp at hStep
  rename_i hLeaves
  obtain ⟨-, hEnded, -⟩ := hLeaves
  obtain rfl := Option.some.inj hStep
  refine ⟨⟨hParty, ?_⟩, hLedger⟩
  intro q hq
  show ((w.hub.dropRelay p).mailbox q).rx = _ ∧ ((w.hub.dropRelay p).mailbox q).queue = _ ∨
    ((w.hub.dropRelay p).mailbox q).rx = _ ∧ (w.party q).ended = true
  rw [MemoryHub.dropRelay, MemoryHub.mailbox_set]
  by_cases hSame : q = p
  · rw [if_pos hSame, hSame]
    exact Or.inr ⟨rfl, hEnded⟩
  · rw [if_neg hSame]
    exact hBoxes q hq

include hNodup hWanted

/-- **The hub refines the network.** -/
theorem hub_refines : K.hostMachine.Refines (fun _ _ => True) K.machine (fun _ _ => True)
    (K.Follower stages calls result) := by
  rintro w v m w' h - hStep
  cases m with
  | turn p =>
    obtain ⟨v', hNet, hNext⟩ := follower_turn D hNodup hWanted h hStep
    exact ⟨v', (Machine.Reach.refl v).step (a := .turn p) trivial hNet, hNext⟩
  | recv p =>
    obtain ⟨i, v', hNet, hNext⟩ := follower_recv D h hStep
    exact ⟨v', (Machine.Reach.refl v).step (a := .deliver i) trivial hNet, hNext⟩
  | leave p => exact ⟨v, Machine.Reach.refl v, follower_leave h hStep⟩

omit hWanted in
/-- All parties connect, and the ceremony starts as on the network. -/
theorem hosted_ok : ∃ start, K.hosted = .ok start ∧ K.Follower stages calls result start K.init := by
  have hFresh : ∀ p ∈ K.participants, ((MemoryHub.new : MemoryHub C).mailbox p).rx = .unclaimed :=
    fun _ _ => rfl
  obtain ⟨hub, hConnect, hClaimed, -⟩ := MemoryHub.connectAll_ok hNodup hFresh
  refine ⟨⟨hub, K.init.party⟩, ?_, ⟨rfl, fun p hp => Or.inl ?_⟩, Ledger.init D⟩
  · simp only [hosted, hConnect]
    rfl
  · show (hub.mailbox p).rx = _ ∧ (hub.mailbox p).queue = _
    rw [hClaimed p hp]
    exact ⟨rfl, rfl⟩

omit hNodup hWanted in
/-- Where the hub is stuck the network is. -/
theorem stuck_net (h : K.Follower stages calls result w v)
    (hStuck : ∀ m, K.hostStep w m = none) (m : Move) : K.step v m = none := by
  obtain ⟨⟨hParty, hBoxes⟩, hLedger⟩ := h
  have hIdle : ∀ p ∈ K.participants, (v.party p).turn (K.rnd p) = none := by
    intro p hp
    have hNone := hStuck (.turn p)
    simp only [hostStep, if_pos hp, Option.map_eq_none_iff] at hNone
    rwa [hParty] at hNone
  cases m with
  | turn p =>
    simp only [Ceremony.step]
    split
    · rename_i hp
      rw [hIdle p hp]
      rfl
    · rfl
  | deliver i =>
    -- an envelope in flight to a party that waits could be read at the hub too
    by_contra hMoves
    obtain ⟨v', hNet⟩ := Option.ne_none_iff_exists'.mp hMoves
    simp only [Ceremony.step, Option.bind_eq_some_iff] at hNet
    obtain ⟨senv, hAt, hMap⟩ := hNet
    obtain ⟨party, hReceive, -⟩ := Option.map_eq_some_iff.mp hMap
    have hFlight := List.mem_of_getElem? hAt
    obtain ⟨st, -, q, hq, hEnv⟩ := hLedger.inv.flight senv hFlight
    have hTo : senv.env.recipient ∈ K.participants := by
      obtain ⟨-, hPeer, -⟩ := mem_sendRound hEnv
      exact (mem_peers.mp hPeer).1
    have hWaits : ∀ r, (v.party senv.env.recipient).node ≠ .finished r := by
      intro r hFinished
      simp [Party.receive, hFinished] at hReceive
    rcases hBoxes _ hTo with ⟨-, hQueue⟩ | ⟨-, hEnded⟩
    · -- its mailbox is not empty, and it reads what it finds
      have hMem : senv ∈ (w.hub.mailbox senv.env.recipient).queue := by
        rw [hQueue]
        exact List.mem_filter.mpr ⟨hFlight, decide_eq_true rfl⟩
      obtain ⟨head, rest, hCons⟩ := List.exists_cons_of_ne_nil (List.ne_nil_of_mem hMem)
      have hNone := hStuck (.recv senv.env.recipient)
      simp only [hostStep, if_pos hTo, MemoryHub.recv, hCons, Option.bind_some,
        Option.map_eq_none_iff] at hNone
      rw [hParty] at hNone
      obtain ⟨past, sent, hStanding, -⟩ := hLedger.inv.standing _ hTo
      have hReads := receive_isSome D (hLedger.inv.handed _) hStanding (hIdle _ hTo) hWaits head
      simp [hNone] at hReads
    · rw [hParty] at hEnded
      obtain ⟨r, hFinished⟩ := Party.ended_iff.mp hEnded
      exact hWaits r hFinished

/-- **The hub computes what direct routing computes**, and every relay is dropped
at the end. -/
theorem hosted_computes : K.HostComputes calls result := by
  obtain ⟨start, hStart, hFollows⟩ := hosted_ok D hNodup
  refine ⟨start, hStart, fun w hReach => ?_⟩
  obtain ⟨v, hNet, hMirrors, hLedger⟩ :=
    hReach.follows (hub_refines D hNodup hWanted) hFollows
  constructor
  · intro p hp
    obtain ⟨past, sent, hStanding, -⟩ := hLedger.standing p hp
    rw [hMirrors.party]
    exact standing_calls hStanding
  · intro hStuck p hp
    have hEnded := stuck_finished D hLedger.inv (stuck_net D ⟨hMirrors, hLedger⟩ hStuck) p hp
    rw [← hMirrors.party] at hEnded
    refine ⟨hEnded, ?_⟩
    rcases hMirrors.boxes p hp with ⟨hClaimed, -⟩ | ⟨hDropped, -⟩
    · have hNone := hStuck (.leave p)
      have hLeaves : p ∈ K.participants ∧ (w.party p).ended = true ∧
          (w.hub.mailbox p).rx = .claimed := ⟨hp, Party.ended_iff.mpr hEnded, hClaimed⟩
      simp only [hostStep, if_pos hLeaves] at hNone
      cases hNone
    · exact hDropped

end Ceremony

end

end Sovra.Mpc
