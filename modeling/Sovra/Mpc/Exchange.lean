import Sovra.Mpc.Envelope

/-!
# Sovra — the round driver

`sovra-mpc`'s `exchange.rs`: one party's half of one `(instance, op)` ceremony.
`sendRound` signs and seals a round's outbox; `recvRound` collects a round,
dropping foreign traffic, authenticating the rest, and buffering what arrived
ahead of its round.

What the relay and the clock do is an input: `sendRound` takes the outcome of
each `relay.send`, `recvRound` the list of things the relay hands it, among
them the deadline passing. A `recvRound` that has consumed the list and still
misses a message is `pending`.

* `mem_sendRound` — everything `sendRound` signs, field by field.
* `admitEnv_cases` — what admitting one envelope can do.
* `Exchange.Timely.files` — what it takes to be filed, beside the instance.
-/

namespace Sovra.Mpc

/-- `BTreeMap<u8, Vec<u8>>`: iterated in ascending key order. -/
abbrev PartyMap := Std.ExtTreeMap UInt8 Bytes

/-- `PartyContext`. The `ttl` is not a field: the deadline is an input of
`recvRound`. -/
structure PartyContext (C : Crypto) where
  partyId : UInt8
  inst : B256
  signingKey : C.SigningKey
  partyVks : List C.VerifyingKey
  threshold : UInt8

/-- What one party emits in one round. -/
structure RoundOutbox where
  broadcast : Option Bytes
  p2p : PartyMap

/-- What one party collected in one round, keyed by sender. -/
@[ext] structure RoundInbox where
  broadcasts : PartyMap
  p2p : PartyMap
deriving DecidableEq

/-- An inbox before anything arrived. -/
def RoundInbox.empty : RoundInbox := ⟨∅, ∅⟩

/-- Which message kinds a round expects from every peer. -/
inductive Expect
  | Broadcasts
  | P2p
  | Both
deriving DecidableEq

/-- `expect.broadcasts()`. -/
def Expect.broadcasts (e : Expect) : Bool := e ≠ .P2p

/-- `expect.p2p()`. -/
def Expect.p2p (e : Expect) : Bool := e ≠ .Broadcasts

/-- Whether a round wants envelopes of this kind (`true` = sealed). -/
def Expect.wants (e : Expect) (sealed : Bool) : Bool :=
  if sealed then e.p2p else e.broadcasts

/-- `{:?}` of an `Expect`. -/
def Expect.debug : Expect → String
  | .Broadcasts => "Broadcasts"
  | .P2p => "P2p"
  | .Both => "Both"

/-- `Exchange`: the ceremony, the peers, and what arrived ahead of its round. -/
structure Exchange (C : Crypto) where
  ctx : PartyContext C
  op : UInt8
  peers : List UInt8
  ahead : List (SignedEnvelope C)

section

variable {C : Crypto}

/-- `Exchange::new`: `participants` is the ceremony's member set. -/
def Exchange.new (ctx : PartyContext C) (op : UInt8) (participants : List UInt8) :
    Exchange C :=
  { ctx, op, peers := participants.filter fun p => p ≠ ctx.partyId, ahead := [] }

-- ---------------------------------------------------------------------------
-- Sending a round
-- ---------------------------------------------------------------------------

/-- How `send_round` stops short: an error it returns, or the panic of a roster
index out of range. -/
inductive Halt
  | error (e : MpcError)
  | panic
deriving DecidableEq

/-- The envelopes a round hands to the relay, in order: the broadcast fanned
out to the peers, then the p2p payloads by recipient. -/
def Exchange.outgoing (ex : Exchange C) (round : UInt8) (outbox : RoundOutbox)
    (rnd : UInt8 → SealRandomness C) : List (Except Halt (SignedEnvelope C)) :=
  (match outbox.broadcast with
    | none => []
    | some payload => ex.peers.map fun to_ =>
        .ok ((Envelope.mkBroadcast ex.ctx.inst ex.op round ex.ctx.partyId to_ payload).sign
          ex.ctx.signingKey)) ++
  outbox.p2p.toList.map fun (to_, plaintext) =>
    if to_ ∉ ex.peers then
      .error (.error (.envelopeAuth ("p2p recipient " ++ toString to_.toNat ++
        " is not a ceremony peer")))
    else
      match ex.ctx.partyVks[to_.toNat]? with
      | none => .error .panic
      | some vk =>
        match Envelope.mkSealed (rnd to_) ex.ctx.inst ex.op round ex.ctx.partyId to_ vk
            plaintext with
        | .error e => .error (.error e)
        | .ok env => .ok (env.sign ex.ctx.signingKey)

/-- Hand envelopes to the relay until one step fails. -/
def transmit (relay : SignedEnvelope C → Except MpcError Unit) :
    List (Except Halt (SignedEnvelope C)) → List (SignedEnvelope C) × Except Halt Unit
  | [] => ([], .ok ())
  | .error e :: _ => ([], .error e)
  | .ok senv :: rest =>
    match relay senv with
    | .error e => ([senv], .error (.error e))
    | .ok () => (senv :: (transmit relay rest).1, (transmit relay rest).2)

/-- `send_round`: the envelopes it signed and offered to the relay, and how it
returned. -/
def Exchange.sendRound (ex : Exchange C) (relay : SignedEnvelope C → Except MpcError Unit)
    (rnd : UInt8 → SealRandomness C) (round : UInt8) (outbox : RoundOutbox) :
    List (SignedEnvelope C) × Except Halt Unit :=
  transmit relay (ex.outgoing round outbox rnd)

/-- What was offered to the relay was to be offered. -/
theorem mem_transmit {relay : SignedEnvelope C → Except MpcError Unit}
    {steps : List (Except Halt (SignedEnvelope C))} {senv : SignedEnvelope C}
    (h : senv ∈ (transmit relay steps).1) : .ok senv ∈ steps := by
  -- the relay is offered a beginning of the list
  induction steps with
  | nil => simp [transmit] at h
  | cons s rest ih =>
    cases s with
    | error e => simp [transmit] at h
    | ok senv' =>
      rw [transmit] at h
      cases hRelay : relay senv' with
      | error e =>
        rw [hRelay] at h
        rw [List.mem_singleton.mp h]
        exact List.mem_cons_self
      | ok u =>
        rw [hRelay] at h
        rcases List.mem_cons.mp h with rfl | hRest
        · exact List.mem_cons_self
        · exact List.mem_cons_of_mem _ (ih hRest)

/-- What `send_round` signs is this ceremony's header for a peer, over the
outbox's broadcast or over a seal of the peer's p2p entry. -/
theorem mem_sendRound {ex : Exchange C} {relay : SignedEnvelope C → Except MpcError Unit}
    {rnd : UInt8 → SealRandomness C} {round : UInt8} {outbox : RoundOutbox}
    {senv : SignedEnvelope C} (h : senv ∈ (ex.sendRound relay rnd round outbox).1) :
    senv = senv.env.sign ex.ctx.signingKey ∧ senv.env.recipient ∈ ex.peers ∧
    ((∃ payload, outbox.broadcast = some payload ∧
        senv.env = Envelope.mkBroadcast ex.ctx.inst ex.op round ex.ctx.partyId
          senv.env.recipient payload) ∨
      (∃ plaintext vk, outbox.p2p[senv.env.recipient]? = some plaintext ∧
        ex.ctx.partyVks[senv.env.recipient.toNat]? = some vk ∧
        Envelope.mkSealed (rnd senv.env.recipient) ex.ctx.inst ex.op round ex.ctx.partyId
          senv.env.recipient vk plaintext = .ok senv.env)) := by
  have hStep := mem_transmit h
  rw [Exchange.outgoing, List.mem_append] at hStep
  -- either half of `outgoing`
  rcases hStep with hBroadcast | hP2p
  · cases hOut : outbox.broadcast with
    | none => simp [hOut] at hBroadcast
    | some payload =>
      rw [hOut] at hBroadcast
      obtain ⟨to_, hPeer, hEq⟩ := List.mem_map.mp hBroadcast
      rw [← Except.ok.inj hEq]
      exact ⟨rfl, hPeer, Or.inl ⟨payload, rfl, rfl⟩⟩
  · -- a p2p entry is offered only for a peer with a key, and only if it seals
    obtain ⟨⟨to_, plaintext⟩, hEntry, hEq⟩ := List.mem_map.mp hP2p
    have hGet := Std.ExtTreeMap.mem_toList_iff_getElem?_eq_some.mp hEntry
    simp only at hEq
    split at hEq
    · cases hEq
    rename_i hPeer
    rw [not_not] at hPeer
    split at hEq
    · cases hEq
    rename_i vk hVk
    split at hEq
    · cases hEq
    rename_i env hSeal
    have hTo : env.recipient = to_ := by rw [mkSealed_fields hSeal]
    rw [← Except.ok.inj hEq]
    simp only [Envelope.sign, hTo]
    exact ⟨trivial, hPeer, Or.inr ⟨plaintext, vk, hGet, hVk, hSeal⟩⟩

-- ---------------------------------------------------------------------------
-- Receiving a round
-- ---------------------------------------------------------------------------

/-- The filter at the head of `admit`: this ceremony, this recipient, a peer. -/
def Exchange.concerns (ex : Exchange C) (e : Envelope) : Bool :=
  e.inst = ex.ctx.inst ∧ e.op = ex.op ∧ e.recipient = ex.ctx.partyId ∧ e.sender ∈ ex.peers

/-- The slot of an inbox a kind files into. -/
def RoundInbox.slot (inbox : RoundInbox) (sealed : Bool) : PartyMap :=
  if sealed then inbox.p2p else inbox.broadcasts

/-- The entry of one sender and kind. -/
def RoundInbox.insert (inbox : RoundInbox) (sealed : Bool) (p : UInt8) (m : Bytes) :
    RoundInbox :=
  if sealed then { inbox with p2p := inbox.p2p.insert p m }
  else { inbox with broadcasts := inbox.broadcasts.insert p m }

/-- What `file` stores: the opened p2p payload, or the plain broadcast. -/
def Exchange.content (ex : Exchange C) (e : Envelope) : Except MpcError Bytes :=
  if e.sealed then e.unseal ex.ctx.signingKey else .ok e.payload

/-- `file`: a verified current-round envelope goes into the inbox unless its
kind is not expected or its sender already delivered one. -/
def Exchange.file (ex : Exchange C) (senv : SignedEnvelope C) (inbox : RoundInbox)
    (expect : Expect) : Except MpcError RoundInbox :=
  if !expect.wants senv.env.sealed then .ok inbox
  else if (inbox.slot senv.env.sealed).contains senv.env.sender then .ok inbox
  else
    match ex.content senv.env with
    | .error e => .error e
    | .ok payload => .ok (inbox.insert senv.env.sealed senv.env.sender payload)

/-- `admit`: drop foreign traffic, authenticate, buffer ahead-of-round, drop
late, file current-round. -/
def Exchange.admitEnv (ex : Exchange C) (round : UInt8) (senv : SignedEnvelope C)
    (inbox : RoundInbox) (expect : Expect) : Except MpcError (Exchange C × RoundInbox) :=
  if !ex.concerns senv.env then .ok (ex, inbox)
  else
    match senv.verify ex.ctx.partyVks with
    | .error e => .error e
    | .ok () =>
      match compare senv.env.round round with
      | .gt => .ok ({ ex with ahead := ex.ahead ++ [senv] }, inbox)
      | .lt => .ok (ex, inbox)
      | .eq =>
        match ex.file senv inbox expect with
        | .error e => .error e
        | .ok inbox' => .ok (ex, inbox')

/-- `complete`: every peer delivered every expected kind. -/
def Exchange.complete (ex : Exchange C) (inbox : RoundInbox) (expect : Expect) : Bool :=
  (!expect.broadcasts || ex.peers.all fun p => inbox.broadcasts.contains p) &&
  (!expect.p2p || ex.peers.all fun p => inbox.p2p.contains p)

/-- One thing `timeout_at(deadline, relay.recv())` can yield. -/
inductive Inbound (C : Crypto)
  | envelope (senv : SignedEnvelope C)
  | recvError (e : MpcError)
  | elapsed

/-- How a `recv_round` call stands once the inbound list is used up. -/
inductive Recv (C : Crypto)
  | ready (inbox : RoundInbox) (ex : Exchange C) (rest : List (Inbound C))
  | failed (e : MpcError)
  | pending

/-- The error a passed deadline turns into: the gap, by name. -/
def Exchange.timeoutError (ex : Exchange C) (round : UInt8) (inbox : RoundInbox)
    (expect : Expect) : MpcError :=
  .transport ("op " ++ toString ex.op.toNat ++ " round " ++ toString round.toNat ++
    ": timed out with broadcasts from " ++ debugList inbox.broadcasts.keys ++
    ", p2p from " ++ debugList inbox.p2p.keys ++
    ", expecting " ++ expect.debug ++ " from all of " ++ debugList ex.peers)

/-- The `for` loop of `recv_round`: re-admit what an earlier round buffered. -/
def Exchange.drainAhead (ex : Exchange C) (round : UInt8) (expect : Expect) (inbox : RoundInbox) :
    List (SignedEnvelope C) → Except MpcError (Exchange C × RoundInbox)
  | [] => .ok (ex, inbox)
  | senv :: rest =>
    match ex.admitEnv round senv inbox expect with
    | .error e => .error e
    | .ok (ex', inbox') => ex'.drainAhead round expect inbox' rest

/-- The `while` loop of `recv_round`: admit from the relay until complete. -/
def Exchange.collect (ex : Exchange C) (round : UInt8) (expect : Expect) (inbox : RoundInbox) :
    List (Inbound C) → Recv C
  | [] => if ex.complete inbox expect then .ready inbox ex [] else .pending
  | i :: rest =>
    if ex.complete inbox expect then .ready inbox ex (i :: rest)
    else
      match i with
      | .elapsed => .failed (ex.timeoutError round inbox expect)
      | .recvError e => .failed e
      | .envelope senv =>
        match ex.admitEnv round senv inbox expect with
        | .error e => .failed e
        | .ok (ex', inbox') => ex'.collect round expect inbox' rest

/-- `recv_round`: what the buffer held first, then what the relay hands over. -/
def Exchange.recvRound (ex : Exchange C) (round : UInt8) (expect : Expect)
    (inbound : List (Inbound C)) : Recv C :=
  match { ex with ahead := [] }.drainAhead round expect .empty ex.ahead with
  | .error e => .failed e
  | .ok (ex', inbox) => ex'.collect round expect inbox inbound

/-- How a run of successive `recv_round` calls ends. -/
inductive Ending
  | done
  | blocked
  | failed (e : MpcError)
deriving DecidableEq

/-- The successive `recv_round` calls of one ceremony, as an adapter makes them
on one `Exchange`: the inboxes they return, and how the run ends. -/
def Exchange.recvRounds (ex : Exchange C) :
    List (UInt8 × Expect) → List (Inbound C) → List RoundInbox × Ending
  | [], _ => ([], .done)
  | (round, expect) :: calls, inbound =>
    match ex.recvRound round expect inbound with
    | .failed e => ([], .failed e)
    | .pending => ([], .blocked)
    | .ready inbox ex' rest =>
      (inbox :: (ex'.recvRounds calls rest).1, (ex'.recvRounds calls rest).2)

/-- The loop's body, with the check at its head. -/
theorem collect_cons (ex : Exchange C) (round : UInt8) (expect : Expect) (inbox : RoundInbox)
    (i : Inbound C) (rest : List (Inbound C)) :
    ex.collect round expect inbox (i :: rest) =
      if ex.complete inbox expect then .ready inbox ex (i :: rest)
      else
        match i with
        | .elapsed => .failed (ex.timeoutError round inbox expect)
        | .recvError e => .failed e
        | .envelope senv =>
          match ex.admitEnv round senv inbox expect with
          | .error e => .failed e
          | .ok (ex', inbox') => ex'.collect round expect inbox' rest := by
  cases i <;> rfl

-- ---------------------------------------------------------------------------
-- Inboxes by kind
-- ---------------------------------------------------------------------------

/-- Nothing is in an empty inbox. -/
@[simp] theorem slot_empty (k : Bool) : RoundInbox.empty.slot k = ∅ := by
  cases k <;> rfl

/-- An entry goes into the slot of its kind. -/
@[simp] theorem slot_insert (inbox : RoundInbox) (k k' : Bool) (p : UInt8) (m : Bytes) :
    (inbox.insert k p m).slot k' =
      if k = k' then (inbox.slot k').insert p m else inbox.slot k' := by
  cases k <;> cases k' <;> rfl

/-- `complete`, over both kinds at once. -/
theorem complete_iff {ex : Exchange C} {inbox : RoundInbox} {expect : Expect} :
    ex.complete inbox expect = true ↔
      ∀ k, expect.wants k = true → ∀ p ∈ ex.peers, p ∈ inbox.slot k := by
  have hSplit : (∀ k, expect.wants k = true → ∀ p ∈ ex.peers, p ∈ inbox.slot k) ↔
      (expect.broadcasts = true → ∀ p ∈ ex.peers, p ∈ inbox.broadcasts) ∧
        (expect.p2p = true → ∀ p ∈ ex.peers, p ∈ inbox.p2p) :=
    ⟨fun h => ⟨h false, h true⟩, fun h k => k.casesOn h.1 h.2⟩
  rw [hSplit, Exchange.complete, Bool.and_eq_true, Bool.or_eq_true, Bool.or_eq_true]
  cases expect <;> simp [Expect.broadcasts, Expect.p2p]

/-- A verified envelope is signed under the roster's key for its sender. -/
theorem verify_ok {senv : SignedEnvelope C} {roster : List C.VerifyingKey}
    (h : senv.verify roster = .ok ()) :
    ∃ vk, roster[senv.env.sender.toNat]? = some vk ∧
      C.verifyStrict vk (senv.env.signingPreimage C) senv.sig = true := by
  unfold SignedEnvelope.verify at h
  split at h
  · cases h
  rename_i vk hVk
  split at h
  · rename_i hSig
    exact ⟨vk, hVk, hSig⟩
  · cases h

-- ---------------------------------------------------------------------------
-- What one admission can do
-- ---------------------------------------------------------------------------

/-- What the filter lets through. -/
theorem concerns_iff {ex : Exchange C} {e : Envelope} :
    ex.concerns e = true ↔ e.inst = ex.ctx.inst ∧ e.op = ex.op ∧
      e.recipient = ex.ctx.partyId ∧ e.sender ∈ ex.peers := by
  simp [Exchange.concerns]

/-- Filing leaves the inbox alone or adds the opened content of a wanted kind
under its sender, whose slot was free. -/
theorem file_cases {ex : Exchange C} {senv : SignedEnvelope C} {inbox inbox' : RoundInbox}
    {expect : Expect} (h : ex.file senv inbox expect = .ok inbox') :
    (inbox' = inbox ∧ (expect.wants senv.env.sealed = false ∨
      senv.env.sender ∈ inbox.slot senv.env.sealed)) ∨
    (expect.wants senv.env.sealed = true ∧ senv.env.sender ∉ inbox.slot senv.env.sealed ∧
      ∃ m, ex.content senv.env = .ok m ∧
        inbox' = inbox.insert senv.env.sealed senv.env.sender m) := by
  unfold Exchange.file at h
  split at h
  · rename_i hWants
    exact Or.inl ⟨(Except.ok.inj h).symm, Or.inl (by simpa using hWants)⟩
  rename_i hWants
  split at h
  · rename_i hSlot
    exact Or.inl ⟨(Except.ok.inj h).symm,
      Or.inr (Std.ExtTreeMap.mem_iff_contains.mpr hSlot)⟩
  rename_i hSlot
  split at h
  · cases h
  rename_i m hContent
  refine Or.inr ⟨by simpa using hWants, ?_, m, hContent, (Except.ok.inj h).symm⟩
  rw [Std.ExtTreeMap.mem_iff_contains]
  exact hSlot

/-- **Inversion of `admit`.** A successful admission drops the envelope
(foreign or late), buffers it (authenticated and early), or files it
(authenticated and of this round). -/
theorem admitEnv_cases {ex ex' : Exchange C} {round : UInt8} {senv : SignedEnvelope C}
    {inbox inbox' : RoundInbox} {expect : Expect}
    (h : ex.admitEnv round senv inbox expect = .ok (ex', inbox')) :
    (ex' = ex ∧ inbox' = inbox ∧ (ex.concerns senv.env = false ∨ senv.env.round < round)) ∨
    (ex.concerns senv.env = true ∧ senv.verify ex.ctx.partyVks = .ok () ∧
      round < senv.env.round ∧ ex' = { ex with ahead := ex.ahead ++ [senv] } ∧
      inbox' = inbox) ∨
    (ex.concerns senv.env = true ∧ senv.verify ex.ctx.partyVks = .ok () ∧
      senv.env.round = round ∧ ex' = ex ∧ ex.file senv inbox expect = .ok inbox') := by
  unfold Exchange.admitEnv at h
  split at h
  · -- of another run, party or peer: dropped
    rename_i hForeign
    obtain ⟨rfl, rfl⟩ := Prod.mk.inj (Except.ok.inj h)
    exact Or.inl ⟨rfl, rfl, Or.inl (by simpa using hForeign)⟩
  rename_i hConcerns
  rw [Bool.not_eq_true, Bool.not_eq_false'] at hConcerns
  split at h
  · cases h
  rename_i hVerify
  split at h
  · -- of a round to come: buffered
    rename_i hGt
    obtain ⟨rfl, rfl⟩ := Prod.mk.inj (Except.ok.inj h)
    exact Or.inr (Or.inl ⟨hConcerns, hVerify, Std.compare_eq_gt.mp hGt, rfl, rfl⟩)
  · -- of a round that is over: dropped
    rename_i hLt
    obtain ⟨rfl, rfl⟩ := Prod.mk.inj (Except.ok.inj h)
    exact Or.inl ⟨rfl, rfl, Or.inr (Std.compare_eq_lt.mp hLt)⟩
  · -- of this round: filed
    rename_i hEq
    split at h
    · cases h
    rename_i inbox₁ hFile
    obtain ⟨rfl, rfl⟩ := Prod.mk.inj (Except.ok.inj h)
    exact Or.inr (Or.inr ⟨hConcerns, hVerify, Std.compare_eq_eq_iff_eq.mp hEq, rfl, hFile⟩)

end

-- ---------------------------------------------------------------------------
-- What is filed
-- ---------------------------------------------------------------------------

section

variable {C : Crypto} {ex : Exchange C} {round : UInt8} {senv : SignedEnvelope C}
  {inbox : RoundInbox} {expect : Expect}

/-- Admission files the envelope: the inbox gains its content. -/
def Exchange.Files (ex : Exchange C) (round : UInt8) (senv : SignedEnvelope C)
    (inbox : RoundInbox) (expect : Expect) : Prop :=
  ∃ ex' inbox', ex.admitEnv round senv inbox expect = .ok (ex', inbox') ∧ inbox' ≠ inbox

/-- Everything admission asks of an envelope but its instance: addressed to this
party by a peer, in this operation and round, signed by the sender's pinned
key, of a kind the round wants, the first such, and readable. -/
structure Exchange.Timely (ex : Exchange C) (round : UInt8) (senv : SignedEnvelope C)
    (inbox : RoundInbox) (expect : Expect) : Prop where
  op : senv.env.op = ex.op
  recipient : senv.env.recipient = ex.ctx.partyId
  sender : senv.env.sender ∈ ex.peers
  signed : senv.verify ex.ctx.partyVks = .ok ()
  round : senv.env.round = round
  wanted : expect.wants senv.env.sealed = true
  first : senv.env.sender ∉ inbox.slot senv.env.sealed
  readable : ∃ m, ex.content senv.env = .ok m

/-- What is filed is this ceremony's. -/
theorem Exchange.Files.concerns (h : ex.Files round senv inbox expect) :
    ex.concerns senv.env = true := by
  obtain ⟨ex', inbox', hAdmit, hNew⟩ := h
  rcases admitEnv_cases hAdmit with ⟨-, hSame, -⟩ | ⟨hConcerns, -⟩ | ⟨hConcerns, -⟩
  · exact absurd hSame hNew
  · exact hConcerns
  · exact hConcerns

/-- A new entry changes the inbox. -/
theorem insert_ne {sealed : Bool} {p : UInt8} {m : Bytes} (h : p ∉ inbox.slot sealed) :
    inbox.insert sealed p m ≠ inbox := by
  intro hEq
  have hMem : p ∈ (inbox.insert sealed p m).slot sealed := by simp
  rw [hEq] at hMem
  exact h hMem

/-- A timely envelope of this instance is filed. -/
theorem Exchange.Timely.files (h : ex.Timely round senv inbox expect)
    (hInst : senv.env.inst = ex.ctx.inst) : ex.Files round senv inbox expect := by
  have hConcerns : ex.concerns senv.env = true :=
    concerns_iff.mpr ⟨hInst, h.op, h.recipient, h.sender⟩
  obtain ⟨m, hContent⟩ := h.readable
  have hFree : (inbox.slot senv.env.sealed).contains senv.env.sender = false := by
    rw [← Bool.not_eq_true, ← Std.ExtTreeMap.mem_iff_contains]
    exact h.first
  have hFile : ex.file senv inbox expect =
      .ok (inbox.insert senv.env.sealed senv.env.sender m) := by
    simp [Exchange.file, h.wanted, hFree, hContent]
  have hCompare : compare senv.env.round round = .eq := by
    rw [h.round]
    exact Std.compare_self
  refine ⟨ex, inbox.insert senv.env.sealed senv.env.sender m, ?_, insert_ne h.first⟩
  simp only [Exchange.admitEnv, hConcerns, Bool.not_true, Bool.false_eq_true, if_false, h.signed,
    hCompare, hFile]

end

end Sovra.Mpc
