import Sovra.Mpc.Exchange

/-!
# Sovra — round messages are authentic

The relay is the adversary's: it chooses which envelopes a party receives, in
which order, and with which bytes. What it cannot do is sign for an
uncorrupted party. Everything a `recvRound` hands out was therefore sent, in
this ceremony, this round and to this recipient, by the party it is filed
under.

* `admitEnv_sourced`, `recvRounds_sourced` — the invariant of the receive
  loop: an inbox entry is the content of an authenticated envelope of the
  round, of its kind and of its sender.
* `sent_of_accepts` — an accepted envelope of an uncorrupted party is one that
  party signed.
* `recvRounds_authentic` — the two combined, over any inbound sequence.
-/

namespace Sovra.Mpc

section

variable {C : Crypto}

-- ---------------------------------------------------------------------------
-- Where an inbox entry comes from
-- ---------------------------------------------------------------------------

/-- The envelope passes the filter and the signature check of `admit`. -/
def Exchange.Accepts (ex : Exchange C) (senv : SignedEnvelope C) : Prop :=
  ex.concerns senv.env = true ∧ senv.verify ex.ctx.partyVks = .ok ()

/-- Every entry of `inbox` is the content of an accepted envelope among `seen`,
of this round, of the entry's kind and sender, and of a kind expected. -/
def Exchange.Sourced (ex : Exchange C) (seen : Set (SignedEnvelope C)) (round : UInt8)
    (expect : Expect) (inbox : RoundInbox) : Prop :=
  ∀ k p m, (inbox.slot k)[p]? = some m → expect.wants k = true ∧
    ∃ senv ∈ seen, ex.Accepts senv ∧ senv.env.round = round ∧ senv.env.sealed = k ∧
      senv.env.sender = p ∧ ex.content senv.env = .ok m

variable {ex ex' : Exchange C} {seen : Set (SignedEnvelope C)} {round : UInt8}
  {expect : Expect} {inbox inbox' : RoundInbox}

/-- An empty inbox owes nobody an explanation. -/
theorem sourced_empty : ex.Sourced seen round expect .empty := by
  intro k p m h
  simp at h

/-- Filing adds the content of an envelope that was seen and accepted. -/
theorem file_sourced {senv : SignedEnvelope C} (hSeen : senv ∈ seen) (hAcc : ex.Accepts senv)
    (hRound : senv.env.round = round) (hIn : ex.Sourced seen round expect inbox)
    (h : ex.file senv inbox expect = .ok inbox') :
    ex.Sourced seen round expect inbox' := by
  rcases file_cases h with ⟨rfl, -⟩ | ⟨hWants, -, m', hContent, rfl⟩
  · exact hIn
  intro k p m hEntry
  rw [slot_insert] at hEntry
  -- only the entry of this kind and sender is new
  by_cases hKind : senv.env.sealed = k
  · rw [if_pos hKind, Std.ExtTreeMap.getElem?_insert] at hEntry
    split at hEntry
    · rename_i hSender
      obtain rfl := Option.some.inj hEntry
      exact ⟨hKind ▸ hWants, senv, hSeen, hAcc, hRound, hKind,
        Std.LawfulEqCmp.eq_of_compare hSender, hContent⟩
    · exact hIn k p m hEntry
  · rw [if_neg hKind] at hEntry
    exact hIn k p m hEntry

/-- **Step lemma.** Admission only moves the ahead-buffer, which stays within
what was seen, and keeps the inbox sourced. -/
theorem admitEnv_sourced {senv : SignedEnvelope C}
    (h : ex.admitEnv round senv inbox expect = .ok (ex', inbox')) (hSeen : senv ∈ seen)
    (hAhead : ∀ s ∈ ex.ahead, s ∈ seen) (hIn : ex.Sourced seen round expect inbox) :
    ∃ ahead, ex' = { ex with ahead } ∧ (∀ s ∈ ahead, s ∈ seen) ∧
      ex.Sourced seen round expect inbox' := by
  rcases admitEnv_cases h with ⟨rfl, rfl, -⟩ | ⟨-, -, -, rfl, rfl⟩ | ⟨hCon, hVer, hRound, rfl, hFile⟩
  · exact ⟨ex'.ahead, rfl, hAhead, hIn⟩
  · refine ⟨ex.ahead ++ [senv], rfl, ?_, hIn⟩
    intro s hs
    rcases List.mem_append.mp hs with hs | hs
    · exact hAhead s hs
    · exact List.mem_singleton.mp hs ▸ hSeen
  · exact ⟨ex'.ahead, rfl, hAhead, file_sourced hSeen ⟨hCon, hVer⟩ hRound hIn hFile⟩

/-- Reading the buffer files only what was seen before. -/
theorem drainAhead_sourced {pool : List (SignedEnvelope C)}
    (h : ex.drainAhead round expect inbox pool = .ok (ex', inbox'))
    (hPool : ∀ s ∈ pool, s ∈ seen) (hAhead : ∀ s ∈ ex.ahead, s ∈ seen)
    (hIn : ex.Sourced seen round expect inbox) :
    ∃ ahead, ex' = { ex with ahead } ∧ (∀ s ∈ ahead, s ∈ seen) ∧
      ex.Sourced seen round expect inbox' := by
  -- on the buffer; admission may put envelopes back into it
  induction pool generalizing ex inbox with
  | nil =>
    obtain ⟨rfl, rfl⟩ := Prod.mk.inj (Except.ok.inj h)
    exact ⟨ex.ahead, rfl, hAhead, hIn⟩
  | cons senv rest ih =>
    rw [Exchange.drainAhead] at h
    split at h
    · cases h
    rename_i ex₁ inbox₁ hAdmit
    obtain ⟨ahead₁, rfl, hAhead₁, hIn₁⟩ :=
      admitEnv_sourced hAdmit (hPool senv List.mem_cons_self) hAhead hIn
    have hTail := ih h (fun s hs => hPool s (List.mem_cons_of_mem _ hs)) hAhead₁ hIn₁
    exact hTail

/-- Reading from the relay files only what it presents, and ends with a complete
inbox. -/
theorem collect_sourced {inbound rest : List (Inbound C)}
    (h : ex.collect round expect inbox inbound = .ready inbox' ex' rest)
    (hInb : ∀ s, .envelope s ∈ inbound → s ∈ seen) (hAhead : ∀ s ∈ ex.ahead, s ∈ seen)
    (hIn : ex.Sourced seen round expect inbox) :
    ∃ ahead, ex' = { ex with ahead } ∧ (∀ s ∈ ahead, s ∈ seen) ∧
      (∀ s, .envelope s ∈ rest → s ∈ seen) ∧
      ex.Sourced seen round expect inbox' ∧ ex.complete inbox' expect = true := by
  -- on what the relay presents; the loop looks at the inbox before each of them
  induction inbound generalizing ex inbox with
  | nil =>
    rw [Exchange.collect] at h
    split at h
    · rename_i hComplete
      obtain ⟨rfl, rfl, rfl⟩ := Recv.ready.inj h
      exact ⟨ex.ahead, rfl, hAhead, hInb, hIn, hComplete⟩
    · cases h
  | cons i inbound ih =>
    rw [collect_cons] at h
    split at h
    · rename_i hComplete
      obtain ⟨rfl, rfl, rfl⟩ := Recv.ready.inj h
      exact ⟨ex.ahead, rfl, hAhead, hInb, hIn, hComplete⟩
    cases i with
    | elapsed => cases h
    | recvError e => cases h
    | envelope senv =>
      simp only at h
      split at h
      · cases h
      rename_i ex₁ inbox₁ hAdmit
      obtain ⟨ahead₁, rfl, hAhead₁, hIn₁⟩ :=
        admitEnv_sourced hAdmit (hInb senv List.mem_cons_self) hAhead hIn
      have hTail := ih h (fun s hs => hInb s (List.mem_cons_of_mem _ hs)) hAhead₁ hIn₁
      exact hTail

/-- One `recv_round`: buffer first, relay after. -/
theorem recvRound_sourced {inbound rest : List (Inbound C)}
    (h : ex.recvRound round expect inbound = .ready inbox' ex' rest)
    (hInb : ∀ s, .envelope s ∈ inbound → s ∈ seen) (hAhead : ∀ s ∈ ex.ahead, s ∈ seen) :
    ∃ ahead, ex' = { ex with ahead } ∧ (∀ s ∈ ahead, s ∈ seen) ∧
      (∀ s, .envelope s ∈ rest → s ∈ seen) ∧
      ex.Sourced seen round expect inbox' ∧ ex.complete inbox' expect = true := by
  unfold Exchange.recvRound at h
  split at h
  · cases h
  rename_i ex₁ inbox₁ hDrain
  have hNone : ∀ s ∈ ({ ex with ahead := [] } : Exchange C).ahead, s ∈ seen := by simp
  obtain ⟨ahead₁, rfl, hAhead₁, hIn₁⟩ := drainAhead_sourced hDrain hAhead hNone sourced_empty
  have hLoop := collect_sourced h hInb hAhead₁ hIn₁
  exact hLoop

/-- **Run lemma.** Every inbox that successive `recv_round` calls return is
complete and sourced for the round it was collected in. -/
theorem recvRounds_sourced {calls : List (UInt8 × Expect)} {inbound : List (Inbound C)}
    {i : Nat} (hOk : (ex.recvRounds calls inbound).1[i]? = some inbox)
    (hCall : calls[i]? = some (round, expect))
    (hInb : ∀ s, .envelope s ∈ inbound → s ∈ seen) (hAhead : ∀ s ∈ ex.ahead, s ∈ seen) :
    ex.Sourced seen round expect inbox ∧ ex.complete inbox expect = true := by
  -- on the calls; each goes on with the buffer and the stream the one before left
  induction calls generalizing ex inbound i with
  | nil => simp at hCall
  | cons call calls ih =>
    obtain ⟨round₁, expect₁⟩ := call
    rw [Exchange.recvRounds] at hOk
    split at hOk
    · simp at hOk
    · simp at hOk
    rename_i inbox₁ ex₁ rest hRecv
    obtain ⟨ahead₁, rfl, hAhead₁, hRest, hIn₁, hComplete₁⟩ :=
      recvRound_sourced hRecv hInb hAhead
    cases i with
    | zero =>
      obtain ⟨rfl, rfl⟩ := Prod.mk.inj (Option.some.inj hCall)
      obtain rfl := Option.some.inj hOk
      exact ⟨hIn₁, hComplete₁⟩
    | succ i =>
      have hTail := @ih { ex with ahead := ahead₁ } rest i hOk hCall hRest hAhead₁
      exact hTail

-- ---------------------------------------------------------------------------
-- Who signed what
-- ---------------------------------------------------------------------------

/-- One `send_round` call of an uncorrupted party: the `Exchange` it is made
on, its arguments, and what the generator and the relay do during it. -/
structure SendCall (C : Crypto) where
  ctx : PartyContext C
  op : UInt8
  participants : List UInt8
  round : UInt8
  outbox : RoundOutbox
  rnd : UInt8 → SealRandomness C
  relay : SignedEnvelope C → Except MpcError Unit

/-- The `Exchange` the call is made on. -/
def SendCall.exchange (c : SendCall C) : Exchange C :=
  Exchange.new c.ctx c.op c.participants

/-- The envelopes the call signs. -/
def SendCall.emitted (c : SendCall C) : List (SignedEnvelope C) :=
  (c.exchange.sendRound c.relay c.rnd c.round c.outbox).1

/-- The call is party `p`'s, in round `round` of ceremony `(inst, op)`, with
`q` among its peers. -/
def SendCall.IsOf (c : SendCall C) (p : UInt8) (inst : B256) (op round q : UInt8) : Prop :=
  c.ctx.partyId = p ∧ c.ctx.inst = inst ∧ c.op = op ∧ c.round = round ∧ q ∈ c.exchange.peers

/-- A cosigner's self-check at start-up: its own roster slot holds its key. -/
def PartyContext.Pinned (ctx : PartyContext C) : Prop :=
  ctx.partyVks[ctx.partyId.toNat]? = some (C.verifyingKey ctx.signingKey)

/-- Ideal ed25519: among the envelopes `seen`, a signature that verifies under
an uncorrupted party's key is on bytes a call in `log` signed with that key. -/
def Unforgeable (log : List (SendCall C)) (honest : Set UInt8) (roster : List C.VerifyingKey)
    (seen : Set (SignedEnvelope C)) : Prop :=
  ∀ senv ∈ seen, ∀ p ∈ honest, ∀ vk, roster[p.toNat]? = some vk →
    C.verifyStrict vk (senv.env.signingPreimage C) senv.sig = true →
    ∃ c ∈ log, C.verifyingKey c.ctx.signingKey = vk ∧
      ∃ s ∈ c.emitted, s.env.signingPreimage C = senv.env.signingPreimage C

/-- No two payloads among those seen or emitted collide under SHA-512. -/
def CollisionFree (log : List (SendCall C)) (seen : Set (SignedEnvelope C)) : Prop :=
  Set.InjOn C.sha512
    {payload | ∃ senv, (senv ∈ seen ∨ ∃ c ∈ log, senv ∈ c.emitted) ∧ senv.env.payload = payload}

variable {log : List (SendCall C)} {honest : Set UInt8}

/-- An accepted envelope that claims an uncorrupted sender was signed, as it
stands, by a call in the log. -/
theorem sent_of_accepts {senv : SignedEnvelope C}
    (hSig : Unforgeable log honest ex.ctx.partyVks seen) (hSha : CollisionFree log seen)
    (hSeen : senv ∈ seen) (hAcc : ex.Accepts senv) (hHonest : senv.env.sender ∈ honest) :
    ∃ c ∈ log, ∃ s ∈ c.emitted, s.env = senv.env := by
  obtain ⟨vk, hVk, hVerify⟩ := verify_ok hAcc.2
  obtain ⟨c, hc, -, s, hs, hPreimage⟩ := hSig senv hSeen _ hHonest vk hVk hVerify
  refine ⟨c, hc, s, hs, signingPreimage_injective (fun hHash => ?_) hPreimage⟩
  exact hSha ⟨s, Or.inr ⟨c, hc, hs⟩, rfl⟩ ⟨senv, Or.inl hSeen, rfl⟩ hHash

/-- What a call emits for `q` is its broadcast, or a seal `q` opens to its p2p
entry for `q`. -/
theorem emitted_content (hBox : C.SealedBox) {c : SendCall C} {s : SignedEnvelope C}
    (hs : s ∈ c.emitted) (hCon : ex.concerns s.env = true) (hPinned : ex.ctx.Pinned)
    (hRoster : c.ctx.partyVks = ex.ctx.partyVks) {m : Bytes}
    (hContent : ex.content s.env = .ok m) :
    c.IsOf s.env.sender ex.ctx.inst ex.op s.env.round ex.ctx.partyId ∧
      if s.env.sealed then c.outbox.p2p[ex.ctx.partyId]? = some m
      else c.outbox.broadcast = some m := by
  obtain ⟨hInst, hOp, hTo, -⟩ := concerns_iff.mp hCon
  -- a broadcast in the clear, or a seal for `q`
  obtain ⟨-, hPeer, ⟨payload, hOut, hEnv⟩ | ⟨plaintext, vk, hOut, hVk, hSeal⟩⟩ := mem_sendRound hs
  · have hSender : s.env.sender = c.ctx.partyId := by rw [hEnv]; rfl
    have hRound : s.env.round = c.round := by rw [hEnv]; rfl
    have hInst' : s.env.inst = c.ctx.inst := by rw [hEnv]; rfl
    have hOp' : s.env.op = c.op := by rw [hEnv]; rfl
    have hPlain : s.env.sealed = false := by rw [hEnv]; rfl
    have hPayload : s.env.payload = payload := by rw [hEnv]; rfl
    refine ⟨⟨hSender.symm, hInst'.symm.trans hInst, hOp'.symm.trans hOp, hRound.symm,
      hTo ▸ hPeer⟩, ?_⟩
    simp only [Exchange.content, hPlain, Bool.false_eq_true, if_false] at hContent ⊢
    rw [hOut, ← hPayload, Except.ok.inj hContent]
  · have hFields := mkSealed_fields hSeal
    have hSender : s.env.sender = c.ctx.partyId := by rw [hFields]; rfl
    have hRound : s.env.round = c.round := by rw [hFields]
    have hInst' : s.env.inst = c.ctx.inst := by rw [hFields]; rfl
    have hOp' : s.env.op = c.op := by rw [hFields]; rfl
    have hSealed : s.env.sealed = true := by rw [hFields]
    refine ⟨⟨hSender.symm, hInst'.symm.trans hInst, hOp'.symm.trans hOp, hRound.symm,
      hTo ▸ hPeer⟩, ?_⟩
    simp only [Exchange.content, hSealed, if_true] at hContent ⊢
    -- the sender sealed to the roster's key for `q`, which is the key `q` opens with
    have hKey : vk = C.verifyingKey ex.ctx.signingKey := by
      have hVk' : c.ctx.partyVks[s.env.recipient.toNat]? = some vk := hVk
      rw [hRoster, hTo, hPinned] at hVk'
      exact (Option.some.inj hVk').symm
    rw [hKey] at hSeal
    rw [unseal_mkSealed hBox hSeal] at hContent
    rw [← hTo, hOut, Except.ok.inj hContent]

/-- The entries of a complete, sourced inbox are keyed by the peers where the
kind is expected, and absent where it is not. -/
theorem mem_slot_iff (hIn : ex.Sourced seen round expect inbox)
    (hComplete : ex.complete inbox expect = true) (k : Bool) (p : UInt8) :
    p ∈ inbox.slot k ↔ expect.wants k = true ∧ p ∈ ex.peers := by
  constructor
  · intro hMem
    have hGet := Std.ExtTreeMap.getElem?_eq_some_getElem hMem
    obtain ⟨hWants, senv, -, hAcc, -, -, rfl, -⟩ := hIn k p _ hGet
    exact ⟨hWants, (concerns_iff.mp hAcc.1).2.2.2⟩
  · intro ⟨hWants, hPeer⟩
    exact complete_iff.mp hComplete k hWants p hPeer

/-- **Authenticity of round messages.** Whatever envelopes the relay presents,
in whatever order: an inbox that `recv_round(round, expect)` returns at party
`q` holds, for every uncorrupted party `p`, only what `p` passed to `send_round`
for this instance, operation and round with `q` among its peers; and its maps
are keyed by exactly the peer set, or empty where the kind is not expected. -/
theorem recvRounds_authentic (hBox : C.SealedBox) (log : List (SendCall C)) (honest : Set UInt8)
    (ctx : PartyContext C) (op : UInt8) (participants : List UInt8)
    (inbound : List (Inbound C)) (calls : List (UInt8 × Expect))
    (hPinned : ctx.Pinned) (hRoster : ∀ c ∈ log, c.ctx.partyVks = ctx.partyVks)
    (hSig : Unforgeable log honest ctx.partyVks {senv | .envelope senv ∈ inbound})
    (hSha : CollisionFree log {senv | .envelope senv ∈ inbound})
    (i : Nat) (round : UInt8) (expect : Expect) (inbox : RoundInbox)
    (hCall : calls[i]? = some (round, expect))
    (hOk : ((Exchange.new ctx op participants).recvRounds calls inbound).1[i]? = some inbox) :
    (∀ p ∈ honest, ∀ m, inbox.broadcasts[p]? = some m →
      ∃ c ∈ log, c.IsOf p ctx.inst op round ctx.partyId ∧ c.outbox.broadcast = some m) ∧
    (∀ p ∈ honest, ∀ m, inbox.p2p[p]? = some m →
      ∃ c ∈ log, c.IsOf p ctx.inst op round ctx.partyId ∧
        c.outbox.p2p[ctx.partyId]? = some m) ∧
    (∀ p, p ∈ inbox.broadcasts ↔
      expect.broadcasts = true ∧ p ∈ (Exchange.new ctx op participants).peers) ∧
    (∀ p, p ∈ inbox.p2p ↔
      expect.p2p = true ∧ p ∈ (Exchange.new ctx op participants).peers) := by
  obtain ⟨hIn, hComplete⟩ := recvRounds_sourced hOk hCall
    (fun s (hs : s ∈ {senv | Inbound.envelope senv ∈ inbound}) => hs) (by simp [Exchange.new])
  have hKeys := mem_slot_iff hIn hComplete
  -- one statement for both kinds; the kind decides which outbox entry it is
  have hOrigin : ∀ k, ∀ p ∈ honest, ∀ m, (inbox.slot k)[p]? = some m →
      ∃ c ∈ log, c.IsOf p ctx.inst op round ctx.partyId ∧
        if k then c.outbox.p2p[ctx.partyId]? = some m else c.outbox.broadcast = some m := by
    intro k p hHonest m hEntry
    obtain ⟨-, senv, hSeen, hAcc, rfl, rfl, rfl, hContent⟩ := hIn k p m hEntry
    obtain ⟨c, hc, s, hs, hEnv⟩ := sent_of_accepts hSig hSha hSeen hAcc hHonest
    rw [← hEnv] at hContent
    obtain ⟨hIs, hOut⟩ :=
      emitted_content hBox hs (hEnv ▸ hAcc.1) hPinned (hRoster c hc) hContent
    rw [hEnv] at hIs hOut
    exact ⟨c, hc, hIs, hOut⟩
  exact ⟨hOrigin false, hOrigin true, hKeys false, hKeys true⟩

end

-- ---------------------------------------------------------------------------
-- A concrete ceremony
-- ---------------------------------------------------------------------------

namespace Symbolic

/-- The shared secret, ephemeral key and recipient key hashed for party 1's box. -/
def boxInput : Bytes :=
  sealDomain ++ List.replicate 32 8 ++ List.replicate 32 3 ++ List.replicate 32 11

/-- The hash of party 1's box input. -/
def boxDigest : FixedBytes 64 := FixedBytes.ofNat 64
  0xa0c939dc5c3e951bceb83e9541ac74a8cf92601c7c7c686e0f1c65ccfb6386b94d18487ca495c95db878bd747d405bb6123983d5156b3bf46b26fdf804545f72

/-- The sealed payload party 0 sends to party 1. -/
def sealedPayload : Bytes :=
  List.replicate 32 3 ++ List.replicate 24 9 ++ (boxDigest.bytes.take 32 ++ List.replicate 24 9 ++
    (domain ++ List.replicate 32 0x2a ++ [1, 1, 0, 1, 1]) ++ [8])

/-- SHA-512 on the strings the example ceremonies hash. -/
def sha512 (m : Bytes) : FixedBytes 64 :=
  if m = [7] then FixedBytes.ofNat 64
    0x365d11a1dfe610b60efa996136d37ab8afd2715b8c6bc2850dc5e6005b702bb9f59b0f306ecb2c43ee44c429967d45843524eb2f7c16aab9bde142ee268b51c6
  else if m = [8] then FixedBytes.ofNat 64
    0xf65a6bf8f40b01b87757cde53483d057e1442f3bd67d495d2047b7f7c329e0572e88c18808426706af3b8df2915ca3d527ad49597f211cf89e475a07c901312b
  else if m = boxInput then boxDigest
  else if m = sealedPayload then FixedBytes.ofNat 64
    0xc81d8f35244f92859f2584ab226dddbf670aff07c2356060a00a95dc20984dda7cece32b219fed27fbbfe72286de409deaaa4972dcd2412b89a0c6450a8680df
  else .repeatByte 64 0

/-- Ideal primitives: a signature is its key and message, a ciphertext its key,
nonce, associated data and message. -/
def crypto : Crypto where
  SigningKey := UInt8
  VerifyingKey := UInt8
  Signature := UInt8 × Bytes
  X25519Secret := UInt8
  verifyingKey := id
  signBytes sk m := (sk, m)
  verifyStrict vk m sig := sig == (vk, m)
  sha512 := sha512
  toMontgomery vk := .repeatByte 32 vk
  toScalarBytes := id
  publicOf secret := .repeatByte 32 secret
  diffieHellman secret pk := .repeatByte 32 (secret ^^^ pk.bytes.headD 0)
  wasContributory _ := true
  encrypt k n aad msg := some (k.bytes ++ n.bytes ++ aad ++ msg)
  decrypt k n aad ct :=
    let header := k.bytes ++ n.bytes ++ aad
    if ct.take header.length = header then some (ct.drop header.length) else none

instance : DecidableEq crypto.VerifyingKey := inferInstanceAs (DecidableEq UInt8)

/-- The ideal box opens what was sealed to its key. -/
theorem sealedBox : crypto.SealedBox where
  dh_comm (a b : UInt8) := by
    show FixedBytes.repeatByte 32 (a ^^^ b) = FixedBytes.repeatByte 32 (b ^^^ a)
    rw [UInt8.xor_comm]
  toMontgomery_eq _ := rfl
  decrypt_encrypt := by
    intro k n aad msg ct h
    obtain rfl := Option.some.inj h
    show (if _ then _ else _) = _
    rw [if_pos List.take_left, List.drop_left]

/-- Two parties' verifying keys. -/
def roster : List UInt8 := [10, 11]

/-- A party's context in the example ceremony. -/
def ctx (partyId key : UInt8) : PartyContext crypto where
  partyId
  inst := .repeatByte 32 0x2a
  signingKey := key
  partyVks := roster
  threshold := 2

/-- Party 0's round 1: a broadcast and a message for party 1. -/
def call : SendCall crypto where
  ctx := ctx 0 10
  op := Op.sign
  participants := [0, 1]
  round := 1
  outbox := ⟨some [7], (∅ : PartyMap).insert 1 [8]⟩
  rnd _ := ⟨(3 : UInt8), .repeatByte 24 9⟩
  relay _ := .ok ()

/-- A broadcast forged for another ceremony, then party 0's two envelopes. -/
def inbound : List (Inbound crypto) :=
  .envelope ⟨Envelope.mkBroadcast (.repeatByte 32 0) Op.sign 1 0 1 [7], (10, [])⟩ ::
    call.emitted.map .envelope

/-- Nobody else signs for party 0 in the example. -/
theorem unforgeable :
    Unforgeable [call] {0} roster {senv | Inbound.envelope senv ∈ inbound} := by
  intro senv hSeen p hp vk hVk hVerify
  obtain rfl : p = 0 := hp
  obtain rfl : (10 : UInt8) = vk := Option.some.inj hVk
  rcases List.mem_cons.mp hSeen with hForged | hSent
  · obtain rfl := Inbound.envelope.inj hForged
    exact absurd hVerify (by decide)
  · obtain ⟨s, hs, hEq⟩ := List.mem_map.mp hSent
    obtain rfl := Inbound.envelope.inj hEq
    exact ⟨call, List.mem_singleton_self _, rfl, s, hs, rfl⟩

/-- The two payloads have different hashes. -/
theorem collisionFree : CollisionFree [call] {senv | Inbound.envelope senv ∈ inbound} := by
  have hEmitted : (call.emitted.map fun s => s.env.payload) = [[7], sealedPayload] := by
    decide +kernel
  have hPayloads : ∀ payload, (∃ senv, (Inbound.envelope senv ∈ inbound ∨
      ∃ c ∈ [call], senv ∈ c.emitted) ∧ senv.env.payload = payload) →
      payload ∈ [[7], sealedPayload] := by
    rintro payload ⟨senv, hSeen | ⟨c, hc, hs⟩, rfl⟩
    · rcases List.mem_cons.mp hSeen with hForged | hSent
      · obtain rfl := Inbound.envelope.inj hForged
        exact List.mem_cons_self
      · obtain ⟨s, hs, hEq⟩ := List.mem_map.mp hSent
        obtain rfl := Inbound.envelope.inj hEq
        exact hEmitted ▸ List.mem_map_of_mem hs
    · obtain rfl := List.mem_singleton.mp hc
      exact hEmitted ▸ List.mem_map_of_mem hs
  intro a ha b hb hHash
  have hInj : ∀ a ∈ [[7], sealedPayload], ∀ b ∈ [[7], sealedPayload],
      sha512 a = sha512 b → a = b := by
    decide +kernel
  exact hInj a (hPayloads a ha) b (hPayloads b hb) hHash

end Symbolic

open Symbolic in
/-- Party 1 collects both of party 0's messages past a forgery. -/
theorem recvRounds_authentic_forged :
    ∃ inbox, ((Exchange.new (Symbolic.ctx 1 (11 : UInt8)) Op.sign [0, 1]).recvRounds [(1, .Both)]
        inbound).1[0]? = some inbox ∧ inbox.p2p[(0 : UInt8)]? = some [8] ∧
      ∃ c ∈ [call], c.IsOf 0 (.repeatByte 32 0x2a) Op.sign 1 1 ∧
        c.outbox.p2p[(1 : UInt8)]? = some [8] := by
  refine ⟨⟨(∅ : PartyMap).insert 0 [7], (∅ : PartyMap).insert 0 [8]⟩, by decide +kernel,
    by decide, ?_⟩
  have hOk := recvRounds_authentic sealedBox [call] {0} (Symbolic.ctx 1 (11 : UInt8)) Op.sign [0, 1]
    inbound [(1, .Both)] rfl (fun c hc => List.mem_singleton.mp hc ▸ rfl) unforgeable collisionFree
    0 1 .Both ⟨(∅ : PartyMap).insert 0 [7], (∅ : PartyMap).insert 0 [8]⟩ rfl (by decide +kernel)
  exact hOk.2.1 0 rfl [8] (by decide)

end Sovra.Mpc
