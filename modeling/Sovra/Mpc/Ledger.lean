import Sovra.Mpc.Simulation

/-!
# Sovra — who still writes to whom

More about the runs of `Mpc.Simulation`: every envelope on the network was put
there by the party it names, no party puts two of one round and kind to one
recipient there, and a party has the full supply of every stage behind it. So a
party that has ended has been written to by everybody for the last time. Stages
that offer only what they expect are assumed.

* `Ledger.turn`         — a turn keeps the accounts.
* `Ledger.deliver`      — so does a delivery.
* `Ledger.mailbox_open` — nobody has an envelope left for a party that ended.
-/

namespace Sovra.Mpc

open Lib

/-- A round offers nothing of a kind it does not expect. -/
def Stage.Wanted (st : Stage) : Prop :=
  ∀ k p q, (st.content k p q).isSome = true → st.expect.wants k = true

/-- Where an envelope of a round goes, and of which kind it is. -/
def slotOf {C : Crypto} (senv : SignedEnvelope C) : UInt8 × Bool :=
  (senv.env.recipient, senv.env.sealed)

/-- The round a party is in; none when it has ended. -/
def Node.round? {C : Crypto} {κ α : Type} : Node C κ α → Option UInt8
  | .sending _ round _ _ _ | .receiving _ round _ _ _ => some round
  | .finished _ => none

section

variable {C : Crypto} {ex : Exchange C} {round : UInt8} {outbox : RoundOutbox}
  {rnd : UInt8 → SealRandomness C}

/-- The sealed half of `outgoing`: one entry of the p2p map. -/
def Exchange.sealedEntry (ex : Exchange C) (round : UInt8) (rnd : UInt8 → SealRandomness C)
    (entry : UInt8 × Bytes) : Except Halt (SignedEnvelope C) :=
  if entry.1 ∉ ex.peers then
    .error (.error (.envelopeAuth ("p2p recipient " ++ toString entry.1.toNat ++
      " is not a ceremony peer")))
  else
    match ex.ctx.partyVks[entry.1.toNat]? with
    | none => .error .panic
    | some vk =>
      match Envelope.mkSealed (rnd entry.1) ex.ctx.inst ex.op round ex.ctx.partyId entry.1 vk
          entry.2 with
      | .error e => .error (.error e)
      | .ok env => .ok (env.sign ex.ctx.signingKey)

/-- A p2p entry goes to its own key, sealed. -/
theorem sealedEntry_ok {entry : UInt8 × Bytes} {s : SignedEnvelope C}
    (h : ex.sealedEntry round rnd entry = .ok s) : slotOf s = (entry.1, true) := by
  unfold Exchange.sealedEntry at h
  split at h
  · simp at h
  split at h
  · simp at h
  split at h
  · simp at h
  rename_i env hSeal
  obtain rfl := Except.ok.inj h
  show (env.recipient, env.sealed) = _
  rw [mkSealed_fields hSeal]

/-- A round fills every slot at most once: the broadcast goes to each peer once,
and a map has one entry for each key. -/
theorem outgoing_slots (hPeers : ex.peers.Nodup) :
    (ex.outgoing round outbox rnd).Pairwise fun x y =>
      ∀ s s', x = .ok s → y = .ok s' → slotOf s ≠ slotOf s' := by
  unfold Exchange.outgoing
  rw [List.pairwise_append]
  refine ⟨?_, ?_, ?_⟩
  · -- one broadcast for each peer
    rcases outbox.broadcast with _ | payload
    · exact List.Pairwise.nil
    · refine List.pairwise_map.mpr (hPeers.imp ?_)
      rintro a b hNe s s' hs hs' hSlot
      obtain rfl := Except.ok.inj hs
      obtain rfl := Except.ok.inj hs'
      exact hNe (congrArg Prod.fst hSlot)
  · -- one sealed payload for each addressee
    refine List.pairwise_map.mpr (Std.ExtTreeMap.distinct_keys_toList.imp ?_)
    rintro a b hNe s s' hs hs' hSlot
    rw [sealedEntry_ok hs, sealedEntry_ok hs'] at hSlot
    exact hNe (Std.compare_eq_iff_eq.mpr (Prod.mk.inj hSlot).1)
  · -- a broadcast and a payload differ in the flag
    rintro x hx y hy s s' rfl rfl hSlot
    obtain ⟨entry, -, hEntry⟩ := List.mem_map.mp hy
    have hPlain : s.env.sealed = false := by
      rcases hOut : outbox.broadcast with _ | payload
      · simp [hOut] at hx
      · rw [hOut] at hx
        obtain ⟨q, -, hEq⟩ := List.mem_map.mp hx
        obtain rfl := Except.ok.inj hEq
        rfl
    have hKind : s.env.sealed = true := by
      have hSecond : (slotOf s).2 = true := by rw [hSlot, sealedEntry_ok hEntry]
      exact hSecond
    rw [hPlain] at hKind
    cases hKind

end

namespace Ceremony

section

variable {C : Crypto} {κ α : Type} {K : Ceremony C κ α} {stages : List Stage}
  {calls : UInt8 → List κ} {result : UInt8 → Except Halt α} (D : K.Direct stages calls result)
  {st : Stage} {p q : UInt8}
include D

/-- What one party sends in a stage goes to different slots. -/
theorem envelopes_slots (hNodup : K.participants.Nodup) (hSt : st ∈ stages)
    (hp : p ∈ K.participants) :
    (K.envelopes st p).Pairwise fun s s' => slotOf s ≠ slotOf s' := by
  have hPeers : (K.exchange p).peers.Nodup := hNodup.filter _
  have hOut : ((K.exchange p).outgoing st.round (st.outbox p) (K.rnd p st.round)).Pairwise
      fun x y => ∀ s s', x = .ok s → y = .ok s' → slotOf s ≠ slotOf s' := outgoing_slots hPeers
  rw [outgoing_eq D hSt hp, List.pairwise_map] at hOut
  exact hOut.imp fun h => h _ _ rfl rfl

omit D in
/-- A stage stands at one place of the list. -/
theorem split_unique (hRounds : (stages.map Stage.round).Pairwise (· < ·))
    {past past' rest rest' : List Stage} {st st' : Stage} (h : stages = past ++ st :: rest)
    (h' : stages = past' ++ st' :: rest') (hRound : st.round = st'.round) : past = past' := by
  have hNodup : (stages.map Stage.round).Nodup := hRounds.imp UInt8.ne_of_lt
  have hLength : past.length = past'.length := by
    have hAt : (stages.map Stage.round)[past.length]? = some st.round := by
      rw [h, List.map_append, List.getElem?_append_right (by rw [List.length_map])]
      simp
    have hAt' : (stages.map Stage.round)[past'.length]? = some st.round := by
      rw [h', List.map_append, List.getElem?_append_right (by rw [List.length_map]), hRound]
      simp
    obtain ⟨hLt, -⟩ := List.getElem?_eq_some_iff.mp hAt
    exact (List.getElem?_inj hLt hNodup).mp (hAt.trans hAt'.symm)
  have hTake : past = stages.take past.length := by rw [h, List.take_left]
  have hTake' : past' = stages.take past'.length := by rw [h', List.take_left]
  rw [hTake, hTake', hLength]

-- ---------------------------------------------------------------------------
-- Where a party stands, once more
-- ---------------------------------------------------------------------------

variable {past past' : List Stage} {party party' : Party C κ α}
  {handed sent sent' out : List (SignedEnvelope C)}

omit D in
/-- The stages behind a party are those before its round. -/
theorem standing_located (h : Standing K stages (calls p) (result p) p handed past party sent) :
    match party.node.round? with
    | some round => ∃ st rest, stages = past ++ st :: rest ∧ st.round = round
    | none => past = stages := by
  cases h with
  | sending hStages => exact ⟨_, _, hStages, rfl⟩
  | receiving hStages => exact ⟨_, _, hStages, rfl⟩
  | finished => rfl

/-- What a turn gives the relay is the party's own, of the stage it stands in, and
not among what it has sent of that stage already. -/
theorem turn_out (hNodup : K.participants.Nodup) (hp : p ∈ K.participants)
    (h : Standing K stages (calls p) (result p) p handed past party sent)
    (hTurn : party.turn (K.rnd p) = some (party', out)) {senv : SignedEnvelope C}
    (hOut : senv ∈ out) :
    out = [senv] ∧ ∃ st ∈ stages, senv ∈ K.envelopes st p ∧
      ∀ s ∈ sent, s.env.round = st.round → slotOf s ≠ slotOf senv := by
  cases h with
  | @sending past st rest sent todo lo made left next hStages hSplit hCalls hLo hNext =>
    -- only an envelope left of `send_round` is put on the network
    rcases todo with _ | ⟨head, todo⟩
    · simp only [Party.turn, List.map_nil] at hTurn
      split at hTurn
      all_goals
        simp only [Option.some.injEq, Prod.mk.injEq] at hTurn
        obtain ⟨-, rfl⟩ := hTurn
        simp at hOut
    · simp only [Party.turn, List.map_cons, Option.some.injEq, Prod.mk.injEq] at hTurn
      obtain ⟨-, rfl⟩ := hTurn
      obtain rfl := List.mem_singleton.mp hOut
      have hSt : st ∈ stages := by
        rw [hStages]
        exact List.mem_append_right _ List.mem_cons_self
      have hMem : senv ∈ K.envelopes st p := by
        rw [hSplit]
        exact List.mem_append_right _ List.mem_cons_self
      refine ⟨rfl, st, hSt, hMem, ?_⟩
      intro s hSent hRound
      rcases List.mem_append.mp hSent with hPast | hNow
      · -- an envelope of an earlier stage is of an earlier round
        exfalso
        obtain ⟨st', hSt', hEnv⟩ := List.mem_flatMap.mp hPast
        have hOrder := D.rounds
        rw [hStages, List.map_append, List.map_cons, List.pairwise_append] at hOrder
        have hLt : st'.round < st.round := hOrder.2.2 _ (List.mem_map_of_mem hSt') _
          List.mem_cons_self
        rw [← (honest_of_mem D hp hEnv).round, hRound] at hLt
        exact UInt8.lt_irrefl _ hLt
      · have hSlots := envelopes_slots D hNodup hSt hp
        rw [hSplit, List.pairwise_append] at hSlots
        exact hSlots.2.2 s hNow senv List.mem_cons_self
  | @receiving past st rest ahead inbox made left next hStages hCaught hCalls hNext =>
    simp only [Party.turn] at hTurn
    split at hTurn
    case isFalse => simp at hTurn
    simp only [Option.some.injEq, Prod.mk.injEq] at hTurn
    obtain ⟨-, rfl⟩ := hTurn
    simp at hOut
  | finished => simp [Party.turn] at hTurn

/-- A turn puts at most one more stage behind the party, and only one whose supply
it has. -/
theorem turn_past (hHanded : K.HandedOnly stages p handed)
    (h : Standing K stages (calls p) (result p) p handed past party sent)
    (hTurn : party.turn (K.rnd p) = some (party', out))
    (h' : Standing K stages (calls p) (result p) p handed past' party' sent') :
    ∀ st ∈ past', st ∈ past ∨ (K.exchange p).Supplied handed st.round st.expect := by
  have hAt := standing_located h'
  cases h with
  | @sending past st rest sent todo lo made left next hStages hSplit hCalls hLo hNext =>
    -- the party stays in its round
    have hRound : party'.node.round? = some st.round := by
      have hWf : (K.exchange p).WellFormed ([] ++ (K.exchange p).buffered lo handed) :=
        fun s hs => handed_wellFormed D hHanded s (List.mem_filter.mp hs).1
      obtain ⟨ahead, inbox, hDrain, -⟩ :=
        drainAhead_caught hWf (caught_nil (K.exchange p) st.round st.expect)
      have hDrain' : ({ K.exchange p with ahead := [] } : Exchange C).drainAhead st.round st.expect
          .empty ((K.exchange p).buffered lo handed) =
            .ok ({ K.exchange p with ahead }, inbox) := hDrain
      rcases todo with _ | ⟨senv, todo⟩
      · simp only [Party.turn, List.map_nil, hDrain', Option.some.injEq, Prod.mk.injEq] at hTurn
        obtain ⟨rfl, -⟩ := hTurn
        rfl
      · simp only [Party.turn, List.map_cons, Option.some.injEq, Prod.mk.injEq] at hTurn
        obtain ⟨rfl, -⟩ := hTurn
        rfl
    rw [hRound] at hAt
    obtain ⟨st', rest', hStages', hSame⟩ := hAt
    intro s hs
    rw [split_unique D.rounds hStages hStages' hSame.symm]
    exact Or.inl hs
  | @receiving past st rest ahead inbox made left next hStages hCaught hCalls hNext =>
    simp only [Party.turn] at hTurn
    split at hTurn
    case isFalse => simp at hTurn
    rename_i hComplete
    simp only [Option.some.injEq, Prod.mk.injEq] at hTurn
    obtain ⟨rfl, -⟩ := hTurn
    have hSt : st ∈ stages := by
      rw [hStages]
      exact List.mem_append_right _ List.mem_cons_self
    have hSupplied := (complete_iff_supplied (handed_wellFormed D hHanded) hCaught.2).mp hComplete
    have hRoutes := routes_of_firsts D hSt hHanded hCaught.2 hSupplied
    -- the round is over: exactly one stage more is behind
    have hPast : past' = past ++ [st] := by
      rcases start_cases (hNext inbox hRoutes) { K.exchange p with ahead } (K.rnd p) with
        ⟨hRest, hStart⟩ | ⟨st', post, made', left', next', hRest, -, hStart, -⟩
      · simp only [Party.goOn, hStart, Node.round?] at hAt
        rw [hAt, hStages, hRest]
      · simp only [Party.goOn, hStart, Node.round?] at hAt
        obtain ⟨st'', rest'', hStages'', hSame⟩ := hAt
        have hNow : stages = (past ++ [st]) ++ st' :: post := by
          rw [hStages, hRest, List.append_assoc]
          rfl
        exact (split_unique D.rounds hNow hStages'' hSame.symm).symm
    intro s hs
    rw [hPast] at hs
    rcases List.mem_append.mp hs with hOld | hNew
    · exact Or.inl hOld
    · rw [List.mem_singleton.mp hNew]
      exact Or.inr hSupplied
  | finished => simp [Party.turn] at hTurn

-- ---------------------------------------------------------------------------
-- The ledger
-- ---------------------------------------------------------------------------

/-- The envelopes on the network that name `p` as their sender are `sent`. -/
def Accounts (w : Net C κ α) (p : UInt8) (sent : List (SignedEnvelope C)) : Prop :=
  ∀ senv, (senv ∈ w.flight ∨ ∃ q, senv ∈ w.handed q) → senv.env.sender = p → senv ∈ sent

/-- `Inv`, with the supply of the stages behind each party and the account of what
it has sent. -/
structure Ledger (K : Ceremony C κ α) (stages : List Stage) (calls : UInt8 → List κ)
    (result : UInt8 → Except Halt α) (w : Net C κ α) : Prop where
  inv : K.Inv stages calls result w
  standing : ∀ p ∈ K.participants, ∃ past sent,
    Standing K stages (calls p) (result p) p (w.handed p) past (w.party p) sent ∧
      (∀ st ∈ past, (K.exchange p).Supplied (w.handed p) st.round st.expect) ∧
      Accounts w p sent

/-- Before anything is sent the accounts are empty. -/
theorem Ledger.init : Ledger K stages calls result K.init := by
  refine ⟨Inv.init D, fun p hp => ?_⟩
  obtain ⟨past, sent, hStanding, -⟩ := (Inv.init D).standing p hp
  refine ⟨past, sent, hStanding, ?_, ?_⟩
  · -- a party starts into its first round or has nothing to receive
    have hAt := standing_located hStanding
    have hNil : past = [] := by
      rcases start_cases (D.follows p hp) (K.exchange p) (K.rnd p) with
        ⟨hNone, hStart⟩ | ⟨st, post, made, left, next, hStages, -, hStart, -⟩
      · simp only [Ceremony.init, hStart, Node.round?] at hAt
        rw [hAt, hNone]
      · simp only [Ceremony.init, hStart, Node.round?] at hAt
        obtain ⟨st', rest, hSplit, hSame⟩ := hAt
        have hNow : stages = [] ++ st :: post := hStages
        exact (split_unique D.rounds hNow hSplit hSame.symm).symm
    rw [hNil]
    simp
  · rintro senv (hFlight | ⟨q, hHanded⟩)
    · simp [Ceremony.init] at hFlight
    · simp [Ceremony.init] at hHanded

omit D in
/-- A supply only grows. -/
theorem supplied_append {ex : Exchange C} {round : UInt8} {expect : Expect}
    (more : List (SignedEnvelope C)) (h : ex.Supplied handed round expect) :
    ex.Supplied (handed ++ more) round expect := by
  intro k hWants q hPeer hMail
  rw [mail_append] at hMail
  exact h k hWants q hPeer (List.append_eq_nil_iff.mp hMail).1

/-- A turn keeps the accounts: what it puts on the network is on the sender's. -/
theorem Ledger.turn (hNodup : K.participants.Nodup) {w : Net C κ α}
    (h : Ledger K stages calls result w) (hp : p ∈ K.participants)
    (hTurn : (w.party p).turn (K.rnd p) = some (party', out)) :
    Ledger K stages calls result
      { w with party := Function.update w.party p party', flight := w.flight ++ out } := by
  obtain ⟨past, sent, hStanding, hSupplied, hAccounts⟩ := h.standing p hp
  refine ⟨h.inv.turn D hp hTurn, fun q hq => ?_⟩
  by_cases hSame : q = p
  · subst hSame
    obtain ⟨past', hStanding'⟩ := standing_turn D hp (h.inv.handed q) hStanding hTurn
    refine ⟨past', sent ++ out, ?_, ?_, ?_⟩
    · show Standing K stages (calls q) (result q) q (w.handed q) past'
        (Function.update w.party q party' q) _
      rwa [Function.update_self]
    · intro st hSt
      rcases turn_past D (h.inv.handed q) hStanding hTurn hStanding' st hSt with hOld | hNew
      · exact hSupplied st hOld
      · exact hNew
    · rintro senv (hFlight | hHanded) hSender
      · rcases List.mem_append.mp hFlight with hOld | hNew
        · exact List.mem_append_left _ (hAccounts senv (Or.inl hOld) hSender)
        · exact List.mem_append_right _ hNew
      · exact List.mem_append_left _ (hAccounts senv (Or.inr hHanded) hSender)
  · obtain ⟨pastQ, sentQ, hStandingQ, hSuppliedQ, hAccountsQ⟩ := h.standing q hq
    refine ⟨pastQ, sentQ, ?_, hSuppliedQ, ?_⟩
    · show Standing K stages (calls q) (result q) q (w.handed q) pastQ
        (Function.update w.party p party' q) sentQ
      rwa [Function.update_of_ne hSame]
    · rintro senv (hFlight | hHanded) hSender
      · rcases List.mem_append.mp hFlight with hOld | hNew
        · exact hAccountsQ senv (Or.inl hOld) hSender
        · -- the new one is `p`'s own
          obtain ⟨-, st, -, hEnv, -⟩ := turn_out D hNodup hp hStanding hTurn hNew
          exact absurd (hSender.symm.trans (honest_of_mem D hp hEnv).sender) hSame
      · exact hAccountsQ senv (Or.inr hHanded) hSender

/-- A delivery moves an envelope and changes no account. -/
theorem Ledger.deliver {w : Net C κ α} (h : Ledger K stages calls result w) {i : Nat}
    {senv : SignedEnvelope C} (hAt : w.flight[i]? = some senv)
    (hReceive : (w.party senv.env.recipient).receive senv = some party') :
    Ledger K stages calls result
      { party := Function.update w.party senv.env.recipient party'
        flight := w.flight.eraseIdx i
        handed := Function.update w.handed senv.env.recipient
          (w.handed senv.env.recipient ++ [senv]) } := by
  have hInv := h.inv.deliver D hAt hReceive
  refine ⟨hInv, fun q hq => ?_⟩
  obtain ⟨past, sent, hStanding, hSupplied, hAccounts⟩ := h.standing q hq
  -- the envelope was in flight before, and on its sender's account then
  have hAccounts' : Accounts (⟨Function.update w.party senv.env.recipient party',
      w.flight.eraseIdx i, Function.update w.handed senv.env.recipient
        (w.handed senv.env.recipient ++ [senv])⟩ : Net C κ α) q sent := by
    rintro s (hFlight | ⟨q', hHanded⟩) hSender
    · exact hAccounts s (Or.inl (List.mem_of_mem_eraseIdx hFlight)) hSender
    · change s ∈ Function.update w.handed senv.env.recipient _ q' at hHanded
      by_cases hSame : q' = senv.env.recipient
      · rw [hSame, Function.update_self] at hHanded
        rcases List.mem_append.mp hHanded with hOld | hNew
        · exact hAccounts s (Or.inr ⟨_, hOld⟩) hSender
        · rw [List.mem_singleton.mp hNew] at hSender ⊢
          exact hAccounts senv (Or.inl (List.mem_of_getElem? hAt)) hSender
      · rw [Function.update_of_ne hSame] at hHanded
        exact hAccounts s (Or.inr ⟨q', hHanded⟩) hSender
  -- only the recipient is handed more
  by_cases hSame : q = senv.env.recipient
  · subst hSame
    have hHanded := hInv.handed senv.env.recipient
    simp only [Function.update_self] at hHanded
    refine ⟨past, sent, ?_, ?_, hAccounts'⟩
    · show Standing K stages _ _ _ (Function.update w.handed _ _ _) past
        (Function.update w.party _ _ _) sent
      rw [Function.update_self, Function.update_self]
      exact standing_receive D hHanded hStanding hReceive
    · intro st hSt
      show (K.exchange _).Supplied (Function.update w.handed _ _ _) st.round st.expect
      rw [Function.update_self]
      exact supplied_append [senv] (hSupplied st hSt)
  · refine ⟨past, sent, ?_, ?_, hAccounts'⟩
    · show Standing K stages _ _ _ (Function.update w.handed _ _ q) past
        (Function.update w.party _ _ q) sent
      rwa [Function.update_of_ne hSame, Function.update_of_ne hSame]
    · intro st hSt
      show (K.exchange q).Supplied (Function.update w.handed _ _ q) st.round st.expect
      rw [Function.update_of_ne hSame]
      exact hSupplied st hSt

/-- **Nobody writes to a party that has ended.** It has the supply of every stage,
so also the one envelope of this slot there is. -/
theorem Ledger.mailbox_open (hNodup : K.participants.Nodup) (hWanted : ∀ st ∈ stages, st.Wanted)
    {w : Net C κ α} (h : Ledger K stages calls result w) (hq : q ∈ K.participants)
    (hTurn : (w.party q).turn (K.rnd q) = some (party', out)) {senv : SignedEnvelope C}
    (hOut : senv ∈ out) :
    senv.env.recipient ∈ K.participants ∧
      ∀ r, (w.party senv.env.recipient).node ≠ .finished r := by
  obtain ⟨past, sent, hStanding, -, hAccounts⟩ := h.standing q hq
  obtain ⟨-, st, hSt, hEnv, hSlots⟩ := turn_out D hNodup hq hStanding hTurn hOut
  have hHonest := honest_of_mem D hq hEnv
  have hTo : senv.env.recipient ∈ K.participants := by
    obtain ⟨-, hPeer, -⟩ := mem_sendRound hEnv
    exact (mem_peers.mp hPeer).1
  refine ⟨hTo, fun r hEnded => ?_⟩
  obtain ⟨pastTo, sentTo, hStandingTo, hSupplied, -⟩ := h.standing _ hTo
  -- who ended has every stage behind it
  have hAll : pastTo = stages := by
    have hAt := standing_located hStandingTo
    simpa only [hEnded, Node.round?] using hAt
  have hWants : st.expect.wants senv.env.sealed = true := by
    obtain ⟨m, -, hOffer⟩ := hHonest.opens
    exact hWanted st hSt _ senv.env.recipient q (by rw [hOffer]; rfl)
  have hFrom : q ∈ (K.exchange senv.env.recipient).peers := by
    obtain ⟨-, -, -, hPeer⟩ := concerns_iff.mp hHonest.concerns
    rwa [hHonest.sender] at hPeer
  -- so it was handed an envelope of this slot, which is on `q`'s account
  have hMail := hSupplied st (hAll ▸ hSt) senv.env.sealed hWants q hFrom
  obtain ⟨e, rest, hCons⟩ := List.exists_cons_of_ne_nil hMail
  have hMem : e ∈ (K.exchange senv.env.recipient).mail (w.handed senv.env.recipient) q st.round
      senv.env.sealed := hCons ▸ List.mem_cons_self
  obtain ⟨s, hs, -⟩ := List.mem_map.mp hMem
  obtain ⟨hHanded, hIs⟩ := List.mem_filter.mp hs
  obtain ⟨hConcerns, hSender, hRound, hKind⟩ := isMail_iff.mp hIs
  obtain ⟨-, -, hRecipient, -⟩ := concerns_iff.mp hConcerns
  refine hSlots s (hAccounts s (Or.inr ⟨_, hHanded⟩) hSender) hRound ?_
  show (s.env.recipient, s.env.sealed) = (senv.env.recipient, senv.env.sealed)
  rw [hRecipient, hKind]
  rfl

end

end Ceremony

end Sovra.Mpc
