import Sovra.Mpc.Ceremony

/-!
# Sovra — the network computes what direct routing computes

A party that has read some envelopes stands where direct routing stands after the
stages behind it: what it buffered and filed is a function of what it was handed
(`Mpc.Schedule`), what it was handed was sent by somebody in some stage, and the
content of such an envelope is what that stage offers. Nothing sent is ever lost,
so a party that waits waits for a party that has not sent yet.

* `Inv.step`           — what one move preserves.
* `ceremony_computes` — the runs follow direct routing, and none gets stuck.
-/

namespace Sovra.Mpc

open Lib

/-- Honest signatures verify. -/
def Crypto.Signs (C : Crypto) : Prop :=
  ∀ sk m, C.verifyStrict (C.verifyingKey sk) m (C.signBytes sk m) = true

-- ---------------------------------------------------------------------------
-- Party ids
-- ---------------------------------------------------------------------------

/-- A party's id is its place in the roster. -/
theorem ids_get {n : Nat} {p : UInt8} (h : p ∈ ids n) : (ids n)[p.toNat]? = some p := by
  obtain ⟨i, hi, rfl⟩ := List.mem_map.mp h
  have hLt : (UInt8.ofNat i).toNat < n := by
    rw [UInt8.toNat_ofNat']
    have hRange := List.mem_range.mp hi
    omega
  rw [ids, List.getElem?_map, List.getElem?_range hLt, Option.map_some, UInt8.ofNat_toNat]

/-- Everybody has everybody's key pinned. -/
theorem ctx_pinned {C : Crypto} {R : Roster C} {p q : UInt8} (h : p ∈ ids R.count) :
    (R.ctx q).partyVks[p.toNat]? = some (C.verifyingKey (R.signingKey p)) := by
  show ((ids R.count).map _)[p.toNat]? = _
  rw [List.getElem?_map, ids_get h]
  rfl

/-- A relay that takes everything is given everything. -/
theorem transmit_ok {C : Crypto} (envs : List (SignedEnvelope C)) :
    transmit (fun _ => .ok ()) (envs.map .ok) = (envs, .ok ()) := by
  induction envs with
  | nil => rfl
  | cons senv envs ih =>
    rw [List.map_cons, transmit]
    simp only [ih]

/-- A list of successes is one of values. -/
theorem all_ok {ε β : Type} {l : List (Except ε β)} (h : ∀ x ∈ l, ∃ b, x = .ok b) :
    ∃ bs : List β, l = bs.map .ok := by
  induction l with
  | nil => exact ⟨[], rfl⟩
  | cons x l ih =>
    obtain ⟨b, rfl⟩ := h x List.mem_cons_self
    obtain ⟨bs, rfl⟩ := ih fun y hy => h y (List.mem_cons_of_mem _ hy)
    exact ⟨b :: bs, rfl⟩

namespace Ceremony

section

variable {C : Crypto} {κ α : Type} {K : Ceremony C κ α} {stages : List Stage}
  {calls : UInt8 → List κ} {result : UInt8 → Except Halt α}

-- ---------------------------------------------------------------------------
-- What a stage puts on the network
-- ---------------------------------------------------------------------------

variable (K) in
/-- `p`'s `send_round` of a stage, on a relay that takes everything. -/
def sendCall (st : Stage) (p : UInt8) : SendCall C where
  ctx := K.roster.ctx p
  op := K.op
  participants := K.participants
  round := st.round
  outbox := st.outbox p
  rnd := K.rnd p st.round
  relay _ := .ok ()

variable (K) in
/-- The envelopes `p` sends in a stage. -/
def envelopes (st : Stage) (p : UInt8) : List (SignedEnvelope C) := (K.sendCall st p).emitted

variable (K) in
/-- The seals of the stages succeed. -/
def Seals (stages : List Stage) : Prop :=
  ∀ st ∈ stages, ∀ p ∈ K.participants, ∀ q plaintext, (st.outbox p).p2p[q]? = some plaintext →
    ∃ env, Envelope.mkSealed (K.rnd p st.round q) K.roster.inst K.op st.round p q
      (C.verifyingKey (K.roster.signingKey q)) plaintext = .ok env

variable (K) in
/-- The scripts follow the stages, whose rounds ascend and which offer all that
is expected. -/
structure Direct (stages : List Stage) (calls : UInt8 → List κ)
    (result : UInt8 → Except Halt α) : Prop where
  box : C.SealedBox
  signs : C.Signs
  seated : ∀ p ∈ K.participants, p ∈ ids K.roster.count
  rounds : (stages.map Stage.round).Pairwise (· < ·)
  offered : ∀ st ∈ stages, st.Offered K.participants
  seals : K.Seals stages
  follows : ∀ p ∈ K.participants,
    Follows K.participants p stages (K.script p) (calls p) (result p)

/-- A party's peers are the other participants. -/
theorem mem_peers {p q : UInt8} :
    q ∈ (K.exchange p).peers ↔ q ∈ K.participants ∧ q ≠ p := by
  show q ∈ K.participants.filter (fun q => q ≠ p) ↔ _
  rw [List.mem_filter, decide_eq_true_eq]

variable (D : K.Direct stages calls result) {st : Stage} {p q : UInt8}
include D

/-- A stage's envelopes are what `send_round` has to hand over. -/
theorem outgoing_eq (hSt : st ∈ stages) (hp : p ∈ K.participants) :
    (K.exchange p).outgoing st.round (st.outbox p) (K.rnd p st.round) =
      (K.envelopes st p).map .ok := by
  -- a peer's key is pinned and its seal succeeds, so no step of `outgoing` fails
  have hOk : ∀ x ∈ (K.exchange p).outgoing st.round (st.outbox p) (K.rnd p st.round),
      ∃ senv, x = .ok senv := by
    intro x hx
    rcases List.mem_append.mp hx with hBroadcast | hP2p
    · rcases hOut : (st.outbox p).broadcast with _ | payload
      · simp [hOut] at hBroadcast
      · rw [hOut] at hBroadcast
        obtain ⟨q, -, rfl⟩ := List.mem_map.mp hBroadcast
        exact ⟨_, rfl⟩
    · obtain ⟨⟨q, plaintext⟩, hEntry, rfl⟩ := List.mem_map.mp hP2p
      have hGet := Std.ExtTreeMap.mem_toList_iff_getElem?_eq_some.mp hEntry
      have hPeer := (D.offered st hSt).addressed p hp q
        (Std.ExtTreeMap.mem_iff_isSome_getElem?.mpr (by rw [hGet]; rfl))
      obtain ⟨env, hSeal⟩ := D.seals st hSt p hp q plaintext hGet
      have hVk : (K.exchange p).ctx.partyVks[q.toNat]? =
          some (C.verifyingKey (K.roster.signingKey q)) := ctx_pinned (D.seated q hPeer.1)
      have hSeal' : Envelope.mkSealed (K.rnd p st.round q) (K.exchange p).ctx.inst
          (K.exchange p).op st.round (K.exchange p).ctx.partyId q
          (C.verifyingKey (K.roster.signingKey q)) plaintext = .ok env := hSeal
      refine ⟨env.sign (K.exchange p).ctx.signingKey, ?_⟩
      simp only [if_neg (not_not.mpr (mem_peers.mpr hPeer)), hVk, hSeal']
  obtain ⟨envs, hEnvs⟩ := all_ok hOk
  have hSent : K.envelopes st p = envs := by
    show (transmit (fun _ => .ok ())
      ((K.exchange p).outgoing st.round (st.outbox p) (K.rnd p st.round))).1 = envs
    rw [hEnvs, transmit_ok]
  rw [hEnvs, hSent]

/-- What a stage puts on the network: to another participant, signed by the
sender's pinned key, and opening to what the stage offers. -/
structure Honest (K : Ceremony C κ α) (st : Stage) (p : UInt8) (senv : SignedEnvelope C) :
    Prop where
  sender : senv.env.sender = p
  round : senv.env.round = st.round
  concerns : (K.exchange senv.env.recipient).concerns senv.env = true
  verified : senv.verify (K.exchange senv.env.recipient).ctx.partyVks = .ok ()
  opens : ∃ m, (K.exchange senv.env.recipient).content senv.env = .ok m ∧
    st.content senv.env.sealed senv.env.recipient p = some m

/-- What a stage sends is as `Honest` says. -/
theorem honest_of_mem (hp : p ∈ K.participants) {senv : SignedEnvelope C}
    (hMem : senv ∈ K.envelopes st p) : K.Honest st p senv := by
  obtain ⟨hSigned, hPeer, hBody⟩ := mem_sendRound hMem
  have hTo := mem_peers.mp hPeer
  have hFields : senv.env.inst = K.roster.inst ∧ senv.env.op = K.op ∧
      senv.env.sender = p ∧ senv.env.round = st.round := by
    rcases hBody with ⟨payload, -, hEnv⟩ | ⟨plaintext, vk, -, -, hSeal⟩
    · rw [hEnv]
      exact ⟨rfl, rfl, rfl, rfl⟩
    · rw [mkSealed_fields hSeal]
      exact ⟨rfl, rfl, rfl, rfl⟩
  obtain ⟨hInst, hOp, hSender, hRound⟩ := hFields
  have hConcerns : (K.exchange senv.env.recipient).concerns senv.env = true := by
    refine concerns_iff.mpr ⟨hInst, hOp, rfl, ?_⟩
    rw [hSender]
    exact mem_peers.mpr ⟨hp, hTo.2.symm⟩
  have hVerified : senv.verify (K.exchange senv.env.recipient).ctx.partyVks = .ok () := by
    have hVk : (K.exchange senv.env.recipient).ctx.partyVks[senv.env.sender.toNat]? =
        some (C.verifyingKey (K.roster.signingKey p)) := by
      rw [hSender]
      exact ctx_pinned (D.seated p hp)
    have hSig : C.verifyStrict (C.verifyingKey (K.roster.signingKey p))
        (senv.env.signingPreimage C) senv.sig = true := by
      rw [show senv.sig = C.signBytes (K.roster.signingKey p) (senv.env.signingPreimage C) from
        congrArg SignedEnvelope.sig hSigned]
      exact D.signs _ _
    unfold SignedEnvelope.verify
    simp only [hVk, hSig, if_true]
  -- a broadcast is its payload; a seal was made for the recipient's pinned key
  have hOpens : ∃ m, (K.exchange senv.env.recipient).content senv.env = .ok m := by
    rcases hBody with ⟨payload, -, hEnv⟩ | ⟨plaintext, vk, -, hVk, hSeal⟩
    · have hPlain : senv.env.sealed = false := by rw [hEnv]; rfl
      exact ⟨senv.env.payload, by simp [Exchange.content, hPlain]⟩
    · have hSealed : senv.env.sealed = true := by rw [mkSealed_fields hSeal]
      have hKey : vk = C.verifyingKey (K.roster.signingKey senv.env.recipient) := by
        have hVk' : (K.roster.ctx p).partyVks[senv.env.recipient.toNat]? = some vk := hVk
        rw [ctx_pinned (D.seated _ hTo.1)] at hVk'
        exact (Option.some.inj hVk').symm
      rw [hKey] at hSeal
      refine ⟨plaintext, ?_⟩
      simp only [Exchange.content, hSealed, if_true]
      exact unseal_mkSealed D.box hSeal
  obtain ⟨m, hContent⟩ := hOpens
  have hPinned : (K.exchange senv.env.recipient).ctx.Pinned := ctx_pinned (D.seated _ hTo.1)
  -- and what it opens to is what the call offered
  obtain ⟨-, hOffer⟩ := emitted_content D.box hMem hConcerns hPinned rfl hContent
  refine ⟨hSender, hRound, hConcerns, hVerified, m, hContent, ?_⟩
  unfold Stage.content
  split at hOffer
  · rename_i hSealed
    rw [if_pos hSealed]
    exact hOffer
  · rename_i hPlain
    rw [if_neg hPlain]
    exact hOffer

/-- What a stage expects of `q` for `p` is among `q`'s envelopes. -/
theorem envelope_exists (hSt : st ∈ stages) (hp : p ∈ K.participants) (hq : q ∈ K.participants)
    (hNe : q ≠ p) {k : Bool} (hWants : st.expect.wants k = true) :
    ∃ senv ∈ K.envelopes st q, senv.env.recipient = p ∧ senv.env.sealed = k := by
  have hSome := (D.offered st hSt).supply p hp q hq hNe k hWants
  have hOut := outgoing_eq D hSt hq
  have hPeer : p ∈ (K.exchange q).peers := mem_peers.mpr ⟨hp, hNe.symm⟩
  -- a broadcast goes to every peer, a p2p entry to its key
  have hFind : ∃ senv : SignedEnvelope C, .ok senv ∈ (K.exchange q).outgoing st.round
      (st.outbox q) (K.rnd q st.round) ∧ senv.env.recipient = p ∧ senv.env.sealed = k := by
    rcases k with _ | _
    · obtain ⟨payload, hBroadcast⟩ := Option.isSome_iff_exists.mp hSome
      have hBroadcast' : (st.outbox q).broadcast = some payload := hBroadcast
      refine ⟨(Envelope.mkBroadcast (K.exchange q).ctx.inst (K.exchange q).op st.round
        (K.exchange q).ctx.partyId p payload).sign (K.exchange q).ctx.signingKey,
        List.mem_append_left _ ?_, rfl, rfl⟩
      rw [hBroadcast']
      exact List.mem_map.mpr ⟨p, hPeer, rfl⟩
    · obtain ⟨plaintext, hEntry⟩ := Option.isSome_iff_exists.mp hSome
      have hEntry' : (st.outbox q).p2p[p]? = some plaintext := hEntry
      obtain ⟨env, hSeal⟩ := D.seals st hSt q hq p plaintext hEntry'
      have hVk : (K.exchange q).ctx.partyVks[p.toNat]? =
          some (C.verifyingKey (K.roster.signingKey p)) := ctx_pinned (D.seated p hp)
      have hSeal' : Envelope.mkSealed (K.rnd q st.round p) (K.exchange q).ctx.inst
          (K.exchange q).op st.round (K.exchange q).ctx.partyId p
          (C.verifyingKey (K.roster.signingKey p)) plaintext = .ok env := hSeal
      have hFields := mkSealed_fields hSeal
      refine ⟨env.sign (K.exchange q).ctx.signingKey, List.mem_append_right _ ?_, ?_, ?_⟩
      · refine List.mem_map.mpr ⟨(p, plaintext),
          Std.ExtTreeMap.mem_toList_iff_getElem?_eq_some.mpr hEntry', ?_⟩
        simp only [if_neg (not_not.mpr hPeer), hVk, hSeal']
      · show env.recipient = p
        rw [hFields]
      · show env.sealed = true
        rw [hFields]
  obtain ⟨senv, hMem, hTo, hKind⟩ := hFind
  rw [hOut] at hMem
  obtain ⟨senv', hMem', hEq⟩ := List.mem_map.mp hMem
  exact ⟨senv, Except.ok.inj hEq ▸ hMem', hTo, hKind⟩

-- ---------------------------------------------------------------------------
-- What a party was handed
-- ---------------------------------------------------------------------------

/-- Some participant put the envelope on the network in some stage. -/
def Sent (K : Ceremony C κ α) (stages : List Stage) (senv : SignedEnvelope C) : Prop :=
  ∃ st ∈ stages, ∃ p ∈ K.participants, senv ∈ K.envelopes st p

/-- All `p` was handed was sent, and to `p`. -/
def HandedOnly (K : Ceremony C κ α) (stages : List Stage) (p : UInt8)
    (handed : List (SignedEnvelope C)) : Prop :=
  ∀ senv ∈ handed, K.Sent stages senv ∧ senv.env.recipient = p

variable {handed : List (SignedEnvelope C)}

/-- What an honest network hands over verifies and opens. -/
theorem handed_wellFormed (hHanded : K.HandedOnly stages p handed) :
    (K.exchange p).WellFormed handed := by
  intro senv hMem _
  obtain ⟨⟨st, -, q, hq, hSent⟩, rfl⟩ := hHanded senv hMem
  have hHonest := honest_of_mem D hq hSent
  obtain ⟨m, hContent, -⟩ := hHonest.opens
  exact ⟨hHonest.verified, m, hContent⟩

/-- Two stages of one round are one stage. -/
theorem stage_unique {st' : Stage} (hSt : st ∈ stages) (hSt' : st' ∈ stages)
    (hRound : st.round = st'.round) : st = st' := by
  have hNodup : (stages.map Stage.round).Nodup := D.rounds.imp UInt8.ne_of_lt
  exact List.inj_on_of_nodup_map hNodup hSt hSt' hRound

/-- The first envelope of a stage opens to what the stage offers. -/
theorem first_of_handed (hSt : st ∈ stages) (hHanded : K.HandedOnly stages p handed) {k : Bool}
    (hMail : (K.exchange p).mail handed q st.round k ≠ []) :
    (K.exchange p).first handed q st.round k = st.content k p q := by
  obtain ⟨e, rest, hEq⟩ := List.exists_cons_of_ne_nil hMail
  have hMem : e ∈ (K.exchange p).mail handed q st.round k := hEq ▸ List.mem_cons_self
  obtain ⟨senv, hSenv, rfl⟩ := List.mem_map.mp hMem
  obtain ⟨hHandedMem, hIs⟩ := List.mem_filter.mp hSenv
  obtain ⟨-, hSender, hRound, hKind⟩ := isMail_iff.mp hIs
  obtain ⟨⟨st', hSt', q', hq', hSent⟩, hTo⟩ := hHanded senv hHandedMem
  have hHonest := honest_of_mem D hq' hSent
  obtain rfl : st' = st := stage_unique D hSt' hSt (hHonest.round.symm.trans hRound)
  obtain rfl : q' = q := hHonest.sender.symm.trans hSender
  obtain ⟨m, hContent, hOffer⟩ := hHonest.opens
  rw [hTo] at hContent hOffer
  rw [Exchange.first, hEq, ← hKind, hOffer]
  simp only [List.head?_cons, Option.bind_some, hContent]
  rfl

/-- A complete inbox of a stage is the one direct routing fills. -/
theorem routes_of_firsts (hSt : st ∈ stages) (hHanded : K.HandedOnly stages p handed)
    {inbox : RoundInbox} (hFirsts : (K.exchange p).Firsts handed st.round st.expect inbox)
    (hSupplied : (K.exchange p).Supplied handed st.round st.expect) :
    st.Routes K.participants p inbox := by
  intro k q
  rw [hFirsts k q]
  by_cases hWants : st.expect.wants k = true
  · rw [if_pos hWants]
    by_cases hPeer : q ∈ (K.exchange p).peers
    · rw [if_pos ⟨hWants, mem_peers.mp hPeer⟩]
      exact first_of_handed D hSt hHanded (hSupplied k hWants q hPeer)
    · rw [if_neg fun h => hPeer (mem_peers.mpr h.2), Exchange.first, mail_eq_nil_of_not_peer hPeer]
      rfl
  · rw [if_neg hWants, if_neg fun h => hWants h.1]

omit D in
/-- A script that follows stages starts into the first of them, or ends. -/
theorem start_cases {rest : List Stage} {script : Script κ α} {left : List κ}
    {res : Except Halt α} (h : Follows K.participants p rest script left res) (ex : Exchange C)
    (rnd : UInt8 → UInt8 → SealRandomness C) :
    (rest = [] ∧ script.start ex rnd = ⟨left, .finished res⟩) ∨
    ∃ st post made left' next, rest = st :: post ∧ left = made ++ left' ∧
      script.start ex rnd = ⟨made, .sending ex st.round
        (ex.outgoing st.round (st.outbox p) (rnd st.round)) st.expect next⟩ ∧
      ∀ inbox, st.Routes K.participants p inbox →
        Follows K.participants p post (next inbox) left' res := by
  -- on the derivation; library calls before the first round are collected
  induction h with
  | done => exact Or.inl ⟨rfl, rfl⟩
  | halt => exact Or.inl ⟨rfl, rfl⟩
  | @call rest c next left res _ ih =>
    rcases ih with ⟨hRest, hStart⟩ | ⟨st, post, made, left', next', hRest, rfl, hStart, hNext⟩
    · refine Or.inl ⟨hRest, ?_⟩
      rw [Script.start, hStart]
    · refine Or.inr ⟨st, post, c :: made, left', next', hRest, rfl, ?_, hNext⟩
      rw [Script.start, hStart]
  | @round st post next left res hNext _ =>
    exact Or.inr ⟨st, post, [], left, next, rfl, rfl, rfl, hNext⟩

-- ---------------------------------------------------------------------------
-- Where a party stands
-- ---------------------------------------------------------------------------

/-- `p` has the stages `past` behind it and has put `sent` on the network. -/
inductive Standing (K : Ceremony C κ α) (stages : List Stage) (calls : List κ)
    (result : Except Halt α) (p : UInt8) (handed : List (SignedEnvelope C)) :
    List Stage → Party C κ α → List (SignedEnvelope C) → Prop
  | sending {past st rest sent todo lo made left next} (hStages : stages = past ++ st :: rest)
      (hSplit : K.envelopes st p = sent ++ todo) (hCalls : calls = made ++ left)
      (hLo : ∀ st' ∈ st :: rest, lo ≤ st'.round.toNat)
      (hNext : ∀ inbox, st.Routes K.participants p inbox →
        Follows K.participants p rest (next inbox) left result) :
      Standing K stages calls result p handed past
        ⟨made, .sending { K.exchange p with ahead := (K.exchange p).buffered lo handed } st.round
          (todo.map .ok) st.expect next⟩
        ((past.flatMap fun st => K.envelopes st p) ++ sent)
  | receiving {past st rest ahead inbox made left next} (hStages : stages = past ++ st :: rest)
      (hCaught : (K.exchange p).Caught st.round st.expect handed ahead inbox)
      (hCalls : calls = made ++ left)
      (hNext : ∀ inbox, st.Routes K.participants p inbox →
        Follows K.participants p rest (next inbox) left result) :
      Standing K stages calls result p handed past
        ⟨made, .receiving { K.exchange p with ahead } st.round st.expect inbox next⟩
        ((past ++ [st]).flatMap fun st => K.envelopes st p)
  | finished : Standing K stages calls result p handed stages ⟨calls, .finished result⟩
      (stages.flatMap fun st => K.envelopes st p)

variable {past rest : List Stage} {party party' : Party C κ α} {out sent : List (SignedEnvelope C)}
  {made left : List κ} {script : Script κ α}

/-- A party that goes on stands at the next stage, or at the end. -/
theorem standing_goOn (hp : p ∈ K.participants) {lo : Nat} (hStages : stages = past ++ rest)
    (hCalls : calls p = party.calls ++ left) (hLo : ∀ st ∈ rest, lo ≤ st.round.toNat)
    (hFollows : Follows K.participants p rest script left (result p)) :
    ∃ past', Standing K stages (calls p) (result p) p handed past'
      (party.goOn { K.exchange p with ahead := (K.exchange p).buffered lo handed } (K.rnd p) script)
      (past.flatMap fun st => K.envelopes st p) := by
  unfold Party.goOn
  -- the script is over, or it has come to its next round
  rcases start_cases hFollows { K.exchange p with ahead := (K.exchange p).buffered lo handed }
    (K.rnd p) with ⟨rfl, hStart⟩ | ⟨st, post, made, left', next, rfl, rfl, hStart, hNext⟩
  · rw [List.append_nil] at hStages
    rw [hStart, ← hStages, ← hCalls]
    exact ⟨stages, .finished⟩
  · have hSt : st ∈ stages := by
      rw [hStages]
      exact List.mem_append_right _ List.mem_cons_self
    -- in which it hands over what the stage says
    have hOut : ({ K.exchange p with ahead := (K.exchange p).buffered lo handed } :
        Exchange C).outgoing st.round (st.outbox p) (K.rnd p st.round) =
          (K.envelopes st p).map .ok := outgoing_eq D hSt hp
    have hSending : Standing K stages (calls p) (result p) p handed past
        ⟨party.calls ++ made, .sending
          { K.exchange p with ahead := (K.exchange p).buffered lo handed } st.round
          ((K.envelopes st p).map .ok) st.expect next⟩
        ((past.flatMap fun st => K.envelopes st p) ++ []) :=
      .sending hStages rfl (by rw [hCalls, List.append_assoc]) hLo hNext
    rw [List.append_nil] at hSending
    rw [hStart, hOut]
    exact ⟨past, hSending⟩

omit D in
/-- What a standing party has put on the network was sent. -/
theorem standing_sent (hp : p ∈ K.participants)
    (h : Standing K stages (calls p) (result p) p handed past party sent) :
    ∀ senv ∈ sent, K.Sent stages senv := by
  have hAll : ∀ sts : List Stage, (∀ st ∈ sts, st ∈ stages) →
      ∀ senv ∈ (sts.flatMap fun st => K.envelopes st p), K.Sent stages senv := by
    intro sts hSts senv hMem
    obtain ⟨st, hSt, hEnv⟩ := List.mem_flatMap.mp hMem
    exact ⟨st, hSts st hSt, p, hp, hEnv⟩
  intro senv hMem
  -- sending, receiving or finished: the stages so far are some of the ceremony's
  cases h with
  | @sending past st rest sent todo lo made left next hStages hSplit _ _ _ =>
    rcases List.mem_append.mp hMem with hPast | hNow
    · refine hAll past (fun st' h' => ?_) senv hPast
      rw [hStages]
      exact List.mem_append_left _ h'
    · refine ⟨st, ?_, p, hp, ?_⟩
      · rw [hStages]
        exact List.mem_append_right _ List.mem_cons_self
      · rw [hSplit]
        exact List.mem_append_left _ hNow
  | @receiving past st rest ahead inbox made left next hStages _ _ _ =>
    refine hAll (past ++ [st]) (fun st' h' => ?_) senv hMem
    rw [hStages, List.append_cons]
    exact List.mem_append_left _ h'
  | finished => exact hAll stages (fun _ h => h) senv hMem

-- ---------------------------------------------------------------------------
-- What a party's own moves preserve
-- ---------------------------------------------------------------------------

/-- The rounds after a stage are above its own. -/
theorem rounds_after (hStages : stages = past ++ st :: rest) :
    ∀ st' ∈ rest, st.round.toNat + 1 ≤ st'.round.toNat := by
  intro st' hMem
  have hRounds := D.rounds
  rw [hStages, List.map_append, List.map_cons, List.pairwise_append, List.pairwise_cons] at hRounds
  exact UInt8.lt_iff_toNat_lt.mp (hRounds.2.1.1 st'.round (List.mem_map_of_mem hMem))

/-- A turn keeps a party in line with the stages. -/
theorem standing_turn (hp : p ∈ K.participants) (hHanded : K.HandedOnly stages p handed)
    (h : Standing K stages (calls p) (result p) p handed past party sent)
    (hTurn : party.turn (K.rnd p) = some (party', out)) :
    ∃ past', Standing K stages (calls p) (result p) p handed past' party' (sent ++ out) := by
  cases h with
  | @sending past st rest sent todo lo made left next hStages hSplit hCalls hLo hNext =>
    rcases todo with _ | ⟨senv, todo⟩
    · -- the last envelope is out: the buffered part of the stream is read first
      rw [List.append_nil] at hSplit
      have hWf : (K.exchange p).WellFormed ([] ++ (K.exchange p).buffered lo handed) :=
        fun s hs => handed_wellFormed D hHanded s (List.mem_filter.mp hs).1
      obtain ⟨ahead, inbox, hDrain, hCaught⟩ :=
        drainAhead_caught hWf (caught_nil (K.exchange p) st.round st.expect)
      have hDrain' : ({ K.exchange p with ahead := [] } : Exchange C).drainAhead st.round st.expect
          .empty ((K.exchange p).buffered lo handed) =
            .ok ({ K.exchange p with ahead }, inbox) := hDrain
      simp only [Party.turn, List.map_nil, hDrain', Option.some.injEq, Prod.mk.injEq] at hTurn
      obtain ⟨rfl, rfl⟩ := hTurn
      have hReady := caught_buffered (hLo st List.mem_cons_self) hCaught
      have hReceiving : Standing K stages (calls p) (result p) p handed past
          ⟨made, .receiving { K.exchange p with ahead } st.round st.expect inbox next⟩
          ((past ++ [st]).flatMap fun st => K.envelopes st p) :=
        .receiving hStages hReady hCalls hNext
      rw [List.flatMap_append, List.flatMap_singleton, hSplit] at hReceiving
      rw [List.append_nil]
      exact ⟨past, hReceiving⟩
    · simp only [Party.turn, List.map_cons, Option.some.injEq, Prod.mk.injEq] at hTurn
      obtain ⟨rfl, rfl⟩ := hTurn
      have hSending : Standing K stages (calls p) (result p) p handed past
          ⟨made, .sending { K.exchange p with ahead := (K.exchange p).buffered lo handed } st.round
            (todo.map .ok) st.expect next⟩
          ((past.flatMap fun st => K.envelopes st p) ++ (sent ++ [senv])) :=
        .sending hStages (by rw [hSplit, List.append_assoc]; rfl) hCalls hLo hNext
      rw [List.append_assoc]
      exact ⟨past, hSending⟩
  | @receiving past st rest ahead inbox made left next hStages hCaught hCalls hNext =>
    -- a complete inbox is the one direct routing fills, so the script goes on as it
    -- follows
    simp only [Party.turn] at hTurn
    split at hTurn
    case isFalse => simp at hTurn
    rename_i hComplete
    simp only [Option.some.injEq, Prod.mk.injEq] at hTurn
    obtain ⟨rfl, rfl⟩ := hTurn
    obtain ⟨hAhead, hFirsts⟩ := hCaught
    have hSt : st ∈ stages := by
      rw [hStages]
      exact List.mem_append_right _ List.mem_cons_self
    have hSupplied := (complete_iff_supplied (handed_wellFormed D hHanded) hFirsts).mp hComplete
    have hRoutes := routes_of_firsts D hSt hHanded hFirsts hSupplied
    have hBuffer : ahead = (K.exchange p).buffered (st.round.toNat + 1) handed := by
      rw [hAhead]
      simp only [Exchange.buffered, UInt8.lt_iff_toNat_lt, Nat.succ_le_iff]
    rw [List.append_nil, hBuffer]
    exact standing_goOn D hp (by rw [hStages, List.append_cons]) hCalls (rounds_after D hStages)
      (hNext inbox hRoutes)
  | finished => simp [Party.turn] at hTurn

/-- So does a delivery. -/
theorem standing_receive {senv : SignedEnvelope C}
    (hHanded : K.HandedOnly stages p (handed ++ [senv]))
    (h : Standing K stages (calls p) (result p) p handed past party sent)
    (hReceive : party.receive senv = some party') :
    Standing K stages (calls p) (result p) p (handed ++ [senv]) past party' sent := by
  cases h with
  | sending => simp [Party.receive] at hReceive
  | @receiving past st rest ahead inbox made left next hStages hCaught hCalls hNext =>
    simp only [Party.receive] at hReceive
    split at hReceive
    case isTrue => simp at hReceive
    obtain ⟨ahead', inbox', hAdmit, hCaught'⟩ :=
      admitEnv_caught (handed_wellFormed D hHanded) hCaught
    simp only [hAdmit, Option.some.injEq] at hReceive
    rw [← hReceive]
    exact .receiving hStages hCaught' hCalls hNext
  | finished => simp [Party.receive] at hReceive

-- ---------------------------------------------------------------------------
-- Runs
-- ---------------------------------------------------------------------------

/-- Every participant stands somewhere, and nothing sent is lost or made up. -/
structure Inv (K : Ceremony C κ α) (stages : List Stage) (calls : UInt8 → List κ)
    (result : UInt8 → Except Halt α) (w : Net C κ α) : Prop where
  standing : ∀ p ∈ K.participants, ∃ past sent,
    Standing K stages (calls p) (result p) p (w.handed p) past (w.party p) sent ∧
      ∀ senv ∈ sent, senv ∈ w.flight ∨ senv ∈ w.handed senv.env.recipient
  flight : ∀ senv ∈ w.flight, K.Sent stages senv
  handed : ∀ p, K.HandedOnly stages p (w.handed p)

/-- At the start everybody stands at the first stage, and nothing is sent. -/
theorem Inv.init : K.Inv stages calls result K.init where
  standing p hp := by
    have hBuffer : K.exchange p =
        { K.exchange p with ahead := (K.exchange p).buffered 0 [] } := rfl
    have hStart : (K.init.party p) = (⟨[], .finished (.error .panic)⟩ : Party C κ α).goOn
        { K.exchange p with ahead := (K.exchange p).buffered 0 [] } (K.rnd p) (K.script p) := by
      rw [← hBuffer]
      rfl
    have hGoOn : ∃ past, Standing K stages (calls p) (result p) p [] past
        ((⟨[], .finished (.error .panic)⟩ : Party C κ α).goOn
          { K.exchange p with ahead := (K.exchange p).buffered 0 [] } (K.rnd p) (K.script p))
        (([] : List Stage).flatMap fun st => K.envelopes st p) :=
      standing_goOn D hp rfl rfl (fun _ _ => Nat.zero_le _) (D.follows p hp)
    obtain ⟨past, hStanding⟩ := hGoOn
    rw [hStart]
    exact ⟨past, [], hStanding, by simp⟩
  flight := by simp [Ceremony.init]
  handed p := by
    intro senv hMem
    simp [Ceremony.init] at hMem

/-- A turn moves one party and adds what it sends. -/
theorem Inv.turn {w : Net C κ α} (h : K.Inv stages calls result w) (hp : p ∈ K.participants)
    {party : Party C κ α} {out : List (SignedEnvelope C)}
    (hTurn : (w.party p).turn (K.rnd p) = some (party, out)) :
    K.Inv stages calls result
      { w with party := Function.update w.party p party, flight := w.flight ++ out } := by
  obtain ⟨past, sent, hStanding, hKept⟩ := h.standing p hp
  obtain ⟨past', hStanding'⟩ := standing_turn D hp (h.handed p) hStanding hTurn
  refine ⟨?_, ?_, h.handed⟩
  · intro q hq
    by_cases hSame : q = p
    · -- the party that moved: one stage further, with what it sent in flight
      subst hSame
      refine ⟨past', sent ++ out, ?_, ?_⟩
      · show Standing K stages (calls q) (result q) q (w.handed q) past'
          (Function.update w.party q party q) _
        rwa [Function.update_self]
      · intro senv hMem
        rcases List.mem_append.mp hMem with hOld | hNew
        · exact (hKept senv hOld).imp (List.mem_append_left _) id
        · exact Or.inl (List.mem_append_right _ hNew)
    · -- another party: where it was
      obtain ⟨pastQ, sentQ, hStandingQ, hKeptQ⟩ := h.standing q hq
      refine ⟨pastQ, sentQ, ?_, fun senv hMem => (hKeptQ senv hMem).imp (List.mem_append_left _) id⟩
      show Standing K stages (calls q) (result q) q (w.handed q) pastQ
        (Function.update w.party p party q) sentQ
      rwa [Function.update_of_ne hSame]
  · intro senv hMem
    rcases List.mem_append.mp hMem with hOld | hNew
    · exact h.flight senv hOld
    · exact standing_sent hp hStanding' senv (List.mem_append_right _ hNew)

/-- A delivery moves one envelope from the network to its recipient. -/
theorem Inv.deliver {w : Net C κ α} (h : K.Inv stages calls result w) {i : Nat}
    {senv : SignedEnvelope C} (hAt : w.flight[i]? = some senv) {party : Party C κ α}
    (hReceive : (w.party senv.env.recipient).receive senv = some party) :
    K.Inv stages calls result
      { party := Function.update w.party senv.env.recipient party
        flight := w.flight.eraseIdx i
        handed := Function.update w.handed senv.env.recipient
          (w.handed senv.env.recipient ++ [senv]) } := by
  have hSent := h.flight senv (List.mem_of_getElem? hAt)
  have hHanded : K.HandedOnly stages senv.env.recipient
      (w.handed senv.env.recipient ++ [senv]) := by
    intro s hMem
    rcases List.mem_append.mp hMem with hOld | hNew
    · exact h.handed _ s hOld
    · rw [List.mem_singleton.mp hNew]
      exact ⟨hSent, rfl⟩
  -- what was in flight is still there or was just handed over
  have hMoved : ∀ s ∈ w.flight, s ∈ w.flight.eraseIdx i ∨
      s ∈ Function.update w.handed senv.env.recipient
        (w.handed senv.env.recipient ++ [senv]) s.env.recipient := by
    intro s hMem
    obtain ⟨j, hj⟩ := List.mem_iff_getElem?.mp hMem
    by_cases hIdx : j = i
    · rw [hIdx, hAt, Option.some.injEq] at hj
      right
      rw [← hj, Function.update_self]
      exact List.mem_append_right _ (List.mem_singleton_self _)
    · exact Or.inl (List.mem_eraseIdx_iff_getElem?.mpr ⟨j, hIdx, hj⟩)
  have hHeld : ∀ s q, s ∈ w.handed q → s ∈ Function.update w.handed senv.env.recipient
      (w.handed senv.env.recipient ++ [senv]) q := by
    intro s q hMem
    by_cases hSame : q = senv.env.recipient
    · rw [hSame, Function.update_self]
      exact List.mem_append_left _ (hSame ▸ hMem)
    · rwa [Function.update_of_ne hSame]
  refine ⟨?_, fun s hMem => h.flight s (List.mem_of_mem_eraseIdx hMem), ?_⟩
  · intro q hq
    obtain ⟨past, sent, hStanding, hKept⟩ := h.standing q hq
    have hKept' : ∀ s ∈ sent, s ∈ w.flight.eraseIdx i ∨
        s ∈ Function.update w.handed senv.env.recipient
          (w.handed senv.env.recipient ++ [senv]) s.env.recipient := by
      intro s hMem
      rcases hKept s hMem with hFlight | hDone
      · exact hMoved s hFlight
      · exact Or.inr (hHeld s _ hDone)
    -- only the recipient's stream is longer
    refine ⟨past, sent, ?_, hKept'⟩
    by_cases hSame : q = senv.env.recipient
    · subst hSame
      show Standing K stages _ _ _ (Function.update w.handed _ _ _) past
        (Function.update w.party _ _ _) sent
      rw [Function.update_self, Function.update_self]
      exact standing_receive D hHanded hStanding hReceive
    · show Standing K stages _ _ _ (Function.update w.handed _ _ q) past
        (Function.update w.party _ _ q) sent
      rwa [Function.update_of_ne hSame, Function.update_of_ne hSame]
  · intro q
    by_cases hSame : q = senv.env.recipient
    · rw [hSame]
      show K.HandedOnly stages _ (Function.update w.handed _ _ _)
      rwa [Function.update_self]
    · show K.HandedOnly stages q (Function.update w.handed _ _ q)
      rw [Function.update_of_ne hSame]
      exact h.handed q

/-- **Step lemma.** -/
theorem Inv.step {w w' : Net C κ α} (h : K.Inv stages calls result w) {m : Move}
    (hStep : K.step w m = some w') : K.Inv stages calls result w' := by
  cases m with
  | turn p =>
    simp only [Ceremony.step] at hStep
    split at hStep
    case isFalse => simp at hStep
    rename_i hp
    obtain ⟨⟨party, out⟩, hTurn, rfl⟩ := Option.map_eq_some_iff.mp hStep
    exact h.turn D hp hTurn
  | deliver i =>
    simp only [Ceremony.step, Option.bind_eq_some_iff] at hStep
    obtain ⟨senv, hAt, hMap⟩ := hStep
    obtain ⟨party, hReceive, rfl⟩ := Option.map_eq_some_iff.mp hMap
    exact h.deliver D hAt hReceive

/-- **Run lemma.** The invariant holds on every network a ceremony gets to. -/
theorem inv_of_reach {w : Net C κ α} (hReach : K.Reach w) : K.Inv stages calls result w :=
  Machine.Reach.invariant hReach (Inv.init D) fun _ _ _ h _ hStep => h.step D hStep

/-- A party with no move of its own has ended or misses something. -/
theorem standing_idle (hHanded : K.HandedOnly stages p handed)
    (h : Standing K stages (calls p) (result p) p handed past party sent)
    (hTurn : party.turn (K.rnd p) = none) :
    ((∃ r, party.node = .finished r) ∧ sent = stages.flatMap fun st => K.envelopes st p) ∨
    ∃ st rest ahead inbox next, stages = past ++ st :: rest ∧
      party.node = .receiving { K.exchange p with ahead } st.round st.expect inbox next ∧
      (K.exchange p).complete inbox st.expect = false ∧
      ¬ (K.exchange p).Supplied handed st.round st.expect ∧
      sent = (past ++ [st]).flatMap fun st => K.envelopes st p := by
  cases h with
  | @sending past st rest sent todo lo made left next hStages hSplit hCalls hLo hNext =>
    -- who is sending can always go on
    rcases todo with _ | ⟨senv, todo⟩
    · simp only [Party.turn, List.map_nil] at hTurn
      split at hTurn <;> simp at hTurn
    · simp [Party.turn] at hTurn
  | finished => exact Or.inl ⟨⟨_, rfl⟩, rfl⟩
  | @receiving past st rest ahead inbox made left next hStages hCaught hCalls hNext =>
    -- who is receiving waits for mail he has not been handed
    have hGap : (K.exchange p).complete inbox st.expect = false := by
      by_contra hComplete
      have hComplete' : ({ K.exchange p with ahead } : Exchange C).complete inbox st.expect =
          true := (Bool.not_eq_false _).mp hComplete
      simp [Party.turn, hComplete'] at hTurn
    refine Or.inr ⟨st, rest, ahead, inbox, next, hStages, rfl, hGap, ?_, rfl⟩
    intro hSupplied
    rw [(complete_iff_supplied (handed_wellFormed D hHanded) hCaught.2).mpr hSupplied] at hGap
    simp at hGap

omit D in
/-- A stage lies within any longer beginning of the list. -/
theorem mem_beginning {past' rest' : List Stage} {st' : Stage}
    (hStages : stages = past ++ st :: rest) (hStages' : stages = past' ++ st' :: rest')
    (hLength : past.length ≤ past'.length) : st ∈ past' ++ [st'] := by
  have hSplit : past ++ st :: rest = (past' ++ [st']) ++ rest' := by
    rw [← hStages, hStages', ← List.append_cons]
  have hGet : ((past' ++ [st']) ++ rest')[past.length]? = some st := by
    rw [← hSplit, List.getElem?_append_right (Nat.le_refl _), Nat.sub_self]
    rfl
  have hLt : past.length < (past' ++ [st']).length := by
    rw [List.length_append, List.length_singleton]
    omega
  rw [List.getElem?_append_left hLt] at hGet
  exact List.mem_of_getElem? hGet

/-- Whoever waits, waits for a stage in which everybody behind it has sent: if
what was sent to a waiting party has reached it, nobody waits. By induction on
the number of stages behind. -/
theorem all_finished {party : UInt8 → Party C κ α} {handed : UInt8 → List (SignedEnvelope C)}
    (hHanded : ∀ p, K.HandedOnly stages p (handed p))
    (hStandings : ∀ p ∈ K.participants, ∃ past sent,
      Standing K stages (calls p) (result p) p (handed p) past (party p) sent ∧
        ∀ senv ∈ sent, senv.env.recipient ∈ K.participants →
          (∀ r, (party senv.env.recipient).node ≠ .finished r) →
          senv ∈ handed senv.env.recipient)
    (hIdle : ∀ p ∈ K.participants, (party p).turn (K.rnd p) = none) (n : Nat) :
    ∀ p ∈ K.participants, ∀ past sent,
      Standing K stages (calls p) (result p) p (handed p) past (party p) sent →
      past.length = n → ∃ r, (party p).node = .finished r := by
  induction n using Nat.strong_induction_on with
  | _ n ih =>
    intro p hp past sent hStanding hLength
    rcases standing_idle D (hHanded p) hStanding (hIdle p hp) with ⟨hFinished, -⟩ |
      ⟨st, rest, ahead, inbox, next, hStages, hNode, -, hMissing, -⟩
    · exact hFinished
    -- it waits for somebody's envelope of its stage
    exfalso
    have hSt : st ∈ stages := by
      rw [hStages]
      exact List.mem_append_right _ List.mem_cons_self
    unfold Exchange.Supplied at hMissing
    push Not at hMissing
    obtain ⟨k, hWants, q, hPeer, hMail⟩ := hMissing
    obtain ⟨hq, hNe⟩ := mem_peers.mp hPeer
    obtain ⟨senv, hEnv, hTo, hKind⟩ := envelope_exists D hSt hp hq hNe hWants
    obtain ⟨pastQ, sentQ, hStandingQ, hReached⟩ := hStandings q hq
    -- `q` is not behind `p`, so its envelopes of the stage are out
    have hSent : senv ∈ sentQ := by
      rcases standing_idle D (hHanded q) hStandingQ (hIdle q hq) with ⟨-, rfl⟩ |
        ⟨stQ, restQ, aheadQ, inboxQ, nextQ, hStagesQ, hNodeQ, -, -, rfl⟩
      · exact List.mem_flatMap.mpr ⟨st, hSt, hEnv⟩
      · have hLe : past.length ≤ pastQ.length := by
          by_contra hBehind
          obtain ⟨r, hFinished⟩ := ih pastQ.length (by omega) q hq pastQ _ hStandingQ rfl
          rw [hNodeQ] at hFinished
          simp at hFinished
        exact List.mem_flatMap.mpr ⟨st, mem_beginning hStages hStagesQ hLe, hEnv⟩
    have hHere : senv ∈ handed p := by
      have hAt := hReached senv hSent
      rw [hTo] at hAt
      exact hAt hp fun r => by simp [hNode]
    have hHonest := honest_of_mem D hq hEnv
    have hConcerns : (K.exchange p).concerns senv.env = true := hTo ▸ hHonest.concerns
    have hIn : senv.env ∈ (K.exchange p).mail (handed p) q st.round k :=
      List.mem_map.mpr ⟨senv, List.mem_filter.mpr ⟨hHere, isMail_iff.mpr
        ⟨hConcerns, hHonest.sender, hHonest.round, hKind⟩⟩, rfl⟩
    rw [hMail] at hIn
    simp at hIn

/-- A party that waits reads what it is handed. -/
theorem receive_isSome (hHanded : K.HandedOnly stages p handed)
    (h : Standing K stages (calls p) (result p) p handed past party sent)
    (hTurn : party.turn (K.rnd p) = none) (hWaits : ∀ r, party.node ≠ .finished r)
    (senv : SignedEnvelope C) : (party.receive senv).isSome = true := by
  rcases standing_idle D hHanded h hTurn with ⟨⟨r, hFinished⟩, -⟩ |
    ⟨st, rest, ahead, inbox, next, -, hNode, hGap, -⟩
  · exact absurd hFinished (hWaits r)
  · have hGap' : ¬ ({ K.exchange p with ahead } : Exchange C).complete inbox st.expect = true := by
      show ¬ (K.exchange p).complete inbox st.expect = true
      rw [hGap]
      exact Bool.false_ne_true
    simp only [Party.receive, hNode, if_neg hGap']
    split <;> rfl

/-- In a network where nothing can happen nobody waits. -/
theorem stuck_finished {w : Net C κ α} (h : K.Inv stages calls result w)
    (hStuck : ∀ m, K.step w m = none) :
    ∀ p ∈ K.participants, ∃ r, (w.party p).node = .finished r := by
  -- no party can take a turn
  have hIdle : ∀ p ∈ K.participants, (w.party p).turn (K.rnd p) = none := by
    intro p hp
    have hNone := hStuck (.turn p)
    simp only [Ceremony.step, if_pos hp, Option.map_eq_none_iff] at hNone
    exact hNone
  -- no envelope is in flight to a party that still reads, so all of them arrived
  have hReached : ∀ p ∈ K.participants, ∃ past sent,
      Standing K stages (calls p) (result p) p (w.handed p) past (w.party p) sent ∧
        ∀ senv ∈ sent, senv.env.recipient ∈ K.participants →
          (∀ r, (w.party senv.env.recipient).node ≠ .finished r) →
          senv ∈ w.handed senv.env.recipient := by
    intro p hp
    obtain ⟨past, sent, hStanding, hKept⟩ := h.standing p hp
    refine ⟨past, sent, hStanding, ?_⟩
    intro senv hSent hTo hWaits
    rcases hKept senv hSent with hFlight | hHere
    · obtain ⟨i, hi⟩ := List.mem_iff_getElem?.mp hFlight
      have hNone := hStuck (.deliver i)
      simp only [Ceremony.step, hi, Option.bind_some, Option.map_eq_none_iff] at hNone
      obtain ⟨pastTo, sentTo, hStandingTo, -⟩ := h.standing _ hTo
      have hSome := receive_isSome D (h.handed _) hStandingTo (hIdle _ hTo) hWaits senv
      simp [hNone] at hSome
    · exact hHere
  intro p hp
  obtain ⟨past, sent, hStanding, -⟩ := h.standing p hp
  exact all_finished D h.handed hReached hIdle past.length p hp past sent hStanding rfl

omit D in
/-- What a standing party has called and how it ended. -/
theorem standing_calls (h : Standing K stages (calls p) (result p) p handed past party sent) :
    party.calls <+: calls p ∧
      ∀ r, party.node = .finished r → party.calls = calls p ∧ r = result p := by
  cases h with
  | sending _ _ hCalls _ _ => exact ⟨⟨_, hCalls.symm⟩, by simp⟩
  | receiving _ _ hCalls _ => exact ⟨⟨_, hCalls.symm⟩, by simp⟩
  | finished =>
    refine ⟨List.prefix_refl _, ?_⟩
    intro r hNode
    exact ⟨rfl, (Node.finished.inj hNode).symm⟩

end

/-- **The network computes what direct routing computes.** Whatever the order of
delivery, every party makes the calls of the direct routing, in order and with
its arguments, and ends as it does; and while a party is unfinished something
can happen. -/
theorem ceremony_computes {C : Crypto} {κ α : Type} {K : Ceremony C κ α} {stages : List Stage}
    {calls : UInt8 → List κ} {result : UInt8 → Except Halt α} (D : K.Direct stages calls result) :
    K.Computes calls result := by
  intro w hReach
  have hInv := inv_of_reach D hReach
  constructor
  · intro p hp
    obtain ⟨past, sent, hStanding, -⟩ := hInv.standing p hp
    exact standing_calls hStanding
  · intro hStuck
    exact stuck_finished D hInv hStuck

end Ceremony

end Sovra.Mpc
