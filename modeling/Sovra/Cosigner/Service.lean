import Sovra.Cosigner.Api
import Sovra.Mpc.Authenticity

/-!
# Sovra — the cosigner as a service

The handlers of `Cosigner.Api` over one shared directory and one op lock, under
any interleaving of requests, awaits and dropped handlers. Whoever sends the
requests chooses them freely; the hub, the peers, the clock and the file system
choose how every await, read and save goes.

* `service_tryLock` — the op lock is taken only when free and always given back.
* `sign_only_permitted` — every dial and every run of a sign handler is for a
  transaction this party's policy permits; anything else is refused at once.
-/

namespace Sovra.Cosigner

open Lib Mpc State Ipc

/-- What an orchestrator can ask. -/
inductive Request
  | dkg (req : StartDkgRequest)
  | sign (req : StartSignRequest)
  | refresh (req : StartRefreshRequest)
  | pubkey
  | signer
deriving DecidableEq

section

variable (A : Eth.Alloy) {C : Crypto} (st : CosignerState C)
  (publicKeyOf : KeyShare → Except MpcError PubkeySec1)

/-- The end of a turn of a handler that owns the op lock: the guard is dropped
with the answer and kept across an await. -/
def guarded (s : OpState) (next : Except CosignerError (Reply ⊕ Pending C)) :
    Turn OpState (Pending C) Answer Effect :=
  match next with
  | .error e => .answer { s with op := false } (.error e)
  | .ok (.inl reply) => .answer { s with op := false } (.ok reply)
  | .ok (.inr p) => .await { s with op := true } p.effect p

/-- `try_lock`, then the handler's first turn. -/
def tryLock (s : OpState) (first : Except CosignerError (Reply ⊕ Pending C)) :
    Turn OpState (Pending C) Answer Effect :=
  if s.op then .answer s (.error .Busy) else guarded s first

/-- A request's first turn. The probes take no lock. -/
def enter (s : OpState) (req : Request) (faults : Faults) :
    Turn OpState (Pending C) Answer Effect :=
  match req with
  | .dkg req => tryLock s (dkg st s.dir faults req)
  | .sign req => tryLock s (sign A st s.dir faults req)
  | .refresh req => tryLock s (refresh st s.dir faults req)
  | .pubkey => .answer s (pubkey st publicKeyOf s.dir faults)
  | .signer => .answer s (signer st s.dir faults)

/-- What a handler does with the outcome it waited for. -/
def resume (s : OpState) (p : Pending C) (out : Outcome) :
    Option (Turn OpState (Pending C) Answer Effect) :=
  match p, out with
  | .dkgDial ctx, .dialed result => some (guarded s (afterDial result (.dkgRun ctx)))
  | .refreshDial req ctx oldShare, .dialed result =>
    some (guarded s (afterDial result (.refreshRun req ctx oldShare)))
  | .signDial job ctx digest, .dialed result =>
    some (guarded s (afterDial result (.signRun job ctx digest)))
  | .dkgRun _, .shard result nonce stop | .refreshRun _ _ _, .shard result nonce stop =>
    let (s, next) := saveResult st s result nonce stop
    some (guarded s next)
  | .signRun job _ _, .parts result => some (guarded s (afterSign A st job result))
  | _, _ => none

/-- One cosigner: a dropped handler drops its guard. -/
def service : Service OpState Request Faults (Pending C) Outcome Answer Effect where
  enter := enter A st publicKeyOf
  resume := resume A st
  drop s _ := { s with op := false }

end

section

variable {A : Eth.Alloy} {C : Crypto} {st : CosignerState C}
  {publicKeyOf : KeyShare → Except MpcError PubkeySec1}

-- ---------------------------------------------------------------------------
-- The op lock
-- ---------------------------------------------------------------------------

/-- The guard is kept exactly while the handler waits. -/
theorem guarded_op (s : OpState) (next : Except CosignerError (Reply ⊕ Pending C)) :
    (guarded s next).shared.op = Service.owning (fun _ => true) (guarded s next) := by
  rcases next with e | reply | p <;> rfl

/-- Whoever waits has found the lock free and has it; whoever does not leaves it as
it was. -/
theorem tryLock_op (s : OpState) (first : Except CosignerError (Reply ⊕ Pending C)) :
    if Service.owning (fun _ => true) (tryLock s first) then
      s.op = false ∧ (tryLock s first).shared.op = true
    else (tryLock s first).shared.op = s.op := by
  -- a free lock is the handler's, a held one somebody else's
  rcases hOp : s.op with _ | _
  · have hLock : tryLock s first = guarded s first := by simp [tryLock, hOp]
    rw [hLock, guarded_op]
    by_cases hOwning : Service.owning (fun _ => true) (guarded s first) = true
    · simp [hOwning]
    · simp [Bool.not_eq_true _ ▸ hOwning]
  · have hLock : tryLock s first = .answer s (.error .Busy) := by simp [tryLock, hOp]
    rw [hLock]
    simp [Service.owning, Turn.answer, hOp]

/-- A handler that waits owns the lock it took free; it gives it back when it
answers and when it is dropped. -/
theorem service_tryLock :
    (service A st publicKeyOf).TryLock OpState.op fun _ => true where
  enter s req faults := by
    have hProbe : ∀ answer : Answer,
        if Service.owning (fun _ => true) (.answer s answer : Turn OpState (Pending C) Answer Effect)
        then s.op = false ∧ s.op = true else s.op = s.op := by
      intro answer
      simp [Service.owning, Turn.answer]
    rcases req with req | req | req | _ | _
    · exact tryLock_op s _
    · exact tryLock_op s _
    · exact tryLock_op s _
    · exact hProbe _
    · exact hProbe _
  resume_owner s p out t _ hTurn _ := by
    change resume A st s p out = some t at hTurn
    unfold resume at hTurn
    split at hTurn <;> simp only [Option.some.injEq, reduceCtorEq] at hTurn <;>
      rw [← hTurn] <;> exact guarded_op _ _
  resume_other s p out t hp _ := by simp at hp
  drop_owner s p _ := rfl
  drop_other s p hp := by simp at hp

-- ---------------------------------------------------------------------------
-- What a sign handler does
-- ---------------------------------------------------------------------------

/-- A suspended sign handler has vetted `tx` and runs its one digest. -/
def Vetted (A : Eth.Alloy) (req : StartSignRequest) (tx : Eth.EthTx) (p : Pending C) : Prop :=
  ∃ share ctx, ctx.inst = subInstance A.keccak256 req.inst 0 ∧
    (p = .signDial ⟨req, share, [tx.signatureHash A], []⟩ ctx (tx.signatureHash A) ∨
      p = .signRun ⟨req, share, [tx.signatureHash A], []⟩ ctx (tx.signatureHash A))

/-- What a sign handler for `req` may do to the outside, having vetted `tx`. -/
def SignEffect (A : Eth.Alloy) (req : StartSignRequest) (tx : Eth.EthTx) (e : Effect) : Prop :=
  e = .dial (subInstance A.keccak256 req.inst 0) ∨
    e = .sign (subInstance A.keccak256 req.inst 0) (tx.signatureHash A) req.participants

/-- What it waits for is what it may do. -/
theorem Vetted.effect {req : StartSignRequest} {tx : Eth.EthTx} {p : Pending C}
    (h : Vetted A req tx p) : SignEffect A req tx p.effect := by
  obtain ⟨share, ctx, hInst, rfl | rfl⟩ := h
  · exact Or.inl (by rw [← hInst]; rfl)
  · exact Or.inr (by rw [← hInst]; rfl)

/-- Of a sign request's handler: suspended it has vetted a signable
transaction. Nothing is asked of the other handlers. -/
def SignTask (A : Eth.Alloy) (st : CosignerState C) (req : Request) (p : Pending C) : Prop :=
  ∀ r, req = .sign r → ∃ tx, Signable A st r tx ∧ Vetted A r tx p

/-- What it does is for a transaction it may sign. -/
def SignAct (A : Eth.Alloy) (st : CosignerState C) (req : Request) (e : Effect) : Prop :=
  ∀ r, req = .sign r → ∃ tx, Signable A st r tx ∧ SignEffect A r tx e

/-- It only succeeds for a signable transaction. -/
def SignAnswer (A : Eth.Alloy) (st : CosignerState C) (req : Request) (a : Answer) : Prop :=
  ∀ r reply, req = .sign r → a = .ok reply → ∃ tx, Signable A st r tx

/-- The terms of the sign handler on one turn. -/
abbrev SignTurn (A : Eth.Alloy) (st : CosignerState C) (req : Request)
    (t : Turn OpState (Pending C) Answer Effect) : Prop :=
  Service.Meets (SignTask A st req) (SignAct A st req) (SignAnswer A st req) t

/-- A turn that answers an error meets every promise. -/
theorem error_meets {req : Request} {s : OpState} {e : CosignerError} :
    SignTurn A st req (.answer s (.error e)) := by
  refine ⟨by simp [Turn.answer], by simp [Turn.answer], ?_⟩
  intro a hNext r reply hReq hOk
  rw [← Sum.inl.inj hNext] at hOk
  simp at hOk

/-- A probe is no sign request. -/
theorem probe_meets {req : Request} {s : OpState} {a : Answer} (hReq : ∀ r, req ≠ .sign r) :
    SignTurn A st req (.answer s a) := by
  refine ⟨by simp [Turn.answer], by simp [Turn.answer], ?_⟩
  intro b _ r reply hSign
  exact absurd hSign (hReq r)

/-- A turn that owns the lock meets the terms if what it goes on with is for a
signable transaction. -/
theorem guarded_meets {req : Request} {s : OpState}
    {next : Except CosignerError (Reply ⊕ Pending C)}
    (h : ∀ n r, next = .ok n → req = .sign r →
      ∃ tx, Signable A st r tx ∧ ∀ p, n = .inr p → Vetted A r tx p) :
    SignTurn A st req (guarded s next) := by
  rcases next with e | reply | p
  · exact error_meets
  · refine ⟨by simp [guarded, Turn.answer], by simp [guarded, Turn.answer], ?_⟩
    intro a _ r reply' hReq _
    obtain ⟨tx, hSignable, -⟩ := h _ r rfl hReq
    exact ⟨tx, hSignable⟩
  · refine ⟨?_, ?_, by simp [guarded, Turn.await]⟩
    · intro q hNext r hReq
      obtain ⟨tx, hSignable, hVetted⟩ := h _ r rfl hReq
      rw [← Sum.inr.inj hNext]
      exact ⟨tx, hSignable, hVetted p rfl⟩
    · intro e hMem r hReq
      obtain ⟨tx, hSignable, hVetted⟩ := h _ r rfl hReq
      rw [List.mem_singleton.mp hMem]
      exact ⟨tx, hSignable, (hVetted p rfl).effect⟩

/-- A turn that tries the lock meets what the handler's first turn meets. -/
theorem tryLock_meets {req : Request} {s : OpState}
    {first : Except CosignerError (Reply ⊕ Pending C)}
    (h : ∀ n r, first = .ok n → req = .sign r →
      ∃ tx, Signable A st r tx ∧ ∀ p, n = .inr p → Vetted A r tx p) :
    SignTurn A st req (tryLock s first) := by
  unfold tryLock
  split
  · exact error_meets
  · exact guarded_meets h

/-- The first turn vets before it dials. -/
theorem enter_meets (s : OpState) (req : Request) (faults : Faults) :
    SignTurn A st req ((service A st publicKeyOf).enter s req faults) := by
  match req with
  | .dkg req => exact tryLock_meets fun n r _ hReq => nomatch hReq
  | .refresh req => exact tryLock_meets fun n r _ hReq => nomatch hReq
  | .pubkey => exact probe_meets fun r hReq => nomatch hReq
  | .signer => exact probe_meets fun r hReq => nomatch hReq
  | .sign req =>
    refine tryLock_meets ?_
    intro n r hFirst hReq
    obtain ⟨tx, share, ctx, hSignable, hInst, rfl⟩ := sign_ok hFirst
    rw [Request.sign.injEq] at hReq
    subst hReq
    refine ⟨tx, hSignable, ?_⟩
    intro p hNext
    exact ⟨share, ctx, hInst, Or.inl (Sum.inr.inj hNext).symm⟩

/-- After the one digest has run there is nothing left to dial for. -/
theorem afterSign_done {job : SignJob} {result : RunEnd EcdsaParts} {p : Pending C}
    {digest : B256} (hDigests : job.digests = [digest]) (hSigs : job.signatures = []) :
    afterSign A st job result ≠ .ok (.inr p) := by
  intro h
  simp only [afterSign, bind_eq_ok, signNext, hDigests, hSigs] at h
  obtain ⟨parts, -, hNext⟩ := h
  simp at hNext

/-- Later turns go on with what was vetted; there is one digest, so nothing follows
its run. -/
theorem resume_meets (s : OpState) (req : Request) (p : Pending C) (out : Outcome)
    (t : Turn OpState (Pending C) Answer Effect) (hTask : SignTask A st req p)
    (hTurn : (service A st publicKeyOf).resume s p out = some t) : SignTurn A st req t := by
  change resume A st s p out = some t at hTurn
  unfold resume at hTurn
  split at hTurn <;> simp only [Option.some.injEq, reduceCtorEq] at hTurn <;> rw [← hTurn] <;>
    refine guarded_meets ?_ <;> intro n r hNext hReq <;>
    obtain ⟨tx, hSignable, share, ctx', hInst, hPend⟩ := hTask r hReq
  · -- the other handlers' awaits are no sign request's
    simp at hPend
  · simp at hPend
  · rename_i job ctx digest result
    -- the dial went through: the run of the vetted digest
    simp only [Pending.signDial.injEq, reduceCtorEq, or_false] at hPend
    obtain ⟨rfl, rfl, rfl⟩ := hPend
    simp only [afterDial, bind_eq_ok, mapError_eq_ok, pure_eq_ok] at hNext
    obtain ⟨-, -, rfl⟩ := hNext
    refine ⟨tx, hSignable, ?_⟩
    intro q hq
    exact ⟨share, ctx, hInst, Or.inr (Sum.inr.inj hq).symm⟩
  · simp at hPend
  · simp at hPend
  · -- the run ended: its digest was the only one
    simp only [Pending.signRun.injEq, reduceCtorEq, false_or] at hPend
    obtain ⟨rfl, rfl, rfl⟩ := hPend
    refine ⟨tx, hSignable, ?_⟩
    rintro q rfl
    exact absurd hNext (afterSign_done rfl rfl)

/-- A sign request is only answered with signatures if it is signable. -/
theorem sign_answer {dir : ShardDir} {w : World OpState Request (Pending C) Answer Effect}
    (hReach : (service A st publicKeyOf).Reach (World.init ⟨dir, false⟩) w) {id : Nat}
    {req : StartSignRequest} {reply : Reply} (hReq : w.requests id = some (.sign req))
    (hAns : w.answers id = some (.ok reply)) : ∃ tx, Signable A st req tx := by
  obtain ⟨req', hReq', hAnswer⟩ := (hReach.origin enter_meets resume_meets).answered id _ hAns
  rw [hReq, Option.some.injEq] at hReq'
  exact hAnswer req reply hReq'.symm rfl

/-- A request that no transaction makes signable is refused in its first turn:
nothing is done to the outside, the directory and the lock are as they were. -/
theorem enter_refused (publicKeyOf : KeyShare → Except MpcError PubkeySec1) (s : OpState)
    {req : StartSignRequest} (faults : Faults) (h : ∀ tx, ¬ Signable A st req tx) :
    ∃ e, (service A st publicKeyOf).enter s (.sign req) faults = .answer s (.error e) := by
  show ∃ e, tryLock s (sign A st s.dir faults req) = .answer s (.error e)
  -- refused by a check, or because the lock is held
  rcases hOp : s.op with _ | _
  · rcases hFirst : sign A st s.dir faults req with e | next
    · refine ⟨e, ?_⟩
      obtain ⟨dir, op⟩ := s
      rw [show op = false from hOp]
      rfl
    · obtain ⟨tx, -, -, hSignable, -⟩ := sign_ok hFirst
      exact absurd hSignable (h tx)
  · exact ⟨.Busy, by simp [tryLock, hOp]⟩

/-- **A cosigner signs only what its own policy permits.** In every run, a dial
or a run by the handler of a sign request is for a transaction its bytes decode
to, valid, permitted, for the asked subset, and under that transaction's own
signature hash. A request for which no transaction is so is answered with an
error in the turn that receives it: nothing is dialed, the directory is as it
was, and the op lock is free unless some other request's handler owns it. -/
theorem sign_only_permitted {dir : ShardDir} {w : World OpState Request (Pending C) Answer Effect}
    (hReach : (service A st publicKeyOf).Reach (World.init ⟨dir, false⟩) w) :
    (∀ id req e, w.requests id = some (.sign req) → (id, e) ∈ w.log →
      ∃ tx, Signable A st req tx ∧ SignEffect A req tx e) ∧
    (∀ id req faults, w.requests id = none → (∀ tx, ¬ Signable A st req tx) →
      ∃ w' e, (service A st publicKeyOf).step w (.receive id (.sign req) faults) = some w' ∧
        w'.answers id = some (.error e) ∧ w'.log = w.log ∧ w'.shared.dir = w.shared.dir ∧
        w'.tasks id = none ∧
        (w'.shared.op = true → ∃ other, other ≠ id ∧ (w'.tasks other).isSome = true)) := by
  have hOrigin := hReach.origin enter_meets resume_meets
  have hOwned := (service_tryLock.owner rfl hReach).1
  constructor
  · -- every effect is one that some turn of this request made
    intro id req e hReq hEff
    obtain ⟨req', hReq', hAct⟩ := hOrigin.effect id e hEff
    rw [hReq, Option.some.injEq] at hReq'
    exact hAct req hReq'.symm
  · -- a request that is not signable ends in its first turn
    intro id req faults hFresh hNone
    obtain ⟨e, hTurn⟩ := enter_refused publicKeyOf w.shared faults hNone
    refine ⟨(w.setRequest id (.sign req)).settle id (.answer w.shared (.error e)), e, ?_, ?_, ?_,
      rfl, ?_, ?_⟩
    · rw [Service.step, hFresh, hTurn]
    · exact Function.update_self id _ w.answers
    · simp [World.settle_log, Turn.answer]
    · exact Function.update_self id _ w.tasks
    · intro hOp
      obtain ⟨other, p, hTask, -⟩ := hOwned.exists_iff.mp hOp
      have hNe : other ≠ id := by
        rintro rfl
        obtain ⟨r, hReq, -⟩ := hOrigin.task other p hTask
        simp [hFresh] at hReq
      refine ⟨other, hNe, ?_⟩
      rw [World.settle_tasks, Function.update_of_ne hNe, World.setRequest_tasks, hTask]
      rfl

end

-- ---------------------------------------------------------------------------
-- One transfer
-- ---------------------------------------------------------------------------

namespace Sample

/-- Two gwei at most, to one address on Sepolia, no calldata. -/
def policy : Policy where
  allowedChainIds := [11155111]
  allowedRecipients := .List [.repeatByte 20 0x11]
  maxValueWei := 2000000000
  allowCalldata := false
  allowContractCreation := false

/-- Party 0 of a 2-of-3. -/
def state : CosignerState Symbolic.crypto where
  partyId := 0
  signingKey := (10 : UInt8)
  roster := some [(10 : UInt8), (11 : UInt8), (12 : UInt8)]
  threshold := 2
  sealer := passthrough
  policy := policy

def dir : ShardDir := ⟨some ⟨activeSignerId, Eth.Sample.pubkey⟩, some [1], none, none⟩

/-- The sample transfer, for the given parties. -/
def request (participants : List UInt8) : StartSignRequest where
  inst := .repeatByte 32 0x2a
  network := .Ethereum
  unsignedTransaction := Eth.encodeUnsigned Eth.Sample.alloy (.Eip1559 Eth.Sample.tx)
  participants

def cosigner : Service OpState Request Faults (Pending Symbolic.crypto) Outcome Answer Effect :=
  service Eth.Sample.alloy state fun _ => .ok Eth.Sample.pubkey

def events : List (Event Request Faults Outcome) :=
  [.receive 0 (.sign (request [0, 2])) ⟨none, none⟩, .resume 0 (.dialed (.ok ())),
    .resume 0 (.parts (some (.ok ⟨Eth.Sample.lowS.r, Eth.Sample.lowS.s, Eth.Sample.lowS.v⟩)))]

theorem events_run : (cosigner.machine.run (World.init ⟨dir, false⟩) events).isSome = true := by
  decide +kernel

/-- The cosigner after it signed the transfer. -/
def world : World OpState Request (Pending Symbolic.crypto) Answer Effect :=
  (cosigner.machine.run (World.init ⟨dir, false⟩) events).get events_run

end Sample

/-- The run on the transfer's own hash was permitted; a subset out of order is
refused. -/
theorem sign_only_permitted_transfer :
    (∃ tx, Signable Eth.Sample.alloy Sample.state (Sample.request [0, 2]) tx ∧
      SignEffect Eth.Sample.alloy (Sample.request [0, 2]) tx
        (.sign (.repeatByte 32 0) Eth.Sample.signingHash [0, 2])) ∧
    ∃ w' e, Sample.cosigner.step Sample.world
        (.receive 1 (.sign (Sample.request [2, 0])) ⟨none, none⟩) = some w' ∧
      w'.answers 1 = some (.error e) ∧ w'.log = Sample.world.log := by
  have hRun : Sample.cosigner.Reach (World.init ⟨Sample.dir, false⟩) Sample.world :=
    Machine.reach_of_run (Option.some_get Sample.events_run).symm
  obtain ⟨hActs, hRefused⟩ := sign_only_permitted hRun
  refine ⟨hActs 0 _ _ (by decide +kernel) (by decide +kernel), ?_⟩
  have hNone : ∀ tx, ¬ Signable Eth.Sample.alloy Sample.state (Sample.request [2, 0]) tx := by
    intro tx h
    have hAscending : [(2 : UInt8), 0].Pairwise (· < ·) := h.subset.ascending
    exact absurd hAscending (by decide)
  obtain ⟨w', e, hStep, hAnswer, hLog, -⟩ := hRefused 1 _ ⟨none, none⟩ (by decide +kernel) hNone
  exact ⟨w', e, hStep, hAnswer, hLog⟩

end Sovra.Cosigner
