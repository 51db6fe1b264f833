import Sovra.Api.Handlers
import Sovra.Api.Relay

/-!
# Sovra — what an error answer leaves behind

One request to the API process, alone, with everything the backend and the node
answer it. The handlers of `sign`, `recover`, `prepare` and `broadcast` fail
before they write or do not write; `dkg_create` writes the key and then derives
the addresses of its response, which fails off the curve.

* `errors_untouched_iff` — an error answer leaves key and cache alone, unless a
  first key generation returned no curve point.
-/

namespace Sovra.Api

open Lib Mpc

/-- A request with the ends of its awaits. -/
inductive Call
  | signer (req : Request) (outs : List Outcome)
  | node (req : RelayRequest) (outs : List RelayOutcome)

/-- The error an answer carries. -/
def errorOf {ε α : Type} : Except ε α → Option ε
  | .ok _ => none
  | .error e => some e

section

variable (A : Eth.Alloy) (timeout : Nat) (s : SignerCell)

/-- The cell after the request, and the error it was answered with, once it was
answered. -/
def Call.run : Call → Option (SignerCell × Option RelayError)
  | .signer req outs => ((service A).alone (enter A s req ()) outs).map fun (s', answer) =>
      (s', (errorOf answer).map .Signer)
  | .node req outs => ((relay A timeout).alone (relayEnter A s req ()) outs).map
      fun (s', answer) => (s', errorOf answer)

/-- An error answer to the call changes neither the key nor the cache. -/
def Untouched (call : Call) : Prop :=
  ∀ s' e, call.run A timeout s = some (s', some e) → s'.active = s.active ∧ s'.signed = s.signed

/-- The first key generation is answered with bytes that are no curve point. -/
def OffCurve (call : Call) : Prop :=
  s.op = false ∧ s.active = none ∧ ∃ publicKey outs,
    call = .signer .dkgCreate (.tick :: .key (.ok publicKey) :: .tick :: outs) ∧
      A.addressOfPubkey publicKey = none

end

variable {A : Eth.Alloy} {timeout : Nat} {s₀ : SignerCell}

-- ---------------------------------------------------------------------------
-- Sign and recover
-- ---------------------------------------------------------------------------

/-- Nothing of the state a caller can see has changed. -/
def Clean (s₀ s : SignerCell) : Prop := s.active = s₀.active ∧ s.signed = s₀.signed

/-- The points of `dkg_create`. -/
def Pending.generates : Pending → Bool
  | .dkgCheck | .dkgBackend | .dkgWrite _ => true
  | _ => false

/-- Outside `dkg_create`: the state is clean, except behind the cache write, from
where only the response is left to return. -/
def Quiet (s₀ : SignerCell) (t : ApiTurn) : Prop :=
  (∀ p, t.next = .inr p → p.generates = false) ∧
    (Clean s₀ t.shared ∨ (∃ r, t.next = .inr (.signReturn r)) ∨ ∃ a, t.next = .inl (.ok a))

/-- A turn that answers on a clean state is quiet. -/
theorem quiet_answer {s : SignerCell} {answer : Answer} (h : Clean s₀ s) :
    Quiet s₀ (.answer s answer) := by
  refine ⟨fun p hNext => ?_, Or.inl h⟩
  simp [Turn.answer] at hNext

/-- A turn that suspends outside `dkg_create`, on a clean state, is quiet. -/
theorem quiet_suspend {s : SignerCell} {effects : List Effect} {p : Pending}
    (hp : p.generates = false) (h : Clean s₀ s) : Quiet s₀ ⟨s, effects, .inr p⟩ := by
  refine ⟨fun q hNext => ?_, Or.inl h⟩
  rw [← Sum.inr.inj hNext]
  exact hp

/-- Trying the lock on a clean state is quiet. -/
theorem quiet_tryLock {s : SignerCell} {p : Pending} (hp : p.generates = false)
    (h : Clean s₀ s) : Quiet s₀ (tryLock s p) := by
  unfold tryLock
  split
  · exact quiet_answer h
  · exact quiet_suspend hp h

/-- The first turn of every handler but `dkg_create` is quiet. -/
theorem quiet_enter {req : Request} (hReq : req ≠ .dkgCreate) : Quiet s₀ (enter A s₀ req ()) := by
  have hSame : Clean s₀ s₀ := ⟨rfl, rfl⟩
  rcases req with _ | _ | _ | ⟨network, unsigned⟩
  · exact absurd rfl hReq
  · exact quiet_answer hSame
  · exact quiet_tryLock rfl hSame
  · rcases network with _
    show Quiet s₀ (signVia A s₀ unsigned)
    unfold signVia
    split
    · exact quiet_answer hSame
    split
    · exact quiet_answer hSame
    split
    · exact quiet_answer hSame
    · exact quiet_suspend rfl hSame

/-- One turn of `recover` or `sign`. -/
theorem quiet_resume {t t' : ApiTurn} {p : Pending} {out : Outcome} (h : Quiet s₀ t)
    (hNext : t.next = .inr p) (hResume : resume A t.shared p out = some t') : Quiet s₀ t' := by
  obtain ⟨hGenerates, hState⟩ := h
  have hp := hGenerates p hNext
  have hClean : (∀ r, p ≠ .signReturn r) → Clean s₀ t.shared := by
    intro hNot
    rcases hState with hClean | ⟨r, hReturn⟩ | ⟨a, hAnswer⟩
    · exact hClean
    · exact absurd (Sum.inr.inj (hNext.symm.trans hReturn)) (hNot r)
    · simp [hAnswer] at hNext
  -- the three awaits of `dkg_create` do not occur; from the others on only the cache is
  -- written
  unfold resume at hResume
  split at hResume <;> simp only [Option.some.injEq, reduceCtorEq] at hResume <;> subst hResume
  · simp [Pending.generates] at hp
  · simp [Pending.generates] at hp
  · simp [Pending.generates] at hp
  · simp [Pending.generates] at hp
  · split
    · exact quiet_answer (hClean (by simp))
    · exact quiet_suspend rfl (hClean (by simp))
  · exact quiet_answer (hClean (by simp))
  · split
    · exact quiet_answer (hClean (by simp))
    · exact quiet_answer (hClean (by simp))
  · exact quiet_tryLock rfl (hClean (by simp))
  · split
    · exact quiet_answer (hClean (by simp))
    · exact quiet_suspend rfl (hClean (by simp))
  · exact quiet_answer (hClean (by simp))
  · split
    · exact quiet_answer (hClean (by simp))
    · exact quiet_suspend rfl (hClean (by simp))
  · -- the cache write, behind which only the response is left to return
    rename_i job response
    refine ⟨fun q hq => ?_, Or.inr (Or.inl ⟨response, rfl⟩)⟩
    rw [← Sum.inr.inj hq]
    rfl
  · rename_i response
    refine ⟨fun q hq => ?_, Or.inr (Or.inr ⟨_, rfl⟩)⟩
    simp [finish, Turn.answer] at hq

/-- An error of `recover` or `sign` leaves the state clean: what is cached is
answered. -/
theorem untouched_signer {req : Request} {outs : List Outcome} (hReq : req ≠ .dkgCreate) :
    Untouched A timeout s₀ (.signer req outs) := by
  intro s' e hRun
  obtain ⟨⟨s₁, answer⟩, hAlone, hEq⟩ := Option.map_eq_some_iff.mp hRun
  obtain ⟨rfl, hError⟩ := Prod.mk.inj hEq
  obtain ⟨t, ⟨-, hState⟩, rfl, hNext⟩ :=
    Service.alone_induct hAlone (quiet_enter hReq) fun _ _ _ _ h hp hStep => quiet_resume h hp hStep
  rcases hState with hClean | ⟨r, hReturn⟩ | ⟨a, hAnswer⟩
  · exact hClean
  · simp [hReturn] at hNext
  · rw [hNext, Sum.inl.injEq] at hAnswer
    simp [hAnswer, errorOf] at hError

-- ---------------------------------------------------------------------------
-- Prepare and broadcast
-- ---------------------------------------------------------------------------

/-- `prepare` and `broadcast` only read it. -/
theorem untouched_node {req : RelayRequest} {outs : List RelayOutcome} :
    Untouched A timeout s₀ (.node req outs) := by
  intro s' e hRun
  obtain ⟨⟨s₁, answer⟩, hAlone, hEq⟩ := Option.map_eq_some_iff.mp hRun
  obtain ⟨rfl, -⟩ := Prod.mk.inj hEq
  obtain ⟨hEnter, hResume⟩ := relay_frame
  have hStay : ∀ (t : RelayTurn) p out t', t.shared = s₀ → t.next = .inr p →
      relayResume A timeout t.shared p out = some t' → t'.shared = s₀ :=
    fun t p out t' h _ hStep => (hResume hStep).trans h
  obtain ⟨t, hShared, rfl, -⟩ := Service.alone_induct hAlone (hEnter s₀ req) hStay
  rw [hShared]
  exact ⟨rfl, rfl⟩

-- ---------------------------------------------------------------------------
-- Key generation
-- ---------------------------------------------------------------------------

section

variable {s : SignerCell} {out : Outcome} {t : ApiTurn}

/-- The check of `dkg_create`: a key that is there ends it. -/
theorem resume_dkgCheck (h : resume A s .dkgCheck out = some t) :
    out = .tick ∧ ((t = finish s (.error .DkgAlreadyInitialized)) ∨
      s.active = none ∧ t = .await s .backendDkg .dkgBackend) := by
  rcases out with _ | result | result
  · refine ⟨rfl, ?_⟩
    rw [resume, Option.some.injEq] at h
    split at h
    · exact Or.inl h.symm
    · rename_i hNone
      exact Or.inr ⟨hNone, h.symm⟩
  · simp [resume] at h
  · simp [resume] at h

/-- The backend's answer: an error ends `dkg_create`. -/
theorem resume_dkgBackend (h : resume A s .dkgBackend out = some t) :
    (∃ e, t = finish s (.error (.Mpc e))) ∨
      ∃ publicKey, out = .key (.ok publicKey) ∧ t = proceed s (.dkgWrite publicKey) := by
  rcases out with _ | result | result
  · simp [resume] at h
  · rcases result with e | publicKey
    · exact Or.inl ⟨e, (Option.some.inj h).symm⟩
    · exact Or.inr ⟨publicKey, rfl, (Option.some.inj h).symm⟩
  · simp [resume] at h

/-- The write: the key is set before its address is derived. -/
theorem resume_dkgWrite {publicKey : PubkeySec1} (h : resume A s (.dkgWrite publicKey) out = some t) :
    out = .tick ∧ t = finish { s with active := some publicKey } (dkgReply A publicKey) := by
  rcases out with _ | result | result
  · exact ⟨rfl, (Option.some.inj h).symm⟩
  · simp [resume] at h
  · simp [resume] at h

end

/-- What an error answer of `dkg_create` leaves behind, by what it found and what
the backend answered. -/
theorem dkgCreate_run {outs : List Outcome} {s' : SignerCell} {e : RelayError}
    (h : (Call.signer .dkgCreate outs).run A timeout s₀ = some (s', some e)) :
    Clean s₀ s' ∨ OffCurve A s₀ (.signer .dkgCreate outs) := by
  obtain ⟨⟨s₁, answer⟩, hAlone, hEq⟩ := Option.map_eq_some_iff.mp h
  obtain ⟨rfl, hError⟩ := Prod.mk.inj hEq
  have hAnswered : ∀ {s a rest}, (service A).alone (finish s a) rest = some (s₁, answer) →
      s₁ = { s with op := false } ∧ answer = a := by
    intro s a rest hRun
    rw [Service.alone_answered rfl, Option.some.injEq, Prod.mk.injEq] at hRun
    exact ⟨hRun.1.symm, hRun.2.symm⟩
  -- the lock, the check, the backend and the write, one await after the other
  by_cases hOp : s₀.op = true
  · have hTurn : enter A s₀ .dkgCreate () = .answer s₀ (.error .SigningInProgress) := if_pos hOp
    rw [hTurn, Service.alone_answered rfl, Option.some.injEq, Prod.mk.injEq] at hAlone
    exact Or.inl ⟨hAlone.1 ▸ rfl, hAlone.1 ▸ rfl⟩
  have hFree : s₀.op = false := by simpa using hOp
  have hTurn : enter A s₀ .dkgCreate () = proceed { s₀ with op := true } .dkgCheck := if_neg hOp
  rw [hTurn] at hAlone
  obtain ⟨out, rest, t, rfl, hStep, hAlone⟩ := Service.alone_pending rfl hAlone
  obtain ⟨rfl, rfl | ⟨hNone, rfl⟩⟩ := resume_dkgCheck hStep
  · obtain ⟨rfl, -⟩ := hAnswered hAlone
    exact Or.inl ⟨rfl, rfl⟩
  obtain ⟨out, rest, t, rfl, hStep, hAlone⟩ := Service.alone_pending rfl hAlone
  obtain ⟨e, rfl⟩ | ⟨publicKey, rfl, rfl⟩ := resume_dkgBackend hStep
  · obtain ⟨rfl, -⟩ := hAnswered hAlone
    exact Or.inl ⟨rfl, rfl⟩
  obtain ⟨out, rest, t, rfl, hStep, hAlone⟩ := Service.alone_pending rfl hAlone
  obtain ⟨rfl, rfl⟩ := resume_dkgWrite hStep
  obtain ⟨-, rfl⟩ := hAnswered hAlone
  -- the key is written; the answer is an error only off the curve
  refine Or.inr ⟨hFree, hNone, publicKey, rest, rfl, ?_⟩
  rcases hAddress : A.addressOfPubkey publicKey with _ | address
  · rfl
  · simp [dkgReply, DkgResponse.new, hAddress, Functor.map, Except.map, errorOf] at hError

/-- A first key generation that returns bytes off the curve answers an error, with
the key set. -/
theorem offCurve_run {publicKey : PubkeySec1} {outs : List Outcome} (hFree : s₀.op = false)
    (hNone : s₀.active = none) (hPoint : A.addressOfPubkey publicKey = none) :
    (Call.signer .dkgCreate (.tick :: .key (.ok publicKey) :: .tick :: outs)).run A timeout s₀ =
      some ({ s₀ with active := some publicKey, op := false }, some (.Signer .Pubkey)) := by
  have hAnswer : dkgReply A publicKey = .error .Pubkey := by
    simp [dkgReply, DkgResponse.new, hPoint, Functor.map, Except.map]
  have hTurn : enter A s₀ .dkgCreate () = proceed { s₀ with op := true } .dkgCheck :=
    if_neg (by simp [hFree])
  have hAlone : (service A).alone (enter A s₀ .dkgCreate ())
      (.tick :: .key (.ok publicKey) :: .tick :: outs) =
        some ({ s₀ with active := some publicKey, op := false }, .error .Pubkey) := by
    rw [hTurn]
    show ((resume A { s₀ with op := true } .dkgCheck .tick).bind fun t =>
      (service A).alone t (.key (.ok publicKey) :: .tick :: outs)) = _
    simp only [resume, hNone, Option.bind_some]
    show (service A).alone (finish { s₀ with op := true, active := some publicKey }
      (dkgReply A publicKey)) outs = _
    rw [Service.alone_answered rfl, hAnswer]
    rfl
  simp only [Call.run, hAlone, errorOf, Option.map_some]

-- ---------------------------------------------------------------------------
-- Every request
-- ---------------------------------------------------------------------------

/-- **An error answer leaves the signer state untouched**, for every state, request
and sequence of answers by the backend and the node, exactly if it is not a first
key generation that returned bytes off the curve. -/
theorem errors_untouched_iff (A : Eth.Alloy) (timeout : Nat) (s : SignerCell) (call : Call) :
    Untouched A timeout s call ↔ ¬ OffCurve A s call := by
  constructor
  · rintro hUntouched ⟨hFree, hNone, publicKey, outs, rfl, hPoint⟩
    obtain ⟨hActive, -⟩ := hUntouched _ _ (offCurve_run hFree hNone hPoint)
    simp [hNone] at hActive
  · intro hCurve
    rcases call with ⟨req, outs⟩ | ⟨req, outs⟩
    · by_cases hReq : req = .dkgCreate
      · subst hReq
        intro s' e hRun
        exact (dkgCreate_run hRun).resolve_right hCurve
      · exact untouched_signer hReq
    · exact untouched_node

namespace Sample

/-- A compressed key whose x coordinate is on no point the library knows. -/
def offCurve : PubkeySec1 := ⟨0x02 :: List.replicate 32 5, by decide, by decide⟩

/-- A fresh cell. -/
def cell : SignerCell := ⟨none, fun _ => none, false⟩

/-- The key generation that returns it. -/
def keygen : Call := .signer .dkgCreate [.tick, .key (.ok offCurve), .tick]

end Sample

open Sample in
/-- A key generation that failed and still provisioned the service. -/
theorem failed_dkg_provisions :
    keygen.run Eth.Sample.alloy 30 cell =
      some ({ cell with active := some offCurve }, some (.Signer .Pubkey)) ∧
    ¬ Untouched Eth.Sample.alloy 30 cell keygen := by
  have hRun : keygen.run Eth.Sample.alloy 30 cell =
      some ({ cell with active := some offCurve }, some (.Signer .Pubkey)) :=
    offCurve_run rfl rfl (by decide)
  refine ⟨hRun, ?_⟩
  intro hUntouched
  obtain ⟨hActive, -⟩ := hUntouched _ _ hRun
  simp [cell] at hActive

end Sovra.Api
