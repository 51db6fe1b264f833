import Sovra.Api.Types
import Sovra.Lib.Guard
import Sovra.Lib.Service

/-!
# Sovra — the handlers of /v1/dkg, /v1/recover and /v1/sign

`sovra-api`'s `api.rs` over any `MpcBackend`, whose answers are inputs. The
handlers run on several threads, so a turn ends not only at an await of the
backend but before every access to the shared cell: reading the cache and the
key, trying the lock, re-checking the cache, inserting and answering are turns
of their own. The source's `_op` guard is dropped with the answer.

* `enter_spec`, `resume_spec` — everything one turn does.
-/

namespace Sovra.Api

open Lib Mpc

/-- A request to the API. -/
inductive Request
  | dkgCreate
  | dkgGet
  | recover
  | sign (network : NetworkId) (unsignedTransaction : Bytes)
deriving DecidableEq

/-- The bodies of its 200s. -/
inductive Reply
  | dkg (response : DkgResponse)
  | sign (response : SignResponse)
deriving DecidableEq

/-- A handler's result. -/
abbrev Answer := Except ApiError Reply

/-- The locals of `sign_via` past its first read. -/
structure SignJob where
  unsigned : Bytes
  tx : Eth.EthTx
  txDigest : B256
  active : PubkeySec1
deriving DecidableEq

/-- Where a handler stands between two turns. -/
inductive Pending
  | dkgCheck
  | dkgBackend
  | dkgWrite (publicKey : PubkeySec1)
  | recoverCheck
  | recoverBackend (active : PubkeySec1)
  | signLock (job : SignJob)
  | signRecheck (job : SignJob)
  | signBackend (job : SignJob)
  | signInsert (job : SignJob) (response : SignResponse)
  | signReturn (response : SignResponse)
deriving DecidableEq

/-- Every point past the `try_lock` owns the op lock. -/
def Pending.holds : Pending → Bool
  | .signLock _ => false
  | _ => true

/-- A backend operation is in flight. -/
def Pending.inFlight : Pending → Bool
  | .dkgBackend | .recoverBackend _ | .signBackend _ => true
  | _ => false

/-- What a run logs. -/
inductive Effect
  | backendDkg
  | backendRefresh
  | backendSign (network : NetworkId) (unsigned : Bytes)
  /-- A successful backend result enters the cache. -/
  | cached (txDigest : B256)
deriving DecidableEq

/-- What a turn resumes on: its own progress, or the backend's answer. -/
inductive Outcome
  | tick
  | key (result : Except MpcError PubkeySec1)
  | parts (result : Except MpcError (List EcdsaParts))

/-- One turn of a handler over the signer's cell. -/
abbrev ApiTurn := Turn SignerCell Pending Answer Effect

section

variable (A : Eth.Alloy)

/-- Go on without an effect. -/
def proceed (s : SignerCell) (p : Pending) : ApiTurn := ⟨s, [], .inr p⟩

/-- Answer and drop the op guard. -/
def finish (s : SignerCell) (answer : Answer) : ApiTurn := .answer { s with op := false } answer

/-- `try_lock`, busy means 409. -/
def tryLock (s : SignerCell) (p : Pending) : ApiTurn :=
  if s.op then .answer s (.error .SigningInProgress) else proceed { s with op := true } p

/-- Decode and recompute the digest: a caller-supplied hash is never trusted. -/
def signDecode (unsigned : Bytes) : Except ApiError (Eth.EthTx × B256) := do
  let tx ← (Eth.Ethereum.decodeUnsigned A unsigned).mapError .Tx
  (Eth.Ethereum.validate tx).mapError .Tx
  let txDigest := (Eth.Ethereum.signingDigests A tx).head (List.cons_ne_nil _ _)
  return (tx, txDigest)

/-- `sign_via::<Ethereum>` up to the lock: decode, then one short read of the
cache and the key. -/
def signVia (s : SignerCell) (unsigned : Bytes) : ApiTurn :=
  match signDecode A unsigned with
  | .error e => .answer s (.error e)
  | .ok (tx, txDigest) =>
    match s.signed txDigest with
    | some cached => .answer s (.ok (.sign cached))
    | none =>
      match s.active with
      | none => .answer s (.error .DkgNotInitialized)
      | some active => proceed s (.signLock { unsigned, tx, txDigest, active })

/-- Past the backend: finalize against the active key, build the response. -/
def signFinish (job : SignJob) (parts : List EcdsaParts) : Except ApiError SignResponse := do
  let signed ← (Eth.Ethereum.finalize A job.tx parts job.active).mapError .Tx
  let signerAddress ← (Eth.Ethereum.deriveAddress A job.active).mapError .Tx
  return { network := .Ethereum, signedTransaction := signed.raw, signatures := parts
           signerAddress, txDigest := job.txDigest }

/-- The 200 of `dkg_create`, `dkg_get` and `recover`: the key with its addresses. -/
def dkgReply (publicKey : PubkeySec1) : Answer := Reply.dkg <$> DkgResponse.new A publicKey

/-- `dkg_get`. -/
def dkgGet (s : SignerCell) : Answer :=
  match s.active with
  | none => .error .DkgNotFound
  | some publicKey => dkgReply A publicKey

/-- A handler's first turn: up to its first await. -/
def enter (s : SignerCell) (req : Request) (_ : Unit) : ApiTurn :=
  match req with
  | .dkgCreate => tryLock s .dkgCheck
  | .recover => tryLock s .recoverCheck
  | .sign .Ethereum unsigned => signVia A s unsigned
  | .dkgGet => .answer s (dkgGet A s)

/-- A later turn: from the await it stands at, with what that brought, to the next. -/
def resume (s : SignerCell) (p : Pending) (out : Outcome) : Option ApiTurn :=
  match p, out with
  | .dkgCheck, .tick => some <|
    match s.active with
    | some _ => finish s (.error .DkgAlreadyInitialized)
    | none => .await s .backendDkg .dkgBackend
  | .dkgBackend, .key (.error e) => some (finish s (.error (.Mpc e)))
  | .dkgBackend, .key (.ok publicKey) => some (proceed s (.dkgWrite publicKey))
  | .dkgWrite publicKey, .tick =>
    some (finish { s with active := some publicKey } (dkgReply A publicKey))
  | .recoverCheck, .tick => some <|
    match s.active with
    | none => finish s (.error .DkgNotInitialized)
    | some active => .await s .backendRefresh (.recoverBackend active)
  | .recoverBackend _, .key (.error e) => some (finish s (.error (.Mpc e)))
  | .recoverBackend active, .key (.ok publicKey) => some <|
    if publicKey ≠ active then
      finish s (.error (.Mpc (.partyMismatch ("refresh returned " ++ hexEncode publicKey.bytes ++
        ", active generation is " ++ hexEncode active.bytes))))
    else finish s (dkgReply A publicKey)
  | .signLock job, .tick => some (tryLock s (.signRecheck job))
  | .signRecheck job, .tick => some <|
    match s.signed job.txDigest with
    | some cached => finish s (.ok (.sign cached))
    | none => .await s (.backendSign .Ethereum job.unsigned) (.signBackend job)
  | .signBackend _, .parts (.error e) => some (finish s (.error (.Mpc e)))
  | .signBackend job, .parts (.ok parts) => some <|
    match signFinish A job parts with
    | .error e => finish s (.error e)
    | .ok response => proceed s (.signInsert job response)
  | .signInsert job response, .tick =>
    some ⟨{ s with signed := Function.update s.signed job.txDigest (some response) },
      [.cached job.txDigest], .inr (.signReturn response)⟩
  | .signReturn response, .tick => some (finish s (.ok (.sign response)))
  | _, _ => none

/-- The API process: a dropped handler drops the guard it holds. -/
def service : Service SignerCell Request Unit Pending Outcome Answer Effect where
  enter := enter A
  resume := resume A
  drop s p := if p.holds then { s with op := false } else s

end

-- ---------------------------------------------------------------------------
-- What a turn does
-- ---------------------------------------------------------------------------

variable {A : Eth.Alloy}

/-- The bytes are a valid transaction `tx`. -/
def Decodes (A : Eth.Alloy) (unsigned : Bytes) (tx : Eth.EthTx) : Prop :=
  (∃ prepared, Eth.decodeUnsigned A unsigned = .ok prepared ∧ prepared.tx = tx) ∧
    Eth.validateUnsigned tx = .ok ()

/-- The response for `tx` under the key `active`: its signature hash, and its
signed form by a signature that recovers to the key's address. -/
def BodyOk (A : Eth.Alloy) (active : PubkeySec1) (tx : Eth.EthTx) (response : SignResponse) : Prop :=
  response.txDigest = tx.signatureHash A ∧
  ∃ sig address, response.signatures = [sig] ∧ A.addressOfPubkey active = some address ∧
    A.recoverAddressFromPrehash ⟨sig.r, sig.s, sig.yParity⟩ (tx.signatureHash A) = some address ∧
    response.signedTransaction = tx.encodedSigned A ⟨sig.r, sig.s, sig.yParity⟩ ∧
    response.signerAddress = hexEncode address.bytes

/-- What `sign_via` knows of its locals. -/
structure JobOk (A : Eth.Alloy) (req : Request) (s : SignerCell) (job : SignJob) : Prop where
  request : req = .sign .Ethereum job.unsigned
  decodes : Decodes A job.unsigned job.tx
  digest : job.txDigest = job.tx.signatureHash A
  active : s.active = some job.active

/-- An answered or answerable body is the cached one of the request's digest. -/
def Served (A : Eth.Alloy) (req : Request) (s : SignerCell) (response : SignResponse) : Prop :=
  ∃ unsigned tx, req = .sign .Ethereum unsigned ∧ Decodes A unsigned tx ∧
    s.signed (tx.signatureHash A) = some response

/-- What a handler relies on where it stands. -/
def TaskOk (A : Eth.Alloy) (req : Request) (s : SignerCell) : Pending → Prop
  | .dkgCheck | .recoverCheck | .recoverBackend _ => True
  | .dkgBackend | .dkgWrite _ => s.active = none
  | .signLock job | .signRecheck job => JobOk A req s job
  | .signBackend job => JobOk A req s job ∧ s.signed job.txDigest = none
  | .signInsert job response =>
    JobOk A req s job ∧ s.signed job.txDigest = none ∧ BodyOk A job.active job.tx response
  | .signReturn response => Served A req s response

/-- What a handler promises of its answer. -/
def AnswerOk (A : Eth.Alloy) (req : Request) (s : SignerCell) (answer : Answer) : Prop :=
  ∀ response, answer = .ok (.sign response) → Served A req s response

/-- The ways one turn changes the cell: not at all (the lock apart), the key
once, or one fresh cache entry. -/
inductive Change (A : Eth.Alloy) (req : Request) (s : SignerCell) (p : Option Pending) (t : ApiTurn) :
    Prop
  | same (active : t.shared.active = s.active) (signed : t.shared.signed = s.signed)
      (effects : ∀ d, Effect.cached d ∉ t.effects)
  | key (fresh : s.active = none) (signed : t.shared.signed = s.signed)
      (holds : ∃ q, p = some q ∧ q.holds = true) (effects : t.effects = [])
  | entry (job : SignJob) (response : SignResponse) (ok : JobOk A req s job)
      (body : BodyOk A job.active job.tx response) (fresh : s.signed job.txDigest = none)
      (active : t.shared.active = s.active)
      (signed : t.shared.signed = Function.update s.signed job.txDigest (some response))
      (holds : ∃ q, p = some q ∧ q.holds = true) (effects : t.effects = [.cached job.txDigest])

/-- One turn of a handler for `req`, from `p` (or from the start) in `s`. -/
structure TurnOk (A : Eth.Alloy) (req : Request) (s : SignerCell) (p : Option Pending) (t : ApiTurn) :
    Prop where
  change : Change A req s p t
  task : ∀ q, t.next = .inr q → TaskOk A req t.shared q
  answer : ∀ a, t.next = .inl a → AnswerOk A req t.shared a

/-- What `sign_via` goes on with is the transaction the bytes decode to. -/
theorem signDecode_ok {unsigned : Bytes} {tx : Eth.EthTx} {txDigest : B256}
    (h : signDecode A unsigned = .ok (tx, txDigest)) :
    Decodes A unsigned tx ∧ txDigest = tx.signatureHash A := by
  simp only [signDecode, bind_eq_ok, mapError_eq_ok, pure_eq_ok, Prod.mk.injEq] at h
  obtain ⟨tx', hDecode, u, hValid, rfl, rfl⟩ := h
  exact ⟨⟨Eth.Ethereum.decodeUnsigned_ok.mp hDecode, Eth.Ethereum.validate_ok.mp hValid⟩, rfl⟩

/-- A response leaves `sign_via` only with the body its digest stands for. -/
theorem signFinish_ok {job : SignJob} {parts : List EcdsaParts} {response : SignResponse}
    (hDigest : job.txDigest = job.tx.signatureHash A)
    (h : signFinish A job parts = .ok response) : BodyOk A job.active job.tx response := by
  simp only [signFinish, Eth.Ethereum.deriveAddress, bind_eq_ok, mapError_eq_ok, pure_eq_ok] at h
  obtain ⟨signed, hFinal, name, ⟨address, hAddress, rfl⟩, rfl⟩ := h
  obtain ⟨sig, address', rfl, hAddress', hRecover, hRaw, -⟩ := Eth.Ethereum.finalize_ok hFinal
  rw [Eth.Ethereum.addressFromSec1_ok, hAddress', Option.some.injEq] at hAddress
  subst hAddress
  exact ⟨hDigest, sig, address', rfl, hAddress', hRecover, hRaw, rfl⟩

/-- An error promises nothing of a signature. -/
theorem answerOk_error {req : Request} {s : SignerCell} {e : ApiError} :
    AnswerOk A req s (.error e) := by
  intro response h
  simp at h

/-- A key promises nothing of a signature. -/
theorem answerOk_dkgReply {req : Request} {s : SignerCell} {publicKey : PubkeySec1} :
    AnswerOk A req s (dkgReply A publicKey) := by
  intro response h
  simp [dkgReply] at h

/-- Answering changes at most the lock. -/
theorem finish_ok {req : Request} {s : SignerCell} {p : Option Pending} {a : Answer}
    (h : AnswerOk A req s a) : TurnOk A req s p (finish s a) := by
  refine ⟨.same rfl rfl (fun d hMem => by simp [finish, Turn.answer] at hMem), ?_, ?_⟩
  · intro q hNext
    simp [finish, Turn.answer] at hNext
  · intro b hNext
    rw [← Sum.inl.inj hNext]
    exact h

/-- Answering without the lock changes nothing. -/
theorem answer_ok {req : Request} {s : SignerCell} {p : Option Pending} {a : Answer}
    (h : AnswerOk A req s a) : TurnOk A req s p (.answer s a) := by
  refine ⟨.same rfl rfl (fun d hMem => by simp [Turn.answer] at hMem), ?_, ?_⟩
  · intro q hNext
    simp [Turn.answer] at hNext
  · intro b hNext
    rw [← Sum.inl.inj hNext]
    exact h

/-- Suspending changes at most the lock; a backend call is not a cache entry. -/
theorem suspend_ok {req : Request} {s s' : SignerCell} {p : Option Pending} {q : Pending}
    {effects : List Effect} (hActive : s'.active = s.active) (hSigned : s'.signed = s.signed)
    (hEffects : ∀ d, Effect.cached d ∉ effects) (h : TaskOk A req s' q) :
    TurnOk A req s p ⟨s', effects, .inr q⟩ := by
  refine ⟨.same hActive hSigned hEffects, ?_, ?_⟩
  · intro r hNext
    rw [← Sum.inr.inj hNext]
    exact h
  · intro b hNext
    simp at hNext

/-- Trying the lock changes it at most. -/
theorem tryLock_ok {req : Request} {s : SignerCell} {p : Option Pending} {q : Pending}
    (h : TaskOk A req { s with op := true } q) : TurnOk A req s p (tryLock s q) := by
  unfold tryLock
  split
  · exact answer_ok answerOk_error
  · exact suspend_ok rfl rfl (by simp) h

/-- The first turn of `sign_via`: what it serves is cached, what it goes on with is
decoded. -/
theorem signVia_ok {s : SignerCell} {unsigned : Bytes} :
    TurnOk A (.sign .Ethereum unsigned) s none (signVia A s unsigned) := by
  unfold signVia
  split
  · exact answer_ok answerOk_error
  rename_i tx txDigest hDecode
  obtain ⟨hDecodes, rfl⟩ := signDecode_ok hDecode
  split
  · rename_i cached hCached
    refine answer_ok ?_
    rintro response ⟨⟩
    exact ⟨unsigned, tx, rfl, hDecodes, hCached⟩
  · split
    · exact answer_ok answerOk_error
    · rename_i active hActive
      exact suspend_ok rfl rfl (by simp) ⟨rfl, hDecodes, rfl, hActive⟩

/-- The first turn of any handler. -/
theorem enter_spec (s : SignerCell) (req : Request) : TurnOk A req s none (enter A s req ()) := by
  match req with
  | .dkgCreate => exact tryLock_ok trivial
  | .recover => exact tryLock_ok trivial
  | .sign .Ethereum unsigned => exact signVia_ok
  | .dkgGet =>
    refine answer_ok ?_
    unfold dkgGet
    split
    · exact answerOk_error
    · exact answerOk_dkgReply

/-- One turn after the first, case by case of where the handler stands. -/
theorem resume_spec {s : SignerCell} {req : Request} {p : Pending} {out : Outcome} {t : ApiTurn}
    (hTask : TaskOk A req s p) (h : resume A s p out = some t) : TurnOk A req s (some p) t := by
  unfold resume at h
  split at h <;> simp only [Option.some.injEq, reduceCtorEq] at h <;> subst h
  · -- `dkg_create`: the check, the backend's two answers, the write
    split
    · exact finish_ok answerOk_error
    · rename_i hNone
      exact suspend_ok rfl rfl (by simp) hNone
  · exact finish_ok answerOk_error
  · exact suspend_ok rfl rfl (by simp) hTask
  · rename_i publicKey
    refine ⟨.key hTask rfl ⟨_, rfl, rfl⟩ rfl, ?_, ?_⟩
    · intro q hNext
      simp [finish, Turn.answer] at hNext
    · intro b hNext
      rw [← Sum.inl.inj hNext]
      exact answerOk_dkgReply
  · -- `recover`: the check, and the backend's two answers
    split
    · exact finish_ok answerOk_error
    · exact suspend_ok rfl rfl (by simp) trivial
  · exact finish_ok answerOk_error
  · split
    · exact finish_ok answerOk_error
    · exact finish_ok answerOk_dkgReply
  · -- `sign_via`: the lock, then the second look at the cache
    exact tryLock_ok ⟨hTask.request, hTask.decodes, hTask.digest, hTask.active⟩
  · rename_i job
    split
    · rename_i cached hCached
      refine finish_ok ?_
      rintro response ⟨⟩
      exact ⟨job.unsigned, job.tx, hTask.request, hTask.decodes, hTask.digest ▸ hCached⟩
    · rename_i hMiss
      exact suspend_ok rfl rfl (by simp) ⟨hTask, hMiss⟩
  · -- the backend's two answers: no signatures, or what `finalize` makes of them
    exact finish_ok answerOk_error
  · split
    · exact finish_ok answerOk_error
    · rename_i response hFinish
      obtain ⟨hJob, hMiss⟩ := hTask
      exact suspend_ok rfl rfl (by simp) ⟨hJob, hMiss, signFinish_ok hJob.digest hFinish⟩
  · -- the one turn that writes the cache: the entry is new and its body good
    rename_i job response
    obtain ⟨hJob, hMiss, hBody⟩ := hTask
    refine ⟨.entry job response hJob hBody hMiss rfl rfl ⟨_, rfl, rfl⟩ rfl, ?_, ?_⟩
    · intro q hNext
      rw [← Sum.inr.inj hNext]
      refine ⟨job.unsigned, job.tx, hJob.request, hJob.decodes, ?_⟩
      rw [← hJob.digest]
      exact Function.update_self job.txDigest _ s.signed
    · intro b hNext
      simp at hNext
  · -- what is returned is what was inserted
    rename_i response
    refine finish_ok ?_
    rintro response' ⟨⟩
    exact hTask

end Sovra.Api
