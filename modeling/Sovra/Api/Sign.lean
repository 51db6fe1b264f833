import Sovra.Api.Handlers
import Sovra.Eth.Encoding

/-!
# Sovra — sign responses over every interleaving

The API process of `Api.Handlers` with any backend: any number of concurrent
`dkg_create`, `recover` and `sign` handlers, any of which may be dropped.

* `Inv` — the invariant of the cell, the suspended handlers, the answers and
  the cache entries made so far.
* `sign_responses_idempotent` — one backend operation at a time, a write-once
  key, correct bodies, one body and at most one entry for each digest.
-/

namespace Sovra.Api

open Lib Mpc

/-- An API process: its cell, the handlers under way, what they answered, what it
logged. -/
abbrev ApiWorld := World SignerCell Request Pending Answer Effect

/-- The cache entries a run made for one digest. -/
def cachedCount (d : B256) (log : List (Nat × Effect)) : Nat :=
  log.countP fun e => e.2 = .cached d

variable {A : Eth.Alloy}

-- ---------------------------------------------------------------------------
-- The op lock
-- ---------------------------------------------------------------------------

/-- Trying the lock takes a free one and leaves a taken one alone. -/
theorem tryLock_owning {s : SignerCell} {p : Pending} (hp : p.holds = true) :
    if Service.owning Pending.holds (tryLock s p) then
      s.op = false ∧ (tryLock s p).shared.op = true
    else (tryLock s p).shared.op = s.op := by
  rcases hOp : s.op with _ | _
  · simp [tryLock, hOp, Service.owning, proceed, hp]
  · simp [tryLock, hOp, Service.owning, Turn.answer]

/-- The first turn of `sign_via` does not touch the lock. -/
theorem signVia_owning (s : SignerCell) (unsigned : Bytes) :
    Service.owning Pending.holds (signVia A s unsigned) = false ∧
      (signVia A s unsigned).shared.op = s.op := by
  unfold signVia
  split
  · exact ⟨rfl, rfl⟩
  split
  · exact ⟨rfl, rfl⟩
  split
  · exact ⟨rfl, rfl⟩
  · exact ⟨rfl, rfl⟩

/-- **The handlers keep to the lock**: each turn takes it where it is free, or keeps
or drops its own. -/
theorem service_tryLock : (service A).TryLock SignerCell.op Pending.holds where
  enter s req inp := by
    match req with
    | .dkgCreate => exact tryLock_owning rfl
    | .recover => exact tryLock_owning rfl
    | .dkgGet => exact rfl
    | .sign .Ethereum unsigned =>
      obtain ⟨hOwning, hOp⟩ := signVia_owning (A := A) s unsigned
      show if Service.owning Pending.holds (signVia A s unsigned) then _ else _
      rw [if_neg (by simp [hOwning])]
      exact hOp
  resume_owner s p out t hp hTurn hLocked := by
    change resume A s p out = some t at hTurn
    unfold resume at hTurn
    split at hTurn <;> simp only [Option.some.injEq, reduceCtorEq] at hTurn <;> subst hTurn
    · -- `dkg_create`
      split
      · rfl
      · exact hLocked
    · rfl
    · exact hLocked
    · rfl
    · -- `recover`
      split
      · rfl
      · exact hLocked
    · rfl
    · split
      · rfl
      · rfl
    · -- `sign_via`, whose first await is before the lock
      simp [Pending.holds] at hp
    · split
      · rfl
      · exact hLocked
    · rfl
    · split
      · rfl
      · exact hLocked
    · exact hLocked
    · rfl
  resume_other s p out t hp hTurn := by
    change resume A s p out = some t at hTurn
    unfold resume at hTurn
    split at hTurn <;> simp only [Option.some.injEq, reduceCtorEq] at hTurn <;> subst hTurn <;>
      first
      | exact tryLock_owning rfl
      | simp [Pending.holds] at hp
  drop_owner s p hp := by
    show (if p.holds then _ else _ : SignerCell).op = false
    rw [if_pos hp]
  drop_other s p hp := by
    show (if p.holds then _ else _ : SignerCell).op = s.op
    rw [if_neg (by simp [hp])]

-- ---------------------------------------------------------------------------
-- What other handlers' turns leave alone
-- ---------------------------------------------------------------------------

/-- The key is written once. -/
theorem Change.active_mono {req : Request} {s : SignerCell} {p : Option Pending} {t : ApiTurn}
    (h : Change A req s p t) {publicKey : PubkeySec1} (hActive : s.active = some publicKey) :
    t.shared.active = some publicKey := by
  rcases h with ⟨hSame, -, -⟩ | ⟨hFresh, -, -, -⟩ | ⟨job, response, -, -, -, hSame, -, -, -⟩
  · rw [hSame, hActive]
  · simp [hActive] at hFresh
  · rw [hSame, hActive]

/-- An entry is written once. -/
theorem Change.signed_mono {req : Request} {s : SignerCell} {p : Option Pending} {t : ApiTurn}
    (h : Change A req s p t) {d : B256} {response : SignResponse}
    (hSigned : s.signed d = some response) : t.shared.signed d = some response := by
  rcases h with ⟨-, hSame, -⟩ | ⟨-, hSame, -, -⟩ | ⟨job, response', -, -, hFresh, -, hUpdate, -, -⟩
  · rw [hSame, hSigned]
  · rw [hSame, hSigned]
  · have hNe : d ≠ job.txDigest := by
      rintro rfl
      simp [hSigned] at hFresh
    rw [hUpdate, Function.update_of_ne hNe, hSigned]

/-- A cached response stays cached. -/
theorem Served.mono {req req' : Request} {s : SignerCell} {p : Option Pending} {t : ApiTurn}
    {response : SignResponse} (h : Served A req s response) (hChange : Change A req' s p t) :
    Served A req t.shared response := by
  obtain ⟨unsigned, tx, hReq, hDecodes, hSigned⟩ := h
  exact ⟨unsigned, tx, hReq, hDecodes, hChange.signed_mono hSigned⟩

/-- What a handler relies on reads the key and the cache only. -/
theorem TaskOk.congr {req : Request} {s s' : SignerCell} {q : Pending} (h : TaskOk A req s q)
    (hActive : s'.active = s.active) (hSigned : s'.signed = s.signed) : TaskOk A req s' q := by
  have hJob : ∀ {job}, JobOk A req s job → JobOk A req s' job := by
    intro job hOk
    exact ⟨hOk.request, hOk.decodes, hOk.digest, hActive.trans hOk.active⟩
  match q with
  | .dkgCheck | .recoverCheck | .recoverBackend _ => trivial
  | .dkgBackend | .dkgWrite _ => exact hActive.trans h
  | .signLock job | .signRecheck job => exact hJob h
  | .signBackend job => exact ⟨hJob h.1, hSigned ▸ h.2⟩
  | .signInsert job response => exact ⟨hJob h.1, hSigned ▸ h.2.1, h.2.2⟩
  | .signReturn response =>
    obtain ⟨unsigned, tx, hReq, hDecodes, hCached⟩ := h
    exact ⟨unsigned, tx, hReq, hDecodes, hSigned ▸ hCached⟩

/-- A handler's reliance survives another handler's turn: a turn that writes
owns the lock, so this one does not, and then it relies on the key alone. -/
theorem TaskOk.frame {req req' : Request} {s : SignerCell} {p : Option Pending} {q : Pending}
    {t : ApiTurn} (h : TaskOk A req s q) (hChange : Change A req' s p t)
    (hOther : (∃ r, p = some r ∧ r.holds = true) → q.holds = false) :
    TaskOk A req t.shared q := by
  -- a turn that writes owns the lock, so `q` is the one await before it
  have hLocked : (∃ r, p = some r ∧ r.holds = true) → TaskOk A req t.shared q := by
    intro hOwner
    have hFree := hOther hOwner
    match q with
    | .signLock job =>
      exact ⟨h.request, h.decodes, h.digest, hChange.active_mono h.active⟩
    | .dkgCheck | .recoverCheck | .recoverBackend _ | .dkgBackend | .dkgWrite _ | .signRecheck _
    | .signBackend _ | .signInsert _ _ | .signReturn _ => simp [Pending.holds] at hFree
  rcases hChange with ⟨hActive, hSigned, -⟩ | ⟨-, -, hOwner, -⟩ | ⟨_, _, -, -, -, -, -, hOwner, -⟩
  · exact h.congr hActive hSigned
  · exact hLocked hOwner
  · exact hLocked hOwner

-- ---------------------------------------------------------------------------
-- The invariant
-- ---------------------------------------------------------------------------

/-- The entry for `d` is the body of a transaction that was asked for, under
the active key. -/
def EntryOk (A : Eth.Alloy) (w : ApiWorld) (d : B256) (response : SignResponse) : Prop :=
  ∃ id unsigned tx active, w.requests id = some (.sign .Ethereum unsigned) ∧
    Decodes A unsigned tx ∧ tx.signatureHash A = d ∧ w.shared.active = some active ∧
    BodyOk A active tx response

/-- The invariant: where each handler stands, what each answer promises, what the
cache holds, and that no digest was cached twice. -/
structure Inv (A : Eth.Alloy) (w : ApiWorld) : Prop where
  task : ∀ id p, w.tasks id = some p →
    ∃ req, w.requests id = some req ∧ TaskOk A req w.shared p
  answered : ∀ id a, w.answers id = some a →
    ∃ req, w.requests id = some req ∧ AnswerOk A req w.shared a
  cache : ∀ d response, w.shared.signed d = some response → EntryOk A w d response
  once : ∀ d, cachedCount d w.log ≤ 1 ∧ (w.shared.signed d = none → cachedCount d w.log = 0)

/-- The cache of a process that has just come up is empty. -/
theorem Inv.init (active : Option PubkeySec1) :
    Inv A (World.init ⟨active, fun _ => none, false⟩) :=
  ⟨by simp [World.init], by simp [World.init], by simp [World.init],
    by simp [World.init, cachedCount]⟩

/-- Receiving a request changes neither the cell nor any handler. -/
theorem Inv.setRequest {w : ApiWorld} {id : Nat} {req : Request} (h : Inv A w)
    (hFresh : w.requests id = none) : Inv A (w.setRequest id req) := by
  have hKeep : ∀ {i r}, w.requests i = some r → (w.setRequest id req).requests i = some r :=
    World.setRequest_requests hFresh
  refine ⟨?_, ?_, ?_, h.once⟩
  · intro i p hTask
    obtain ⟨r, hReq, hOk⟩ := h.task i p hTask
    exact ⟨r, hKeep hReq, hOk⟩
  · intro i a hAns
    obtain ⟨r, hReq, hOk⟩ := h.answered i a hAns
    exact ⟨r, hKeep hReq, hOk⟩
  · intro d response hSigned
    obtain ⟨i, unsigned, tx, active, hReq, hRest⟩ := h.cache d response hSigned
    exact ⟨i, unsigned, tx, active, hKeep hReq, hRest⟩

/-- The cache entries of a longer log. -/
theorem cachedCount_append {d : B256} {log : List (Nat × Effect)} {id : Nat}
    {effects : List Effect} :
    cachedCount d (log ++ effects.map fun e => (id, e)) =
      cachedCount d log + effects.countP fun e => e = .cached d := by
  unfold cachedCount
  rw [List.countP_append, List.countP_map]
  rfl

/-- An effect list without cache entries counts for no digest. -/
theorem countP_cached_eq_zero {effects : List Effect} {d : B256}
    (h : Effect.cached d ∉ effects) : (effects.countP fun e => e = .cached d) = 0 := by
  rw [List.countP_eq_zero]
  intro e hMem hEq
  rw [decide_eq_true_eq] at hEq
  exact h (hEq ▸ hMem)

/-- One turn of the handler of `req`. -/
theorem Inv.settle {w : ApiWorld} {id : Nat} {req : Request} {p : Option Pending} {t : ApiTurn}
    (h : Inv A w) (hReq : w.requests id = some req) (ht : TurnOk A req w.shared p t)
    (hOther : ∀ i q, i ≠ id → w.tasks i = some q →
      (∃ r, p = some r ∧ r.holds = true) → q.holds = false) : Inv A (w.settle id t) := by
  refine ⟨?_, ?_, ?_, ?_⟩
  · -- the turn's own await, and those of the others
    intro i q hTask
    rcases World.settle_tasks_cases hTask with ⟨rfl, hNext⟩ | ⟨hNe, hOld⟩
    · exact ⟨req, hReq, ht.task q hNext⟩
    · obtain ⟨r, hReq', hOk⟩ := h.task i q hOld
      exact ⟨r, hReq', hOk.frame ht.change (hOther i q hNe hOld)⟩
  · -- its own answer, and the earlier ones: entries stay
    intro i a hAns
    rcases World.settle_answers_cases hAns with ⟨rfl, hNext⟩ | hOld
    · exact ⟨req, hReq, ht.answer a hNext⟩
    · obtain ⟨r, hReq', hOk⟩ := h.answered i a hOld
      exact ⟨r, hReq', fun response hEq => (hOk response hEq).mono ht.change⟩
  · -- the cache: as before, or with the one entry of this turn
    intro d response hSigned
    have hOldEntry : w.shared.signed d = some response → EntryOk A (w.settle id t) d response := by
      intro hOld
      obtain ⟨i, unsigned, tx, active, hReq', hDecodes, hHash, hActive, hBody⟩ :=
        h.cache d response hOld
      exact ⟨i, unsigned, tx, active, hReq', hDecodes, hHash, ht.change.active_mono hActive, hBody⟩
    rw [World.settle_shared] at hSigned
    rcases ht.change with ⟨-, hSame, -⟩ | ⟨-, hSame, -, -⟩ |
      ⟨job, response', hJob, hBody, -, hActive, hUpdate, -, -⟩
    · exact hOldEntry (hSame ▸ hSigned)
    · exact hOldEntry (hSame ▸ hSigned)
    · rw [hUpdate] at hSigned
      by_cases hDigest : d = job.txDigest
      · rw [hDigest, Function.update_self, Option.some.injEq] at hSigned
        subst hSigned
        exact ⟨id, job.unsigned, job.tx, job.active, hReq.trans (congrArg some hJob.request),
          hJob.decodes, hDigest ▸ hJob.digest.symm, hActive.trans hJob.active, hBody⟩
      · rw [Function.update_of_ne hDigest] at hSigned
        exact hOldEntry hSigned
  · -- the log counts the entries of the cache: one more where the entry is new
    intro d
    obtain ⟨hOnce, hNone⟩ := h.once d
    rw [World.settle_log, World.settle_shared, cachedCount_append]
    rcases ht.change with ⟨-, hSame, hEffects⟩ | ⟨-, hSame, -, hEffects⟩ |
      ⟨job, response, -, -, hFresh, -, hUpdate, -, hEffects⟩
    · rw [countP_cached_eq_zero (hEffects d), hSame]
      exact ⟨hOnce, hNone⟩
    · rw [hEffects, hSame]
      exact ⟨hOnce, hNone⟩
    · rw [hEffects, hUpdate]
      by_cases hDigest : d = job.txDigest
      · subst hDigest
        have hZero := hNone hFresh
        simp [hZero]
      · rw [Function.update_of_ne hDigest,
          countP_cached_eq_zero (by simpa using hDigest)]
        exact ⟨hOnce, hNone⟩

/-- The invariant holds in every state of every run. -/
theorem reach_inv {active : Option PubkeySec1} {w : ApiWorld}
    (hReach : (service A).Reach (World.init ⟨active, fun _ => none, false⟩) w) : Inv A w := by
  refine hReach.induct (Inv.init active) ?_ ?_ ?_
  · -- a new handler, which holds no lock
    intro w id req inp _ hInv hFresh
    refine (hInv.setRequest hFresh).settle (World.setRequest_self w id req)
      (enter_spec w.shared req) ?_
    rintro i q - - ⟨r, hNone, -⟩
    simp at hNone
  · -- a later turn: whoever else holds the lock is nobody else
    intro w id p out t hPre hInv hTask hRes
    obtain ⟨req, hReq, hOk⟩ := hInv.task id p hTask
    refine hInv.settle hReq (resume_spec hOk hRes) ?_
    rintro i q hNe hOther ⟨r, hEq, hHolds⟩
    obtain rfl := Option.some.inj hEq
    by_contra hq
    have hOwned := (service_tryLock.owner rfl hPre).1
    exact hNe (hOwned.unique hOther (by simpa using hq) hTask hHolds)
  · -- a handler that is dropped frees its lock and leaves key and cache
    intro w id p _ hInv hTask
    have hActive : ((service A).drop w.shared p).active = w.shared.active := by
      show (if p.holds then _ else _ : SignerCell).active = _
      split <;> rfl
    have hSigned : ((service A).drop w.shared p).signed = w.shared.signed := by
      show (if p.holds then _ else _ : SignerCell).signed = _
      split <;> rfl
    refine ⟨?_, ?_, ?_, ?_⟩
    · intro i q hTask'
      obtain ⟨req, hReq, hOk⟩ := hInv.task i q (World.dropTask_tasks_cases hTask').2
      exact ⟨req, hReq, hOk.congr hActive hSigned⟩
    · intro i a hAns
      obtain ⟨req, hReq, hOk⟩ := hInv.answered i a hAns
      refine ⟨req, hReq, ?_⟩
      intro response hEq
      obtain ⟨unsigned, tx, hReq', hDecodes, hCached⟩ := hOk response hEq
      exact ⟨unsigned, tx, hReq', hDecodes, hSigned ▸ hCached⟩
    · intro d response hCached
      rw [World.dropTask_shared, hSigned] at hCached
      obtain ⟨i, unsigned, tx, active, hReq, hDecodes, hHash, hKey, hBody⟩ :=
        hInv.cache d response hCached
      exact ⟨i, unsigned, tx, active, hReq, hDecodes, hHash, hActive.trans hKey, hBody⟩
    · intro d
      rw [World.dropTask_log, World.dropTask_shared, hSigned]
      exact hInv.once d

/-- Once the key is set no run changes it. -/
theorem active_stable {active : Option PubkeySec1} {w w' : ApiWorld} {publicKey : PubkeySec1}
    (hReach : (service A).Reach (World.init ⟨active, fun _ => none, false⟩) w)
    (hLater : (service A).Reach w w') (hActive : w.shared.active = some publicKey) :
    w'.shared.active = some publicKey := by
  refine hLater.induct hActive ?_ ?_ ?_
  · intro w id req inp _ hKey _
    exact (enter_spec w.shared req).change.active_mono hKey
  · intro w₁ id p out t hPre hKey hTask hRes
    obtain ⟨req, -, hOk⟩ := (reach_inv (hReach.trans hPre)).task id p hTask
    exact (resume_spec hOk hRes).change.active_mono hKey
  · intro w id p _ hKey _
    show (if p.holds then _ else _ : SignerCell).active = _
    split <;> exact hKey

-- ---------------------------------------------------------------------------
-- Sign responses
-- ---------------------------------------------------------------------------

/-- `bytes` was sent to `/v1/sign`. -/
def Submitted (w : ApiWorld) (bytes : Bytes) : Prop :=
  ∃ id, w.requests id = some (.sign .Ethereum bytes)

/-- Byte strings with one digest are one transaction, where the hash separates
them. -/
theorem Decodes.unique (hA : A.Canonical) {bytes bytes' : Bytes} {tx tx' : Eth.EthTx}
    (hHash : A.keccak256 bytes = A.keccak256 bytes' → bytes = bytes')
    (h : Decodes A bytes tx) (h' : Decodes A bytes' tx')
    (hDigest : tx.signatureHash A = tx'.signatureHash A) : tx = tx' := by
  obtain ⟨⟨p, hDecode, rfl⟩, -⟩ := h
  obtain ⟨⟨p', hDecode', rfl⟩, -⟩ := h'
  have hRaw := (Eth.encode_decodeUnsigned hA hDecode).1
  have hRaw' := (Eth.encode_decodeUnsigned hA hDecode').1
  rw [Eth.signatureHash_eq hA, Eth.signatureHash_eq hA, hRaw, hRaw'] at hDigest
  have hBytes := hHash hDigest
  subst hBytes
  rw [hDecode, Except.ok.injEq] at hDecode'
  rw [hDecode']

/-- A 200 body of sign is the cached one, under the digest it carries. -/
theorem Inv.served {w : ApiWorld} (h : Inv A w) {id : Nat} {response : SignResponse}
    (hAns : w.answers id = some (.ok (.sign response))) :
    ∃ unsigned tx, w.requests id = some (.sign .Ethereum unsigned) ∧ Decodes A unsigned tx ∧
      w.shared.signed (tx.signatureHash A) = some response ∧
      response.txDigest = tx.signatureHash A := by
  obtain ⟨req, hReq, hOk⟩ := h.answered id _ hAns
  obtain ⟨unsigned, tx, rfl, hDecodes, hCached⟩ := hOk response rfl
  obtain ⟨_, _, tx', _, _, _, hHash, _, hBody⟩ := h.cache _ _ hCached
  exact ⟨unsigned, tx, hReq, hDecodes, hCached, hBody.1.trans hHash⟩

/-- **Sign responses are correct and idempotent over every interleaving.** In
every state of every run, whatever the backend answers: at most one handler has
a backend operation in flight; the key, once set, stays; every 200 body of sign
carries the signature hash of the transaction its bytes decode to and that
transaction's signed form by a signature that recovers to the key's address
(keccak256 having no collision among the submitted bytes); and the bodies for
one digest are one body, from the one successful backend result cached for it. -/
theorem sign_responses_idempotent (hA : A.Canonical) {active : Option PubkeySec1} {w : ApiWorld}
    (hReach : (service A).Reach (World.init ⟨active, fun _ => none, false⟩) w) :
    (∀ i j p q, w.tasks i = some p → p.inFlight = true → w.tasks j = some q →
      q.inFlight = true → i = j) ∧
    (∀ w' publicKey, (service A).Reach w w' → w.shared.active = some publicKey →
      w'.shared.active = some publicKey) ∧
    ((∀ b b', Submitted w b → Submitted w b' → A.keccak256 b = A.keccak256 b' → b = b') →
      ∀ id bytes response, w.requests id = some (.sign .Ethereum bytes) →
        w.answers id = some (.ok (.sign response)) →
        ∃ tx publicKey, Decodes A bytes tx ∧ w.shared.active = some publicKey ∧
          BodyOk A publicKey tx response) ∧
    (∀ i j response response', w.answers i = some (.ok (.sign response)) →
      w.answers j = some (.ok (.sign response')) → response.txDigest = response'.txDigest →
      response = response') ∧
    (∀ d, cachedCount d w.log ≤ 1) := by
  have hInv := reach_inv hReach
  have hOwned := (service_tryLock.owner rfl hReach).1
  have hHolds : ∀ p : Pending, p.inFlight = true → p.holds = true := by
    intro p hp
    match p with
    | .dkgBackend | .recoverBackend _ | .signBackend _ => rfl
  refine ⟨?_, ?_, ?_, ?_, fun d => (hInv.once d).1⟩
  · -- who waits for the backend holds the lock, and the lock has one owner
    intro i j p q hi hp hj hq
    exact hOwned.unique hi (hHolds p hp) hj (hHolds q hq)
  · intro w' publicKey hLater hActive
    exact active_stable hReach hLater hActive
  · intro hHash id bytes response hReq hAns
    obtain ⟨bytes', tx, hReq', hDecodes, hCached, -⟩ := hInv.served hAns
    rw [hReq, Option.some.injEq, Request.sign.injEq] at hReq'
    obtain ⟨-, rfl⟩ := hReq'
    -- the entry may stem from another request for the same digest
    obtain ⟨id', bytes'', tx', publicKey, hReq'', hDecodes', hDigest, hActive, hBody⟩ :=
      hInv.cache _ _ hCached
    have hTx : tx' = tx :=
      Decodes.unique hA (hHash bytes'' bytes ⟨id', hReq''⟩ ⟨id, hReq⟩) hDecodes' hDecodes hDigest
    subst hTx
    exact ⟨tx', publicKey, hDecodes, hActive, hBody⟩
  · -- both are what the cache holds under that digest
    intro i j response response' hi hj hDigest
    obtain ⟨_, tx, _, _, hCached, hHash⟩ := hInv.served hi
    obtain ⟨_, tx', _, _, hCached', hHash'⟩ := hInv.served hj
    rw [← hHash, hDigest, hHash', hCached', Option.some.injEq] at hCached
    exact hCached.symm

namespace Sample

/-- The transfer, unsigned. -/
def unsigned : Bytes := Eth.encodeUnsigned Eth.Sample.alloy (.Eip1559 Eth.Sample.tx)

/-- Two sign requests for one transfer race past the cache; the second loses
the lock, the first signs, and a third is served from the cache. -/
def events : List (Event Request Unit Outcome) :=
  [.receive 0 (.sign .Ethereum unsigned) (), .receive 1 (.sign .Ethereum unsigned) (),
    .resume 0 .tick, .resume 1 .tick, .resume 0 .tick,
    .resume 0 (.parts (.ok [⟨Eth.Sample.lowS.r, Eth.Sample.lowS.s, Eth.Sample.lowS.v⟩])),
    .resume 0 .tick, .receive 2 (.sign .Ethereum unsigned) (), .resume 0 .tick]

/-- A process that has its key. -/
def start : ApiWorld := World.init ⟨some Eth.Sample.pubkey, fun _ => none, false⟩

theorem events_run : ((service Eth.Sample.alloy).machine.run start events).isSome = true := by
  decide +kernel

/-- The process after the race. -/
def world : ApiWorld := ((service Eth.Sample.alloy).machine.run start events).get events_run

/-- The one body it has for the transfer. -/
def response : SignResponse where
  network := .Ethereum
  signedTransaction := Eth.Sample.rawOf Eth.Sample.lowS
  signatures := [⟨Eth.Sample.lowS.r, Eth.Sample.lowS.s, Eth.Sample.lowS.v⟩]
  signerAddress := hexEncode Eth.Sample.sender.bytes
  txDigest := Eth.Sample.signingHash

end Sample

/-- The race answers once from the backend and once from the cache, with one
body that recovers to the active key. -/
theorem sign_responses_idempotent_race :
    Sample.world.answers 0 = some (.ok (.sign Sample.response)) ∧
    Sample.world.answers 1 = some (.error .SigningInProgress) ∧
    Sample.world.answers 2 = some (.ok (.sign Sample.response)) ∧
    cachedCount Eth.Sample.signingHash Sample.world.log ≤ 1 ∧
    ∃ tx publicKey, Decodes Eth.Sample.alloy Sample.unsigned tx ∧
      Sample.world.shared.active = some publicKey ∧
      BodyOk Eth.Sample.alloy publicKey tx Sample.response := by
  have hRun : (service Eth.Sample.alloy).Reach Sample.start Sample.world :=
    Machine.reach_of_run (Option.some_get Sample.events_run).symm
  obtain ⟨-, -, hBodies, -, hOnce⟩ :=
    sign_responses_idempotent Eth.rlpAlloy_canonical hRun
  have hFirst : Sample.world.answers 0 = some (.ok (.sign Sample.response)) := by
    decide +kernel
  refine ⟨hFirst, by decide +kernel, by decide +kernel, hOnce _, ?_⟩
  refine hBodies ?_ 0 Sample.unsigned Sample.response (by decide +kernel) hFirst
  have hOnly : ∀ {b}, Submitted Sample.world b → b = Sample.unsigned := by
    rintro b ⟨id, hReq⟩
    rcases Service.run_requests (Option.some_get Sample.events_run).symm hReq with hOld | ⟨_, hMem⟩
    · simp [Sample.start, World.init] at hOld
    · simp only [Sample.events, List.mem_cons, Event.receive.injEq, Request.sign.injEq,
        reduceCtorEq, false_or, List.not_mem_nil, or_false] at hMem
      rcases hMem with ⟨-, ⟨-, hEq⟩, -⟩ | ⟨-, ⟨-, hEq⟩, -⟩ | ⟨-, ⟨-, hEq⟩, -⟩ <;> exact hEq
  intro b b' hb hb' _
  rw [hOnly hb, hOnly hb']

end Sovra.Api
