import Sovra.Carbon.Ceremonies
import Sovra.Cosigner.Sealing

/-!
# Sovra — a cosigner that crashes

The service of `Cosigner.Service` in a process that may die at any time, also
inside `save_shard`, and is started again on what the directory holds. A write
that fails or is cut off may leave anything in its temporary file; a rename
happens or does not. What a runner returns is what its script can end with.

* `step_inv` — one step keeps the two files consistent, and the key.
* `identity_consistent` — the shard and the key stored with it, in every run.
-/

namespace Sovra.Cosigner

open Lib Mpc State Ipc Carbon

/-- What befalls the process: its service goes on; it dies between two turns, or
after some of the file-system steps of a save; or a temporary file is left with
whatever was written. -/
inductive Incident
  | serve (e : Event Request Faults Outcome)
  | crash
  | crashInSave (id : Nat) (share : KeyShare) (publicKey : PubkeySec1) (nonce : Bytes)
      (steps : Nat)
  | debris (tmpMetadata : Option SignerMetadata) (tmpShard : Option Bytes)

/-- The handlers that end in `save_shard`. -/
def Pending.saves {C : Crypto} : Pending C → Bool
  | .dkgRun _ | .refreshRun _ _ _ => true
  | _ => false

/-- The store's metadata for a key. -/
def activeMetadata (publicKey : PubkeySec1) : SignerMetadata := ⟨activeSignerId, publicKey⟩

section

variable (A : Eth.Alloy) (D : Dkls) {C : Crypto} (st : CosignerState C)

/-- A process started on a directory. -/
def started (dir : ShardDir) : World OpState Request (Pending C) Answer Effect :=
  World.init ⟨dir, false⟩

/-- The service, on this library's shards. -/
def cosigner : Service OpState Request Faults (Pending C) Outcome Answer Effect :=
  service A st (publicKeyOf D.party D.view)

/-- What an incident does. A process that dies loses its handlers and its lock; the
files are what its save had got to. -/
def incident (w : World OpState Request (Pending C) Answer Effect) :
    Incident → Option (World OpState Request (Pending C) Answer Effect)
  | .serve e => (cosigner A D st).step w e
  | .crash => some (started w.shared.dir)
  | .crashInSave id share publicKey nonce steps =>
    (w.tasks id).bind fun p =>
      if p.saves then
        some (started (w.shared.dir.cut (activeMetadata publicKey)
          (st.sealer.sealBytes nonce share.bytes) steps))
      else none
  | .debris tmpMetadata tmpShard =>
    some { w with shared := { w.shared with dir := { w.shared.dir with tmpMetadata, tmpShard } } }

/-- The process as a transition system. -/
def crashing : Machine (World OpState Request (Pending C) Answer Effect) Incident :=
  ⟨incident A D st⟩

end

-- ---------------------------------------------------------------------------
-- What runs and reads may come to
-- ---------------------------------------------------------------------------

section

variable (D : Dkls) (text : UInt8 → UInt8 → String) {C : Crypto}

/-- What the runner a handler waits for can return, on some library and whatever
the peers send. -/
def RunnerYields : Pending C → KeyShare × PubkeySec1 → Prop
  | .dkgRun ctx, r => ∃ (S : Type) (L : DkgPhases D S), (keygenParty D text L ctx).Yields r
  | .refreshRun req ctx oldShare, r =>
    ∃ L : RefreshPhases D, (refreshParty D text L ctx oldShare req.publicKey).Yields r
  | _, _ => False

/-- Reads find what is there, and a run that succeeds ends as its runner can. -/
def Plausible (w : World OpState Request (Pending C) Answer Effect) : Incident → Prop
  | .serve (.receive _ _ faults) => faults.Present
  | .serve (.resume id (.shard (some (.ok r)) _ _)) =>
    ∀ p, w.tasks id = some p → RunnerYields D text p r
  | .crashInSave id share publicKey _ _ =>
    ∀ p, w.tasks id = some p → RunnerYields D text p (share, publicKey)
  | _ => True

end

-- ---------------------------------------------------------------------------
-- The directory
-- ---------------------------------------------------------------------------

/-- The sealer opens what it sealed. -/
def Opens (sealer : ShardSealer) : Prop :=
  ∀ {nonce plaintext sealed}, sealer.sealBytes nonce plaintext = .ok sealed →
    sealer.openBytes sealed = .ok plaintext

/-- An unsealed shard opens to itself. -/
theorem passthrough_opens : Opens passthrough := fun h => h.symm

/-- A sealed shard opens to what was sealed. -/
theorem xchacha_opens {X : XChaCha20Poly1305} (hX : X.RoundTrips) (key : B256) :
    Opens (xchachaSealer X key) := xchacha_roundTrip hX

/-- What is stored is whole: metadata of the active signer, and a shard only as a
sealed share of the metadata's key. -/
structure Sound (D : Dkls) (sealer : ShardSealer) (dir : ShardDir) : Prop where
  active : ∀ metadata, dir.metadata = some metadata →
    metadata = activeMetadata metadata.publicKey
  keyed : ∀ sealed, dir.shard = some sealed → ∃ metadata nonce share,
    dir.metadata = some metadata ∧ sealer.sealBytes nonce share.bytes = .ok sealed ∧
      publicKeyOf D.party D.view share = .ok metadata.publicKey

/-- Metadata never changes and a shard never goes away. -/
structure Keeps (dir dir' : ShardDir) : Prop where
  metadata : ∀ metadata, dir.metadata = some metadata → dir'.metadata = some metadata
  shard : dir.shard.isSome = true → dir'.shard.isSome = true

theorem Keeps.refl (dir : ShardDir) : Keeps dir dir := ⟨fun _ h => h, fun h => h⟩

theorem Keeps.trans {dir dir' dir'' : ShardDir} (h : Keeps dir dir') (h' : Keeps dir' dir'') :
    Keeps dir dir'' :=
  ⟨fun m hm => h'.metadata m (h.metadata m hm), fun hs => h'.shard (h.shard hs)⟩

section

variable {D : Dkls} {sealer : ShardSealer} {dir : ShardDir}

/-- A store without files has nothing wrong with it. -/
theorem Sound.empty : Sound D sealer .empty where
  active _ h := nomatch h
  keyed _ h := nomatch h

/-- A sealed share is loaded as it was saved. -/
theorem loadShard_of_sealed (hOpens : Opens sealer) {sealed nonce : Bytes} {share : KeyShare}
    (hShard : dir.shard = some sealed) (hSealed : sealer.sealBytes nonce share.bytes = .ok sealed) :
    loadShard sealer dir none = .ok share := by
  simp only [loadShard, hShard, readOrNotFound, bind_eq_ok, pure_eq_ok]
  exact ⟨sealed, rfl, share.bytes, hOpens hSealed, rfl⟩

/-- A share that is loaded was found and opened. -/
theorem loadShard_ok {fault : Option StateError} {share : KeyShare}
    (h : loadShard sealer dir fault = .ok share) :
    fault = none ∧ ∃ sealed, dir.shard = some sealed ∧ sealer.openBytes sealed = .ok share.bytes := by
  simp only [loadShard, bind_eq_ok, pure_eq_ok] at h
  obtain ⟨sealed, hRead, plaintext, hOpen, rfl⟩ := h
  rcases fault with _ | e
  · rcases hShard : dir.shard with _ | content
    · simp [hShard, readOrNotFound] at hRead
    · rw [hShard] at hRead
      obtain rfl := Except.ok.inj hRead
      exact ⟨rfl, content, rfl, hOpen⟩
  · simp [readOrNotFound] at hRead

/-- A shard that loads is of the stored key. -/
theorem Sound.loaded (h : Sound D sealer dir) (hOpens : Opens sealer) {fault : Option StateError}
    {share : KeyShare} (hLoad : loadShard sealer dir fault = .ok share) :
    ∃ metadata, dir.metadata = some metadata ∧
      publicKeyOf D.party D.view share = .ok metadata.publicKey := by
  obtain ⟨-, sealed, hShard, hOpen⟩ := loadShard_ok hLoad
  obtain ⟨metadata, nonce, found, hMetadata, hSealed, hKey⟩ := h.keyed sealed hShard
  have hSame : found.bytes = share.bytes := Except.ok.inj ((hOpens hSealed).symm.trans hOpen)
  obtain ⟨bytes⟩ := found
  obtain rfl : bytes = share.bytes := hSame
  exact ⟨metadata, hMetadata, hKey⟩

end

-- ---------------------------------------------------------------------------
-- What a suspended handler has seen
-- ---------------------------------------------------------------------------

/-- What a suspended handler read of the directory; the op lock keeps it true. -/
def Grounded {C : Crypto} (sealer : ShardSealer) (dir : ShardDir) : Pending C → Prop
  | .dkgDial _ | .dkgRun _ => dir.metadata = none
  | .refreshDial _ _ oldShare | .refreshRun _ _ oldShare => loadShard sealer dir none = .ok oldShare
  | .signDial _ _ _ | .signRun _ _ _ => True

section

variable {D : Dkls} {text : UInt8 → UInt8 → String} {A : Eth.Alloy} {C : Crypto}
  {st : CosignerState C} {dir : ShardDir} {faults : Faults} {p : Pending C}

/-- What a run returns while its handler's view still holds: a share of its own
key, and of the metadata's if there is any. -/
theorem Sound.runner (h : Sound D st.sealer dir) (hOpens : Opens st.sealer)
    (hCodec : D.party.RoundTrips) (hGrounded : Grounded st.sealer dir p) {share : KeyShare}
    {publicKey : PubkeySec1} (hRun : RunnerYields D text p (share, publicKey)) :
    publicKeyOf D.party D.view share = .ok publicKey ∧
      (∀ metadata, dir.metadata = some metadata → metadata = activeMetadata publicKey) := by
  match p with
  | .dkgRun ctx =>
    obtain ⟨S, L, hYields⟩ := hRun
    have hNone : dir.metadata = none := hGrounded
    refine ⟨keygen_yields hCodec hYields, ?_⟩
    intro metadata hMetadata
    simp [hNone] at hMetadata
  | .refreshRun req ctx oldShare =>
    obtain ⟨L, hYields⟩ := hRun
    obtain ⟨hOld, rfl, hNew⟩ := refresh_yields hCodec hYields
    obtain ⟨metadata, hMetadata, hStored⟩ := h.loaded hOpens hGrounded
    have hSame : metadata.publicKey = req.publicKey := Except.ok.inj (hStored.symm.trans hOld)
    refine ⟨hNew, ?_⟩
    intro found hFound
    obtain rfl := Option.some.inj (hMetadata.symm.trans hFound)
    rw [h.active metadata hMetadata, hSame]
  | .dkgDial _ | .refreshDial _ _ _ | .signDial _ _ _ | .signRun _ _ _ => exact hRun.elim

/-- The metadata a save writes, over a shard that stays. -/
theorem Sound.renamed {dir' : ShardDir} (h : Sound D st.sealer dir) {publicKey : PubkeySec1}
    (hOld : ∀ metadata, dir.metadata = some metadata → metadata = activeMetadata publicKey)
    (hm : dir'.metadata = some (activeMetadata publicKey)) (hs : dir'.shard = dir.shard) :
    Sound D st.sealer dir' where
  active metadata hFound := by
    obtain rfl := Option.some.inj (hm.symm.trans hFound)
    rfl
  keyed sealed hFound := by
    obtain ⟨metadata, nonce, share, hAt, hRest⟩ := h.keyed sealed (hs ▸ hFound)
    obtain rfl := hOld metadata hAt
    exact ⟨_, nonce, share, hm, hRest⟩

/-- **A save keeps the store whole and its key**, wherever it stops: a first
shard meets an empty store, a refreshed one the shard it was made from. -/
theorem Sound.cut (h : Sound D st.sealer dir) (hOpens : Opens st.sealer)
    (hCodec : D.party.RoundTrips) (hGrounded : Grounded st.sealer dir p) {share : KeyShare}
    {publicKey : PubkeySec1} (hRun : RunnerYields D text p (share, publicKey)) (nonce : Bytes)
    (steps : Nat) :
    let dir' := dir.cut (activeMetadata publicKey) (st.sealer.sealBytes nonce share.bytes) steps
    Sound D st.sealer dir' ∧ Keeps dir dir' := by
  intro dir'
  obtain ⟨hNew, hOld⟩ := h.runner hOpens hCodec hGrounded hRun
  have hKept : dir'.metadata = some (activeMetadata publicKey) →
      ∀ metadata, dir.metadata = some metadata → dir'.metadata = some metadata := by
    intro hm metadata hFound
    rw [hOld metadata hFound]
    exact hm
  have hFiles := cut_files dir (activeMetadata publicKey)
    (st.sealer.sealBytes nonce share.bytes) steps
  rcases hFiles with ⟨hm, hs⟩ | ⟨hm, hs⟩ | ⟨content, hSealed, hm, hs⟩
  · -- neither file was replaced
    refine ⟨⟨?_, ?_⟩, fun metadata hFound => hm.trans hFound, fun hSome => by rwa [hs]⟩
    · intro metadata hFound
      exact h.active metadata (hm ▸ hFound)
    · intro sealed hFound
      obtain ⟨metadata, nonce', share', hAt, hRest⟩ := h.keyed sealed (hs ▸ hFound)
      exact ⟨metadata, nonce', share', hm.trans hAt, hRest⟩
  · exact ⟨h.renamed hOld hm hs, hKept hm, fun hSome => by rwa [hs]⟩
  · -- both were
    refine ⟨⟨?_, ?_⟩, hKept hm, fun _ => by rw [hs]; rfl⟩
    · intro metadata hFound
      obtain rfl := Option.some.inj (hm.symm.trans hFound)
      rfl
    · intro sealed hFound
      obtain rfl := Option.some.inj (hs.symm.trans hFound)
      exact ⟨_, nonce, share, hm, hSealed, hNew⟩

-- ---------------------------------------------------------------------------
-- One turn
-- ---------------------------------------------------------------------------

/-- A guarded turn does not touch the store. -/
theorem guarded_dir (s : OpState) (next : Except CosignerError (Reply ⊕ Pending C)) :
    (guarded s next).shared.dir = s.dir := by
  rcases next with e | reply | p <;> rfl

/-- A guarded turn goes on only if the handler does. -/
theorem guarded_next {s : OpState} {next : Except CosignerError (Reply ⊕ Pending C)}
    (h : (guarded s next).next = .inr p) : next = .ok (.inr p) := by
  rcases next with e | reply | q
  · simp [guarded, Turn.answer] at h
  · simp [guarded, Turn.answer] at h
  · rw [Sum.inr.inj h]

/-- Taking the lock does not touch the store. -/
theorem tryLock_dir (s : OpState) (first : Except CosignerError (Reply ⊕ Pending C)) :
    (tryLock s first).shared.dir = s.dir := by
  unfold tryLock
  split
  · rfl
  · exact guarded_dir s first

/-- A handler that goes on past the lock has got it. -/
theorem tryLock_next {s : OpState} {first : Except CosignerError (Reply ⊕ Pending C)}
    (h : (tryLock s first).next = .inr p) : first = .ok (.inr p) := by
  unfold tryLock at h
  split at h
  · simp [Turn.answer] at h
  · exact guarded_next h

/-- A key generation goes on only where no metadata is. -/
theorem dkg_grounded (hPresent : faults.Present) {req : StartDkgRequest}
    (h : dkg st dir faults req = .ok (.inr p)) : Grounded st.sealer dir p := by
  unfold dkg at h
  split at h
  · simp at h
  · rename_i id hRead
    simp only [bind_eq_ok, pure_eq_ok, Sum.inr.injEq] at h
    obtain ⟨ctx, -, -, -, rfl⟩ := h
    rcases hMetadata : dir.metadata with _ | metadata
    · exact hMetadata
    · exact absurd hRead (loadMetadata_present hPresent hMetadata id)
  · simp at h

/-- A refresh goes on with the shard it read. -/
theorem refresh_grounded {req : StartRefreshRequest}
    (h : refresh st dir faults req = .ok (.inr p)) : Grounded st.sealer dir p := by
  simp only [refresh, bind_eq_ok, pure_eq_ok, Sum.inr.injEq] at h
  obtain ⟨ctx, -, -, -, oldShare, hLoad, rfl⟩ := h
  simp only [CosignerState.loadShardOr, mapError_eq_ok] at hLoad
  obtain ⟨hFault, -⟩ := loadShard_ok hLoad
  rw [hFault] at hLoad
  exact hLoad

/-- A signing that goes on promises nothing about the store. -/
theorem signNext_grounded {job : SignJob} (h : signNext A st job = .ok (.inr p)) :
    Grounded st.sealer dir p := by
  unfold signNext at h
  split at h
  · simp at h
  · simp only [bind_eq_ok, pure_eq_ok, Sum.inr.injEq] at h
    obtain ⟨ctx, -, rfl⟩ := h
    exact trivial

/-- A first turn leaves the directory and has seen what it waits on. -/
theorem enter_grounded (hPresent : faults.Present)
    (keyOf : KeyShare → Except MpcError PubkeySec1) (s : OpState) (req : Request) :
    (enter A st keyOf s req faults).shared.dir = s.dir ∧
      ∀ p, (enter A st keyOf s req faults).next = .inr p → Grounded st.sealer s.dir p := by
  match req with
  | .dkg req => exact ⟨tryLock_dir s _, fun p h => dkg_grounded hPresent (tryLock_next h)⟩
  | .refresh req => exact ⟨tryLock_dir s _, fun p h => refresh_grounded (tryLock_next h)⟩
  | .sign req =>
    refine ⟨tryLock_dir s _, fun p h => ?_⟩
    have hFirst := tryLock_next h
    simp only [sign, bind_eq_ok] at hFirst
    obtain ⟨_, -, _, -, _, -, _, -, hNext⟩ := hFirst
    exact signNext_grounded hNext
  | .pubkey => exact ⟨rfl, fun p h => nomatch h⟩
  | .signer => exact ⟨rfl, fun p h => nomatch h⟩

/-- A later turn leaves the directory and goes on as grounded as before, or ends
in a save. -/
theorem resume_turn {s : OpState} {out : Outcome} {t : Turn OpState (Pending C) Answer Effect}
    (h : resume A st s p out = some t) :
    (t.shared.dir = s.dir ∧
      ∀ q, t.next = .inr q → Grounded st.sealer s.dir p → Grounded st.sealer s.dir q) ∨
    ∃ share publicKey nonce stop steps, out = .shard (some (.ok (share, publicKey))) nonce stop ∧
      t.shared.dir = s.dir.cut (activeMetadata publicKey)
        (st.sealer.sealBytes nonce share.bytes) steps ∧
      ∀ q, t.next ≠ .inr q := by
  -- a handler whose dial succeeds goes on to the run it dialed for
  have hDial : ∀ {result : Except String Unit} {run q : Pending C},
      (guarded s (afterDial result run)).next = .inr q → q = run := by
    intro result run q hNext
    have hDialed := guarded_next hNext
    simp only [afterDial, bind_eq_ok, pure_eq_ok, Sum.inr.injEq] at hDialed
    obtain ⟨-, -, rfl⟩ := hDialed
    rfl
  -- a handler whose run succeeds saves the result; in all other ways it just ends
  have hSave : ∀ {result : RunEnd (KeyShare × PubkeySec1)} {nonce : Bytes}
      {stop : Option (Nat × StateError)}, out = .shard result nonce stop →
      t = guarded (saveResult (C := C) st s result nonce stop).1
        (saveResult st s result nonce stop).2 →
      (t.shared.dir = s.dir ∧
        ∀ q, t.next = .inr q → Grounded st.sealer s.dir p → Grounded st.sealer s.dir q) ∨
      ∃ share publicKey nonce stop steps,
        out = .shard (some (.ok (share, publicKey))) nonce stop ∧
        t.shared.dir = s.dir.cut (activeMetadata publicKey)
          (st.sealer.sealBytes nonce share.bytes) steps ∧
        ∀ q, t.next ≠ .inr q := by
    rintro result nonce stop rfl rfl
    rcases result with _ | e | ⟨share, publicKey⟩
    · refine Or.inl ⟨rfl, fun q hNext => ?_⟩
      cases hNext
    · refine Or.inl ⟨rfl, fun q hNext => ?_⟩
      cases hNext
    · obtain ⟨steps, hCut⟩ := save_cut s.dir (activeMetadata publicKey)
        (st.sealer.sealBytes nonce share.bytes) stop
      refine Or.inr ⟨share, publicKey, nonce, stop, steps, rfl, ?_, ?_⟩
      · rw [guarded_dir, ← hCut]
        rfl
      · intro q hNext
        have hEnd := guarded_next hNext
        simp only [saveResult, runResult, bind_eq_ok, pure_eq_ok, reduceCtorEq, and_false,
          exists_false] at hEnd
  unfold resume at h
  split at h
  -- an outcome of another await is no turn at all
  case h_7 => simp at h
  case h_4 ctx result nonce stop => exact hSave rfl (Option.some.inj h).symm
  case h_5 req ctx oldShare result nonce stop => exact hSave rfl (Option.some.inj h).symm
  -- a signing goes on to its next digest
  case h_6 job ctx digest result =>
    obtain rfl := Option.some.inj h
    refine Or.inl ⟨guarded_dir s _, fun q hNext _ => ?_⟩
    have hAfter := guarded_next hNext
    simp only [afterSign, bind_eq_ok] at hAfter
    obtain ⟨parts, -, hLoop⟩ := hAfter
    exact signNext_grounded hLoop
  all_goals
    obtain rfl := Option.some.inj h
    exact Or.inl ⟨guarded_dir s _, fun q hNext hSeen => hDial hNext ▸ hSeen⟩

end

-- ---------------------------------------------------------------------------
-- Runs
-- ---------------------------------------------------------------------------

/-- Between two steps: the store is whole, the op lock has its owner, and what a
suspended handler saw still holds. -/
structure Inv (D : Dkls) {C : Crypto} (st : CosignerState C)
    (w : World OpState Request (Pending C) Answer Effect) : Prop where
  sound : Sound D st.sealer w.shared.dir
  owned : Service.Owned OpState.op (fun _ => true) w ∧
    ∀ id p, w.tasks id = some p → (w.requests id).isSome
  grounded : ∀ id p, w.tasks id = some p → Grounded st.sealer w.shared.dir p

section

variable {D : Dkls} {text : UInt8 → UInt8 → String} {A : Eth.Alloy} {C : Crypto}
  {st : CosignerState C} {w w' : World OpState Request (Pending C) Answer Effect}

/-- A process starts without handlers. -/
theorem Inv.started {dir : ShardDir} (h : Sound D st.sealer dir) :
    Inv D st (started dir : World OpState Request (Pending C) Answer Effect) where
  sound := h
  owned := ⟨Service.Owned.init rfl, fun _ _ hTask => nomatch hTask⟩
  grounded _ _ hTask := nomatch hTask

/-- One step of the service. -/
theorem Inv.serve (h : Inv D st w) (hOpens : Opens st.sealer) (hCodec : D.party.RoundTrips)
    {e : Event Request Faults Outcome} (hPlausible : Plausible D text w (.serve e))
    (hStep : (cosigner A D st).step w e = some w') :
    Inv D st w' ∧ Keeps w.shared.dir w'.shared.dir := by
  have hOwned := service_tryLock.step h.owned hStep
  -- A step that leaves the directory has only to say what its own task saw.
  have hSame : w'.shared.dir = w.shared.dir →
      (∀ id p, w'.tasks id = some p → Grounded st.sealer w.shared.dir p) →
      Inv D st w' ∧ Keeps w.shared.dir w'.shared.dir := by
    intro hDir hTasks
    refine ⟨⟨hDir ▸ h.sound, hOwned, fun id p hTask => hDir ▸ hTasks id p hTask⟩, ?_⟩
    rw [hDir]
    exact Keeps.refl _
  obtain ⟨id, req, faults, rfl, -, rfl⟩ | ⟨id, out, p, t, rfl, hTask, hTurn, rfl⟩ |
    ⟨id, p, rfl, -, rfl⟩ := Service.step_cases hStep
  · have hEntered : (enter A st (publicKeyOf D.party D.view) w.shared req faults).shared.dir =
        w.shared.dir ∧ ∀ p, (enter A st (publicKeyOf D.party D.view) w.shared req faults).next =
          .inr p → Grounded st.sealer w.shared.dir p := enter_grounded hPlausible _ _ _
    obtain ⟨hDir, hNext⟩ := hEntered
    refine hSame hDir ?_
    intro i q hTask
    rcases World.settle_tasks_cases hTask with ⟨-, hNew⟩ | ⟨-, hOld⟩
    · exact hNext q hNew
    · exact h.grounded i q hOld
  · rcases resume_turn hTurn with ⟨hDir, hNext⟩ |
      ⟨share, publicKey, nonce, stop, steps, rfl, hDir, hEnds⟩
    · refine hSame hDir ?_
      intro i q hTask'
      rcases World.settle_tasks_cases hTask' with ⟨-, hNew⟩ | ⟨-, hOld⟩
      · exact hNext q hNew (h.grounded id p hTask)
      · exact h.grounded i q hOld
    · have hRun : RunnerYields D text p (share, publicKey) := hPlausible p hTask
      obtain ⟨hSound, hKeeps⟩ :=
        h.sound.cut hOpens hCodec (h.grounded id p hTask) hRun nonce steps
      rw [← hDir] at hSound hKeeps
      refine ⟨⟨hSound, hOwned, ?_⟩, hKeeps⟩
      -- The saving handler had the lock, so no other one is suspended.
      intro i q hTask'
      rcases World.settle_tasks_cases hTask' with ⟨-, hNew⟩ | ⟨hNe, hOld⟩
      · exact absurd hNew (hEnds q)
      · exact absurd (h.owned.1.unique hOld rfl hTask rfl) hNe
  · refine hSame rfl ?_
    intro i q hTask
    exact h.grounded i q (World.dropTask_tasks_cases hTask).2

/-- **One step keeps the store whole and its key.** -/
theorem step_inv (h : Inv D st w) (hOpens : Opens st.sealer) (hCodec : D.party.RoundTrips)
    {i : Incident} (hPlausible : Plausible D text w i) (hStep : incident A D st w i = some w') :
    Inv D st w' ∧ Keeps w.shared.dir w'.shared.dir := by
  match i with
  | .serve e => exact h.serve hOpens hCodec hPlausible hStep
  | .crash =>
    obtain rfl := Option.some.inj hStep
    -- between two turns nothing is half written
    exact ⟨Inv.started h.sound, Keeps.refl _⟩
  | .crashInSave id share publicKey nonce steps =>
    obtain ⟨p, hTask, hDies⟩ := Option.bind_eq_some_iff.mp hStep
    split at hDies
    · obtain rfl := Option.some.inj hDies
      -- within a save: the cut keeps the store whole, and the handlers are gone
      have hRun : RunnerYields D text p (share, publicKey) := hPlausible p hTask
      obtain ⟨hSound, hKeeps⟩ :=
        h.sound.cut hOpens hCodec (h.grounded id p hTask) hRun nonce steps
      exact ⟨Inv.started hSound, hKeeps⟩
    · simp at hDies
  | .debris tmpMetadata tmpShard =>
    obtain rfl := Option.some.inj hStep
    -- nothing looks at a temporary
    refine ⟨⟨⟨h.sound.active, h.sound.keyed⟩, ?_, ?_⟩, ?_⟩
    · exact ⟨⟨h.owned.1.exists_iff, h.owned.1.unique⟩, h.owned.2⟩
    · intro id p hTask
      have hOld := h.grounded id p hTask
      rcases p with _ | _ | _ | _ | _ | _ <;> exact hOld
    · exact ⟨fun _ hFound => hFound, fun hSome => hSome⟩

/-- **Run lemma.** Whatever befalls the process, the store is whole and keeps its key. -/
theorem reach_inv (hOpens : Opens st.sealer) (hCodec : D.party.RoundTrips) (h : Inv D st w)
    (hReach : (crashing A D st).Reach (Plausible D text) w w') :
    Inv D st w' ∧ Keeps w.shared.dir w'.shared.dir := by
  refine hReach.invariant ⟨h, Keeps.refl _⟩ ?_
  rintro v i v' ⟨hInv, hKeeps⟩ hPlausible hStep
  obtain ⟨hInv', hStepKeeps⟩ := step_inv hInv hOpens hCodec hPlausible hStep
  exact ⟨hInv', hKeeps.trans hStepKeeps⟩

-- ---------------------------------------------------------------------------
-- What is read
-- ---------------------------------------------------------------------------

/-- A read that succeeds has found the file. -/
theorem readOrNotFound_ok {β : Type} {fault : Option StateError} {file : Option β} {content : β}
    (h : readOrNotFound fault file = .ok content) : fault = none ∧ file = some content := by
  rcases fault with _ | e
  · rcases file with _ | found
    · simp [readOrNotFound] at h
    · exact ⟨rfl, congrArg some (Except.ok.inj h)⟩
  · simp [readOrNotFound] at h

/-- A key is only active with the metadata and a shard that loads. -/
theorem loadActive_some {sealer : ShardSealer} {dir : ShardDir}
    {metaFault shardFault : Option StateError} {publicKey : PubkeySec1}
    (h : loadActive sealer dir metaFault shardFault = .ok (some publicKey)) :
    ∃ metadata share, dir.metadata = some metadata ∧ metadata.publicKey = publicKey ∧
      loadShard sealer dir shardFault = .ok share := by
  -- of all ways to read the two files one ends in a key
  unfold loadActive activeOf at h
  split at h
  · simp at h
  · simp at h
  rename_i metadata hMetadata
  split at h
  · rename_i share hShard
    obtain ⟨-, hFound⟩ := readOrNotFound_ok hMetadata
    exact ⟨metadata, share, hFound, Option.some.inj (Except.ok.inj h), hShard⟩
  · simp at h
  · simp at h

/-- With the metadata there, whatever is read as active is its key. -/
theorem loadActive_kept {sealer : ShardSealer} {dir : ShardDir} {faults : Faults}
    (hPresent : faults.Present) {metadata : SignerMetadata}
    (hMetadata : dir.metadata = some metadata) {active : Option PubkeySec1}
    (h : loadActive sealer dir faults.metadata faults.shard = .ok active) :
    active = some metadata.publicKey := by
  rcases active with _ | publicKey
  · unfold loadActive activeOf at h
    split at h
    · rename_i id hRead
      exact absurd hRead (loadMetadata_present hPresent hMetadata id)
    · simp at h
    · split at h <;> simp at h
  · obtain ⟨found, -, hFound, hKey, -⟩ := loadActive_some h
    obtain rfl := Option.some.inj (hMetadata.symm.trans hFound)
    rw [hKey]

/-- Metadata alone is a partial state. -/
theorem loadActive_halfway (sealer : ShardSealer) {dir : ShardDir} {metadata : SignerMetadata}
    (hMetadata : dir.metadata = some metadata) (hShard : dir.shard = none) :
    loadActive sealer dir none none = .error (.PartialState metadata.publicKey) := by
  have hMeta : loadMetadata dir none = .ok metadata := by
    rw [loadMetadata, hMetadata]
    rfl
  have hMissing : loadShard sealer dir none = .error (.NotFound activeSignerId) := by
    simp only [loadShard, hShard]
    rfl
  unfold loadActive
  rw [hMeta, hMissing]
  rfl

/-- With metadata present a dkg request is refused and changes nothing. -/
theorem dkg_refused {faults : Faults} (hPresent : faults.Present) {s : OpState}
    {metadata : SignerMetadata} (hMetadata : s.dir.metadata = some metadata)
    (keyOf : KeyShare → Except MpcError PubkeySec1) (req : StartDkgRequest) :
    ∃ e, enter A st keyOf s (.dkg req) faults = .answer s (.error e) := by
  -- with the lock free the handler finds metadata; otherwise it is busy
  rcases hOp : s.op with _ | _
  · obtain ⟨e, hRefused⟩ : ∃ e, dkg st s.dir faults req = .error e := by
      unfold dkg
      split
      · exact ⟨_, rfl⟩
      · rename_i id hRead
        exact absurd hRead (loadMetadata_present hPresent hMetadata id)
      · exact ⟨_, rfl⟩
    refine ⟨e, ?_⟩
    obtain ⟨dir, op⟩ := s
    obtain rfl : op = false := hOp
    show tryLock _ (dkg st dir faults req) = _
    rw [hRefused]
    rfl
  · refine ⟨.Busy, ?_⟩
    show tryLock s _ = _
    rw [tryLock, if_pos hOp]

-- ---------------------------------------------------------------------------
-- One key
-- ---------------------------------------------------------------------------

/-- What holds of the stored files in every state. -/
structure Consistent (D : Dkls) (sealer : ShardSealer) (dir : ShardDir) : Prop where
  /-- A shard is a whole sealed share, beside metadata of its key. -/
  shard : ∀ sealed, dir.shard = some sealed → ∃ metadata nonce share,
    dir.metadata = some metadata ∧ sealer.sealBytes nonce share.bytes = .ok sealed ∧
      loadShard sealer dir none = .ok share ∧
      publicKeyOf D.party D.view share = .ok metadata.publicKey
  /-- The active key is that of the shard that loads. -/
  active : ∀ metaFault shardFault publicKey,
    loadActive sealer dir metaFault shardFault = .ok (some publicKey) →
    ∃ share, loadShard sealer dir none = .ok share ∧
      publicKeyOf D.party D.view share = .ok publicKey
  /-- Metadata without a shard is neither an active key nor the lack of one. -/
  halfway : ∀ metadata, dir.metadata = some metadata → dir.shard = none →
    loadActive sealer dir none none = .error (.PartialState metadata.publicKey) ∧
      ∀ faults : Faults, faults.Present → ∀ active,
        loadActive sealer dir faults.metadata faults.shard ≠ .ok active

/-- A whole store is a consistent one, to whoever reads it. -/
theorem Sound.consistent {sealer : ShardSealer} {dir : ShardDir} (h : Sound D sealer dir)
    (hOpens : Opens sealer) : Consistent D sealer dir where
  shard sealed hShard := by
    obtain ⟨metadata, nonce, share, hMetadata, hSealed, hKey⟩ := h.keyed sealed hShard
    exact ⟨metadata, nonce, share, hMetadata, hSealed,
      loadShard_of_sealed hOpens hShard hSealed, hKey⟩
  active metaFault shardFault publicKey hActive := by
    obtain ⟨metadata, share, hMetadata, rfl, hLoad⟩ := loadActive_some hActive
    obtain ⟨found, hFound, hKey⟩ := h.loaded hOpens hLoad
    obtain rfl := Option.some.inj (hMetadata.symm.trans hFound)
    obtain ⟨rfl, -⟩ := loadShard_ok hLoad
    exact ⟨share, hLoad, hKey⟩
  halfway metadata hMetadata hNone := by
    refine ⟨loadActive_halfway sealer hMetadata hNone, ?_⟩
    intro faults hPresent active hActive
    obtain rfl := loadActive_kept hPresent hMetadata hActive
    obtain ⟨-, share, -, -, hLoad⟩ := loadActive_some hActive
    obtain ⟨-, sealed, hShard, -⟩ := loadShard_ok hLoad
    simp [hNone] at hShard

/-- **The stored key identity.** In every state of every run from an empty store,
with crashes anywhere: a shard in the store is whole and beside metadata of its
own key, the active key is that of the shard, metadata alone is a partial state.
Once a key was active nothing else ever is, no key generation is under way, and
a request for one is refused without touching the store. -/
theorem identity_consistent (hOpens : Opens st.sealer) (hCodec : D.party.RoundTrips)
    (hReach : (crashing A D st).Reach (Plausible D text) (started .empty) w) :
    Consistent D st.sealer w.shared.dir ∧
    ∀ metaFault shardFault publicKey,
      loadActive st.sealer w.shared.dir metaFault shardFault = .ok (some publicKey) →
      ∀ w', (crashing A D st).Reach (Plausible D text) w w' →
        (∀ faults : Faults, faults.Present → ∀ active,
          loadActive st.sealer w'.shared.dir faults.metadata faults.shard = .ok active →
          active = some publicKey) ∧
        (∀ id ctx, w'.tasks id ≠ some (.dkgDial ctx) ∧ w'.tasks id ≠ some (.dkgRun ctx)) ∧
        ∀ id req (faults : Faults) w'', faults.Present →
          (crashing A D st).step w' (.serve (.receive id (.dkg req) faults)) = some w'' →
          w''.shared = w'.shared ∧ ∃ e, w''.answers id = some (.error e) := by
  obtain ⟨hInv, -⟩ := reach_inv hOpens hCodec (Inv.started Sound.empty) hReach
  refine ⟨hInv.sound.consistent hOpens, ?_⟩
  intro metaFault shardFault publicKey hActive w' hLater
  -- from here on the metadata is kept, and the three parts follow from that
  obtain ⟨hInv', hKeeps⟩ := reach_inv hOpens hCodec hInv hLater
  obtain ⟨metadata, share, hFound, rfl, -⟩ := loadActive_some hActive
  have hMetadata : w'.shared.dir.metadata = some metadata := hKeeps.metadata metadata hFound
  refine ⟨?_, ?_, ?_⟩
  · intro faults hPresent active hRead
    exact loadActive_kept hPresent hMetadata hRead
  · -- a key generation under way has seen no metadata, and the lock keeps it so
    intro id ctx
    constructor
    · intro hTask
      have hNone : w'.shared.dir.metadata = none := hInv'.grounded id _ hTask
      simp [hMetadata] at hNone
    · intro hTask
      have hNone : w'.shared.dir.metadata = none := hInv'.grounded id _ hTask
      simp [hMetadata] at hNone
  · intro id req faults w'' hPresent hStep
    obtain ⟨e, hTurn⟩ : ∃ e, enter A st (publicKeyOf D.party D.view) w'.shared (.dkg req) faults =
        .answer w'.shared (.error e) := dkg_refused hPresent hMetadata _ req
    change (cosigner A D st).step w' (.receive id (.dkg req) faults) = some w'' at hStep
    obtain ⟨i, r, inp, hEvent, -, rfl⟩ | ⟨_, _, _, _, hEvent, -⟩ | ⟨_, _, hEvent, -⟩ :=
      Service.step_cases hStep
    · simp only [Event.receive.injEq] at hEvent
      obtain ⟨rfl, rfl, rfl⟩ := hEvent
      have hEnter : (cosigner A D st).enter w'.shared (.dkg req) faults =
          .answer w'.shared (.error e) := hTurn
      rw [hEnter]
      exact ⟨rfl, e, Function.update_self id _ w'.answers⟩
    · simp at hEvent
    · simp at hEvent

end

-- ---------------------------------------------------------------------------
-- A crash right after the last rename
-- ---------------------------------------------------------------------------

namespace Sample

/-- From every other party the same payload. -/
def fromPeers (bytes : Bytes) : PartyMap := ((∅ : PartyMap).insert 1 bytes).insert 2 bytes

/-- What party 0 reads in the three rounds of a key generation. -/
def dkgInboxes : List RoundInbox := [⟨∅, fromPeers [5]⟩, ⟨fromPeers [5], ∅⟩, ⟨∅, ∅⟩]

/-- What the example's key generation is run with. -/
def dkgCtx : PartyContext Symbolic.crypto where
  partyId := 0
  inst := .repeatByte 32 0x2a
  signingKey := (10 : UInt8)
  partyVks := [(10 : UInt8), (11 : UInt8), (12 : UInt8)]
  threshold := 2

/-- The example's cosigner, with its incidents. -/
def process : Machine (World OpState Request (Pending Symbolic.crypto) Answer Effect) Incident :=
  crashing Eth.Sample.alloy Carbon.Sample.dkls state

/-- Somebody asks it for a key. -/
def askDkg : Incident := .serve (.receive 0 (.dkg ⟨.repeatByte 32 0x2a, 3, 2⟩) ⟨none, none⟩)

/-- It reaches the hub. -/
def dialOk : Incident := .serve (.resume 0 (.dialed (.ok ())))

/-- The key generation succeeds and the process dies when all is written. -/
def saveAndDie : Incident := .crashInSave 0 (Carbon.Sample.share 0) Carbon.Sample.key [] 8

theorem ask_some : (process.step (started .empty) askDkg).isSome = true := by
  decide +kernel

/-- The cosigner while it dials. -/
def dialing : World OpState Request (Pending Symbolic.crypto) Answer Effect :=
  (process.step (started .empty) askDkg).get ask_some

theorem dial_some : (process.step dialing dialOk).isSome = true := by
  decide +kernel

/-- The cosigner while it runs the ceremony. -/
def running : World OpState Request (Pending Symbolic.crypto) Answer Effect :=
  (process.step dialing dialOk).get dial_some

theorem die_some : (process.step running saveAndDie).isSome = true := by
  decide +kernel

/-- The cosigner started again on what it had written. -/
def restarted : World OpState Request (Pending Symbolic.crypto) Answer Effect :=
  (process.step running saveAndDie).get die_some

/-- The runner can return what was saved. -/
theorem running_yields : ∀ p, running.tasks 0 = some p →
    RunnerYields Carbon.Sample.dkls Carbon.Sample.text p
      (Carbon.Sample.share 0, Carbon.Sample.key) := by
  intro p hTask
  obtain rfl := Option.some.inj hTask
  have hFeed : (keygenParty Carbon.Sample.dkls Carbon.Sample.text (Carbon.Sample.dkg 0)
      dkgCtx).feed dkgInboxes = some (Carbon.Sample.share 0, Carbon.Sample.key) := by
    decide +kernel
  exact ⟨Unit, Carbon.Sample.dkg 0, Script.yields_of_feed hFeed⟩

theorem restarted_reach :
    process.Reach (Plausible Carbon.Sample.dkls Carbon.Sample.text) (started .empty) restarted := by
  have hAsk : process.Reach (Plausible Carbon.Sample.dkls Carbon.Sample.text) (started .empty)
      dialing := (Machine.Reach.refl _).step (a := askDkg) ⟨by simp, by simp⟩
    (Option.some_get ask_some).symm
  have hDial : process.Reach (Plausible Carbon.Sample.dkls Carbon.Sample.text) (started .empty)
      running := hAsk.step (a := dialOk) trivial (Option.some_get dial_some).symm
  exact hDial.step (a := saveAndDie) running_yields (Option.some_get die_some).symm

end Sample

/-- The key is active, stays so, and is the loaded shard's. -/
theorem identity_consistent_restarted :
    loadShard passthrough Sample.restarted.shared.dir none = .ok (Carbon.Sample.share 0) ∧
    Consistent Carbon.Sample.dkls passthrough Sample.restarted.shared.dir ∧
    ∀ w', Sample.process.Reach (Plausible Carbon.Sample.dkls Carbon.Sample.text)
        Sample.restarted w' → ∀ active,
      loadActive passthrough w'.shared.dir none none = .ok active →
      active = some Carbon.Sample.key := by
  obtain ⟨hConsistent, hFixed⟩ := identity_consistent passthrough_opens
    Carbon.Sample.dkls_roundTrips.party Sample.restarted_reach
  refine ⟨by decide +kernel, hConsistent, ?_⟩
  intro w' hLater active hRead
  have hActive : loadActive passthrough Sample.restarted.shared.dir none none =
      .ok (some Carbon.Sample.key) := by decide +kernel
  exact (hFixed none none _ hActive w' hLater).1 ⟨none, none⟩ ⟨by simp, by simp⟩ active hRead

end Sovra.Cosigner
