import Sovra.Cosigner.Crash
import Sovra.Lib.Joint
import Sovra.Lib.Refine

/-!
# Sovra — the generations of a fleet

All cosigners of a roster, each crashing and restarting as in `Cosigner.Crash`,
through any number of key generations and refreshes, whoever starts them. The
shard of a party descends from the ceremonies of its lineage: the key generation
that wrote its metadata, then every refresh whose save got to the last rename.

A runner returns a share only after three rounds, in each of which it has read
every other party's envelopes of its own session. A party takes part in a session
once (the orchestrator draws the instance). All else is free: sessions overlap, runs
are dropped, processes die inside a save, envelopes are late or lost. The library
checks nothing about generations, so a refresh may well succeed on shards that do
not belong together, and does where the last one was cut off.

* `fleet_refines`    — the lineages are the logs of `Lib.Joint`.
* `lineages_ordered` — they may part, but all are in the order of one history, and
  all metadata is of the key of its one founding session.
* `quorum_survives`  — a complete fleet keeps a quorum of one generation while few
  enough sessions were saved by some and not by all.
-/

namespace Sovra.Cosigner

open Lib Mpc State Ipc Carbon

-- ---------------------------------------------------------------------------
-- Sessions
-- ---------------------------------------------------------------------------

/-- A ceremony of all parties: what its envelopes name. -/
structure Session where
  op : UInt8
  inst : B256
deriving DecidableEq

/-- Whether a session makes a key: a key generation does. -/
def Session.founds (s : Session) : Bool := s.op = Op.dkg

/-- The session a suspended handler dials for. -/
def Pending.dials {C : Crypto} : Pending C → Option Session
  | .dkgDial ctx => some ⟨Op.dkg, ctx.inst⟩
  | .refreshDial _ ctx _ => some ⟨Op.refresh, ctx.inst⟩
  | _ => none

/-- The session a suspended handler runs. -/
def Pending.session {C : Crypto} : Pending C → Option Session
  | .dkgRun ctx => some ⟨Op.dkg, ctx.inst⟩
  | .refreshRun _ ctx _ => some ⟨Op.refresh, ctx.inst⟩
  | _ => none

/-- A successful run and how far the save after it gets. -/
structure Save where
  id : Nat
  share : KeyShare
  publicKey : PubkeySec1
  nonce : Bytes
  steps : Nat

/-- The steps a save gets through: all eight if none fails. -/
def savedSteps : Option (Nat × StateError) → Nat
  | none => 8
  | some (k, _) => k

/-- The save an incident is about, if any: one that runs to its end, fails at a
step, or dies with its process. -/
def Incident.save? : Incident → Option Save
  | .serve (.resume id (.shard (some (.ok (share, publicKey))) nonce stop)) =>
    some ⟨id, share, publicKey, nonce, savedSteps stop⟩
  | .crashInSave id share publicKey nonce steps => some ⟨id, share, publicKey, nonce, steps⟩
  | _ => none

/-- Whether a save has put a generation in place: the first by its metadata, a
later one by its shard. -/
def installs (op : UInt8) (sealed : Except StateError Bytes) (steps : Nat) : Bool :=
  if op = Op.dkg then 5 ≤ steps else sealed.isOk && 8 ≤ steps

/-- What an incident of one party means to the others. -/
inductive Deed
  | quiet
  | join (s : Session)
  | commit (s : Session)

section

variable {C : Crypto} (st : CosignerState C)

/-- A save that gets far enough commits its session; a dial that goes through joins
one; all else is quiet. -/
def deed (w : World OpState Request (Pending C) Answer Effect) (i : Incident) : Deed :=
  match i.save? with
  | some save =>
    match (w.tasks save.id).bind Pending.session with
    | some s =>
      if installs s.op (st.sealer.sealBytes save.nonce save.share.bytes) save.steps then .commit s
      else .quiet
    | none => .quiet
  | none =>
    match i with
    | .serve (.resume id (.dialed (.ok ()))) =>
      match (w.tasks id).bind Pending.dials with
      | some s => .join s
      | none => .quiet
    | _ => .quiet

end

-- ---------------------------------------------------------------------------
-- The fleet
-- ---------------------------------------------------------------------------

/-- The cosigners; the lineage of each one's store; the round its run is in; and
who has sent its envelopes of which round. -/
structure Fleet (C : Crypto) where
  world : UInt8 → World OpState Request (Pending C) Answer Effect
  lineage : UInt8 → List Session
  round : UInt8 → Nat
  said : List (Word UInt8 Session)

/-- Something befalls a party, or its run has read a whole round. -/
inductive FleetMove
  | incident (p : UInt8) (i : Incident)
  | advance (p : UInt8) (id : Nat)

namespace Fleet

section

variable {C : Crypto}

/-- Every process is started on an empty directory. -/
def start : Fleet C := ⟨fun _ => started .empty, fun _ => [], fun _ => 0, []⟩

/-- All others have sent what a round of `s` waits for. -/
def Heard (n : Nat) (w : Fleet C) (p : UInt8) (s : Session) (r : Nat) : Prop :=
  ∀ q ∈ ids n, q ≠ p → ⟨q, s, r⟩ ∈ w.said

instance (n : Nat) (w : Fleet C) (p : UInt8) (s : Session) (r : Nat) :
    Decidable (w.Heard n p s r) :=
  inferInstanceAs (Decidable (∀ q ∈ ids n, q ≠ p → ⟨q, s, r⟩ ∈ w.said))

/-- `p` sends its envelopes of a round. -/
def say (w : Fleet C) (p : UInt8) (s : Session) (r : Nat) : Fleet C :=
  { w with round := Function.update w.round p r, said := ⟨p, s, r⟩ :: w.said }

/-- What the fleet's books say after an incident. -/
def note (w : Fleet C) (p : UInt8) : Deed → Fleet C
  | .quiet => w
  | .join s => w.say p s 1
  | .commit s => { w with lineage := Function.update w.lineage p (w.lineage p ++ [s]) }

variable (A : Eth.Alloy) (D : Dkls) (st : UInt8 → CosignerState C) (n : Nat)

/-- One move. The books follow the incidents; a run reads a round when all others
have sent theirs. -/
def step (w : Fleet C) : FleetMove → Option (Fleet C)
  | .incident p i =>
    (Cosigner.incident A D (st p) (w.world p) i).map fun world =>
      { w with world := Function.update w.world p world }.note p (deed (st p) (w.world p) i)
  | .advance p id =>
    match ((w.world p).tasks id).bind Pending.session with
    | none => none
    | some s =>
      if w.round p < 3 ∧ w.Heard n p s (w.round p) then some (w.say p s (w.round p + 1)) else none

/-- The fleet as a transition system. -/
def machine : Machine (Fleet C) FleetMove := ⟨step A D st n⟩

end

end Fleet

section

variable (D : Dkls) (text : UInt8 → UInt8 → String) {C : Crypto} (st : UInt8 → CosignerState C)
  (n : Nat) (key : Session → PubkeySec1)

/-- A run of `s` that succeeds at `p`: it was in its last round and has read that;
the parties of a key generation agree on the key. -/
structure Succeeds (w : Fleet C) (p : UInt8) (s : Session) (publicKey : PubkeySec1) : Prop where
  last : w.round p = 3
  heard : w.Heard n p s 3
  agreed : s.op = Op.dkg → publicKey = key s

/-- The moves of a fleet as the module's header describes them. -/
def Concerted (w : Fleet C) : FleetMove → Prop
  | .advance p _ => p ∈ ids n
  | .incident p i =>
    p ∈ ids n ∧ Plausible D text (w.world p) i ∧
      (∀ s, deed (st p) (w.world p) i = .join s →
        ∀ word ∈ w.said, ¬ (word.sender = p ∧ word.session = s)) ∧
      ∀ save, i.save? = some save → ∀ s, ((w.world p).tasks save.id).bind Pending.session = some s →
        Succeeds n key w p s save.publicKey

end

-- ---------------------------------------------------------------------------
-- What one incident does
-- ---------------------------------------------------------------------------

/-- A handler of this cosigner runs the session. -/
def Taking {C : Crypto} (w : World OpState Request (Pending C) Answer Effect) (s : Session) : Prop :=
  ∃ id p, w.tasks id = some p ∧ p.session = some s

section

variable {D : Dkls} {text : UInt8 → UInt8 → String} {A : Eth.Alloy} {C : Crypto}
  {st : CosignerState C} {w w' : World OpState Request (Pending C) Answer Effect}

/-- A save gets as far as it gets through its steps. -/
theorem save_steps {μ σ : Type} (dir : SignerDir μ σ) (meta_ : μ) (sealed : Except StateError σ)
    (stop : Option (Nat × StateError)) :
    (dir.save meta_ sealed stop).1 = dir.cut meta_ sealed (savedSteps stop) := by
  rcases stop with _ | ⟨k, e⟩
  · rcases sealed with e | content <;> rfl
  · rfl

/-- The metadata is in place from the fifth step on. -/
theorem cut_metadata {μ σ : Type} (dir : SignerDir μ σ) (meta_ : μ)
    (sealed : Except StateError σ) (steps : Nat) :
    (dir.cut meta_ sealed steps).metadata = if 5 ≤ steps then some meta_ else dir.metadata := by
  rcases sealed with e | content
  · rcases steps with _ | _ | _ | _ | _ | steps
    iterate 5 rfl
    simp [SignerDir.cut, saveShard, saveMetadataOps, FileOp.apply]
  · rcases steps with _ | _ | _ | _ | _ | _ | _ | _ | steps
    iterate 8 rfl
    simp [SignerDir.cut, saveShard, saveMetadataOps, saveShardOps, FileOp.apply]

/-- A first turn ends in no run. -/
theorem enter_session {keyOf : KeyShare → Except MpcError PubkeySec1} {s : OpState} {req : Request}
    {faults : Faults} {p : Pending C} (h : (enter A st keyOf s req faults).next = .inr p) :
    p.session = none := by
  -- whatever the request, the first turn ends before the ceremony
  match req with
  | .dkg req =>
    have hFirst := tryLock_next h
    unfold dkg at hFirst
    split at hFirst
    · simp at hFirst
    · simp only [bind_eq_ok, pure_eq_ok, Sum.inr.injEq] at hFirst
      obtain ⟨ctx, -, -, -, rfl⟩ := hFirst
      rfl
    · simp at hFirst
  | .refresh req =>
    have hFirst := tryLock_next h
    simp only [refresh, bind_eq_ok, pure_eq_ok, Sum.inr.injEq] at hFirst
    obtain ⟨ctx, -, -, -, share, -, rfl⟩ := hFirst
    rfl
  | .sign req =>
    obtain ⟨tx, share, ctx, -, -, hNext⟩ := sign_ok (tryLock_next h)
    rw [Sum.inr.inj hNext]
    rfl
  | .pubkey => cases h
  | .signer => cases h

/-- A signing runs no session that is saved. -/
theorem signNext_session {job : SignJob} {p : Pending C} (h : signNext A st job = .ok (.inr p)) :
    p.session = none := by
  unfold signNext at h
  split at h
  · simp at h
  · simp only [bind_eq_ok, pure_eq_ok, Sum.inr.injEq] at h
    obtain ⟨ctx, -, rfl⟩ := h
    rfl

/-- A later turn starts the run its handler dialed for, or saves what a run
returned and answers, or neither. -/
theorem resume_session {s : OpState} {p : Pending C} {out : Outcome}
    {t : Turn OpState (Pending C) Answer Effect} (h : resume A st s p out = some t) :
    (out = .dialed (.ok ()) ∧ t.shared.dir = s.dir ∧ p.session = none ∧
      ∃ q, t.next = .inr q ∧ q.session = p.dials) ∨
    (∃ share publicKey nonce stop, out = .shard (some (.ok (share, publicKey))) nonce stop ∧
      t.shared.dir = s.dir.cut (activeMetadata publicKey)
        (st.sealer.sealBytes nonce share.bytes) (savedSteps stop) ∧
      p.session.isSome = true ∧ ∀ q, t.next ≠ .inr q) ∨
    (t.shared.dir = s.dir ∧ (∀ q, t.next = .inr q → q.session = none) ∧ out ≠ .dialed (.ok ()) ∧
      ∀ r nonce stop, out ≠ .shard (some (.ok r)) nonce stop) := by
  -- after a dial
  have hDial : ∀ {result : Except String Unit} {run : Pending C}, out = .dialed result →
      t = guarded s (afterDial result run) → p.session = none → run.session = p.dials →
      (out = .dialed (.ok ()) ∧ t.shared.dir = s.dir ∧ p.session = none ∧
        ∃ q, t.next = .inr q ∧ q.session = p.dials) ∨
      (t.shared.dir = s.dir ∧ (∀ q, t.next = .inr q → q.session = none) ∧
        out ≠ .dialed (.ok ()) ∧ ∀ r nonce stop, out ≠ .shard (some (.ok r)) nonce stop) := by
    rintro (e | ⟨⟩) run rfl rfl hNone hRun
    · refine Or.inr ⟨guarded_dir _ _, fun q hNext => ?_, by simp, by simp⟩
      cases hNext
    · exact Or.inl ⟨rfl, guarded_dir _ _, hNone, run, rfl, hRun⟩
  -- after a run that is saved
  have hSave : ∀ {result : RunEnd (KeyShare × PubkeySec1)} {nonce : Bytes}
      {stop : Option (Nat × StateError)}, out = .shard result nonce stop →
      t = guarded (saveResult (C := C) st s result nonce stop).1
        (saveResult st s result nonce stop).2 → p.session.isSome = true →
      (∃ share publicKey nonce stop, out = .shard (some (.ok (share, publicKey))) nonce stop ∧
        t.shared.dir = s.dir.cut (activeMetadata publicKey)
          (st.sealer.sealBytes nonce share.bytes) (savedSteps stop) ∧
        p.session.isSome = true ∧ ∀ q, t.next ≠ .inr q) ∨
      (t.shared.dir = s.dir ∧ (∀ q, t.next = .inr q → q.session = none) ∧
        out ≠ .dialed (.ok ()) ∧ ∀ r nonce stop, out ≠ .shard (some (.ok r)) nonce stop) := by
    rintro (_ | e | ⟨share, publicKey⟩) nonce stop rfl rfl hSome
    · refine Or.inr ⟨rfl, fun q hNext => ?_, by simp, by simp⟩
      cases hNext
    · refine Or.inr ⟨rfl, fun q hNext => ?_, by simp, by simp⟩
      cases hNext
    · refine Or.inl ⟨share, publicKey, nonce, stop, rfl, ?_, hSome, ?_⟩
      · rw [guarded_dir, ← save_steps]
        rfl
      · intro q hNext
        have hEnd := guarded_next hNext
        simp only [saveResult, runResult, bind_eq_ok, pure_eq_ok, reduceCtorEq, and_false,
          exists_false] at hEnd
  unfold resume at h
  split at h
  case h_1 => exact (hDial rfl (Option.some.inj h).symm rfl rfl).imp id Or.inr
  case h_2 => exact (hDial rfl (Option.some.inj h).symm rfl rfl).imp id Or.inr
  case h_3 => exact (hDial rfl (Option.some.inj h).symm rfl rfl).imp id Or.inr
  case h_4 => exact Or.inr (hSave rfl (Option.some.inj h).symm rfl)
  case h_5 => exact Or.inr (hSave rfl (Option.some.inj h).symm rfl)
  -- a signing goes on to its next digest; its runs are no sessions
  case h_6 job ctx digest result =>
    obtain rfl := Option.some.inj h
    refine Or.inr (Or.inr ⟨guarded_dir _ _, fun q hNext => ?_, by simp, by simp⟩)
    have hAfter := guarded_next hNext
    simp only [afterSign, bind_eq_ok] at hAfter
    obtain ⟨parts, -, hLoop⟩ := hAfter
    exact signNext_session hLoop
  case h_7 => simp at h

-- ---------------------------------------------------------------------------
-- What it means to the others
-- ---------------------------------------------------------------------------

/-- What the files say before and after a commit. -/
def Committed (w w' : World OpState Request (Pending C) Answer Effect) (s : Session)
    (publicKey : PubkeySec1) : Prop :=
  (s.op = Op.dkg ∧ w.shared.dir.metadata = none ∧
    w'.shared.dir.metadata = some (activeMetadata publicKey)) ∨
  (s.op = Op.refresh ∧ w'.shared.dir.metadata = w.shared.dir.metadata ∧
    w.shared.dir.metadata ≠ none)

/-- The saves of a session, as far as they get. -/
theorem save_deed {dir dir' : ShardDir} (h : Sound D st.sealer dir) (hOpens : Opens st.sealer)
    (hCodec : D.party.RoundTrips) {p : Pending C} (hGrounded : Grounded st.sealer dir p)
    {share : KeyShare} {publicKey : PubkeySec1}
    (hRun : RunnerYields D text p (share, publicKey)) {s : Session} (hSession : p.session = some s)
    {nonce : Bytes} {steps : Nat} (hDir : dir' = dir.cut (activeMetadata publicKey)
      (st.sealer.sealBytes nonce share.bytes) steps) :
    if installs s.op (st.sealer.sealBytes nonce share.bytes) steps then
      (s.op = Op.dkg ∧ dir.metadata = none ∧ dir'.metadata = some (activeMetadata publicKey)) ∨
      (s.op = Op.refresh ∧ dir'.metadata = dir.metadata ∧ dir.metadata ≠ none)
    else dir'.metadata = dir.metadata := by
  have hCut := cut_metadata dir (activeMetadata publicKey)
    (st.sealer.sealBytes nonce share.bytes) steps
  rw [← hDir] at hCut
  match p with
  | .dkgRun ctx =>
    obtain rfl := Option.some.inj hSession
    -- a key generation found no metadata; the fifth step puts its own in place
    have hNone : dir.metadata = none := hGrounded
    by_cases hSteps : 5 ≤ steps
    · rw [if_pos (show installs Op.dkg _ steps = true by simp [installs, hSteps])]
      rw [if_pos hSteps] at hCut
      exact Or.inl ⟨rfl, hNone, hCut⟩
    · rw [if_neg (show ¬ installs Op.dkg _ steps = true by simpa [installs] using hSteps)]
      rw [if_neg hSteps] at hCut
      exact hCut
  | .refreshRun req ctx oldShare =>
    obtain rfl := Option.some.inj hSession
    -- a refresh was made from a shard of the key in the metadata, which it writes again
    obtain ⟨metadata, hMetadata, -⟩ := h.loaded hOpens hGrounded
    have hKept := (h.cut hOpens hCodec hGrounded hRun nonce steps).2.metadata metadata hMetadata
    rw [← hDir] at hKept
    have hSame : dir'.metadata = dir.metadata := hKept.trans hMetadata.symm
    split
    · exact Or.inr ⟨rfl, hSame, by simp [hMetadata]⟩
    · exact hSame
  | .dkgDial _ | .refreshDial _ _ _ | .signDial _ _ _ | .signRun _ _ _ => exact hRun.elim

/-- Only one handler is suspended. -/
theorem Inv.alone (h : Inv D st w) {i j : Nat} {p q : Pending C} (hi : w.tasks i = some p)
    (hj : w.tasks j = some q) : i = j ∧ p = q := by
  obtain rfl := h.owned.1.unique hi rfl hj rfl
  exact ⟨rfl, Option.some.inj (hi.symm.trans hj)⟩

/-- So a party takes part in one session at most. -/
theorem Inv.taking_unique (h : Inv D st w) {s s' : Session} (hs : Taking w s)
    (hs' : Taking w s') : s = s' := by
  obtain ⟨i, p, hi, hp⟩ := hs
  obtain ⟨j, q, hj, hq⟩ := hs'
  obtain ⟨-, rfl⟩ := h.alone hi hj
  exact Option.some.inj (hp.symm.trans hq)

/-- What an incident does to the run a party takes part in and to its metadata. -/
def Meaning (w w' : World OpState Request (Pending C) Answer Effect) (i : Incident) : Deed → Prop
  | .quiet => (∀ s, Taking w' s → Taking w s) ∧
      w'.shared.dir.metadata = w.shared.dir.metadata
  | .join s => (∀ s', ¬ Taking w s') ∧ (∀ s', Taking w' s' ↔ s' = s) ∧
      w'.shared.dir.metadata = w.shared.dir.metadata
  | .commit s => Taking w s ∧ (∀ s', ¬ Taking w' s') ∧ ∃ save, i.save? = some save ∧
      (w.tasks save.id).bind Pending.session = some s ∧ Committed w w' s save.publicKey

/-- What a save means whose handler is gone afterwards. -/
theorem save_meaning (h : Inv D st w) (hOpens : Opens st.sealer) (hCodec : D.party.RoundTrips)
    {i : Incident} {save : Save} (hSave : i.save? = some save) {p : Pending C}
    (hTask : w.tasks save.id = some p) {s : Session} (hSession : p.session = some s)
    (hRun : RunnerYields D text p (save.share, save.publicKey))
    (hDir : w'.shared.dir = w.shared.dir.cut (activeMetadata save.publicKey)
      (st.sealer.sealBytes save.nonce save.share.bytes) save.steps)
    (hGone : ∀ id q, w'.tasks id ≠ some q) : Meaning w w' i (deed st w i) := by
  have hBind : (w.tasks save.id).bind Pending.session = some s := by
    rw [hTask]
    exact hSession
  have hNobody : ∀ s', ¬ Taking w' s' := fun s' hTaking => by
    obtain ⟨id, q, hq, -⟩ := hTaking
    exact hGone id q hq
  have hFiles := save_deed h.sound hOpens hCodec (h.grounded save.id p hTask) hRun hSession hDir
  unfold deed
  simp only [hSave, hBind]
  split
  · rename_i hInstalls
    rw [if_pos hInstalls] at hFiles
    exact ⟨⟨save.id, p, hTask, hSession⟩, hNobody, save, hSave, hBind, hFiles⟩
  · rename_i hInstalls
    rw [if_neg hInstalls] at hFiles
    exact ⟨fun s' hTaking => absurd hTaking (hNobody s'), hFiles⟩

/-- An incident without a save that starts no run. -/
theorem quiet_meaning {i : Incident} (hDeed : deed st w i = .quiet)
    (hTasks : ∀ id q s, w'.tasks id = some q → q.session = some s → w.tasks id = some q)
    (hDir : w'.shared.dir.metadata = w.shared.dir.metadata) : Meaning w w' i (deed st w i) := by
  rw [hDeed]
  refine ⟨?_, hDir⟩
  rintro s ⟨id, q, hq, hSession⟩
  exact ⟨id, q, hTasks id q s hq hSession, hSession⟩

/-- A process that dies in the middle of a save: what the save's steps have installed. -/
theorem crashInSave_meaning (h : Inv D st w) (hOpens : Opens st.sealer)
    (hCodec : D.party.RoundTrips) {id : Nat} {share : KeyShare} {publicKey : PubkeySec1}
    {nonce : Bytes} {steps : Nat}
    (hPlausible : Plausible D text w (.crashInSave id share publicKey nonce steps))
    (hStep : incident A D st w (.crashInSave id share publicKey nonce steps) = some w') :
    Meaning w w' (.crashInSave id share publicKey nonce steps)
      (deed st w (.crashInSave id share publicKey nonce steps)) := by
  obtain ⟨p, hTask, hDies⟩ := Option.bind_eq_some_iff.mp hStep
  split at hDies
  case isFalse => simp at hDies
  rename_i hSaves
  obtain rfl := Option.some.inj hDies
  -- only the runs of a key generation and of a refresh save anything
  obtain ⟨s, hSession⟩ : ∃ s, p.session = some s := by
    match p with
    | .dkgRun ctx => exact ⟨_, rfl⟩
    | .refreshRun req ctx oldShare => exact ⟨_, rfl⟩
    | .dkgDial _ | .refreshDial _ _ _ | .signDial _ _ _ | .signRun _ _ _ => cases hSaves
  exact save_meaning h hOpens hCodec rfl hTask hSession (hPlausible p hTask) rfl
    fun _ _ hq => nomatch hq

/-- A first turn: the handler has joined no run yet, and nothing is written. -/
theorem receive_meaning {id : Nat} {req : Request} {faults : Faults} (hPresent : faults.Present) :
    Meaning w ((w.setRequest id req).settle id
        (enter A st (publicKeyOf D.party D.view) w.shared req faults))
      (.serve (.receive id req faults)) (deed st w (.serve (.receive id req faults))) := by
  refine quiet_meaning rfl ?_ ?_
  · intro j q s hq hSession
    rcases World.settle_tasks_cases hq with ⟨-, hNext⟩ | ⟨-, hOld⟩
    · rw [enter_session hNext] at hSession
      cases hSession
    · exact hOld
  · exact congrArg SignerDir.metadata (enter_grounded hPresent _ _ _).1

/-- After a handler's turn it is the only one that can still be suspended. -/
theorem Inv.settled (h : Inv D st w) {id j : Nat} {p q : Pending C}
    {t : Turn OpState (Pending C) Answer Effect} (hTask : w.tasks id = some p)
    (hq : (w.settle id t).tasks j = some q) : t.next = .inr q := by
  rcases World.settle_tasks_cases hq with ⟨-, hNew⟩ | ⟨hNe, hOld⟩
  · exact hNew
  · exact absurd (h.alone hOld hTask).1 hNe

/-- A handler whose dial went through joins the run it dialed for, if that is one that
is saved. -/
theorem dialed_meaning (h : Inv D st w) {id : Nat} {p run : Pending C}
    {t : Turn OpState (Pending C) Answer Effect} (hTask : w.tasks id = some p)
    (hDir : t.shared.dir = w.shared.dir) (hNone : p.session = none) (hNext : t.next = .inr run)
    (hRun : run.session = p.dials) :
    Meaning w (w.settle id t) (.serve (.resume id (.dialed (.ok ()))))
      (deed st w (.serve (.resume id (.dialed (.ok ()))))) := by
  have hAfter : ∀ {j q}, (w.settle id t).tasks j = some q → q = run := fun hq =>
    Sum.inr.inj ((h.settled hTask hq).symm.trans hNext)
  rcases hDials : p.dials with _ | s
  · -- a signing: its run installs nothing
    refine quiet_meaning ?_ ?_ (congrArg SignerDir.metadata hDir)
    · simp only [deed, Incident.save?, hTask, Option.bind_some, hDials]
    · intro j q s hq hSession
      rw [hAfter hq, hRun, hDials] at hSession
      cases hSession
  · have hDeed : deed st w (.serve (.resume id (.dialed (.ok ())))) = .join s := by
      simp only [deed, Incident.save?, hTask, Option.bind_some, hDials]
    rw [hDeed]
    refine ⟨?_, fun s' => ⟨?_, ?_⟩, congrArg SignerDir.metadata hDir⟩
    · rintro s' ⟨j, q, hq, hSession⟩
      obtain ⟨-, rfl⟩ := h.alone hq hTask
      rw [hNone] at hSession
      cases hSession
    · rintro ⟨j, q, hq, hSession⟩
      rw [hAfter hq, hRun, hDials] at hSession
      exact (Option.some.inj hSession).symm
    · rintro rfl
      refine ⟨id, run, ?_, by rw [hRun, hDials]⟩
      rw [World.settle_tasks, Function.update_self, hNext]
      rfl

/-- A later turn joins a run, saves what a run returned, or changes neither. -/
theorem resume_meaning (h : Inv D st w) (hOpens : Opens st.sealer) (hCodec : D.party.RoundTrips)
    {id : Nat} {out : Outcome} {p : Pending C} {t : Turn OpState (Pending C) Answer Effect}
    (hPlausible : Plausible D text w (.serve (.resume id out))) (hTask : w.tasks id = some p)
    (hTurn : resume A st w.shared p out = some t) :
    Meaning w (w.settle id t) (.serve (.resume id out)) (deed st w (.serve (.resume id out))) := by
  rcases resume_session hTurn with ⟨rfl, hDir, hNone, run, hNext, hRun⟩ |
    ⟨share, publicKey, nonce, stop, rfl, hDir, hSome, hEnds⟩ | ⟨hDir, hNext, hDialed, hShard⟩
  · exact dialed_meaning h hTask hDir hNone hNext hRun
  · obtain ⟨s, hSession⟩ := Option.isSome_iff_exists.mp hSome
    exact save_meaning h hOpens hCodec rfl hTask hSession (hPlausible p hTask) hDir
      fun _ q hq => hEnds q (h.settled hTask hq)
  · refine quiet_meaning ?_ ?_ (congrArg SignerDir.metadata hDir)
    · rcases out with (e | ⟨⟩) | ⟨_ | e | r, nonce, stop⟩ | result
      · rfl
      · exact absurd rfl hDialed
      · rfl
      · rfl
      · exact absurd rfl (hShard r nonce stop)
      · rfl
    · intro j q s hq hSession
      rw [hNext q (h.settled hTask hq)] at hSession
      cases hSession

/-- **What an incident means.** One case for each kind of incident. -/
theorem incident_meaning (h : Inv D st w) (hOpens : Opens st.sealer)
    (hCodec : D.party.RoundTrips) {i : Incident} (hPlausible : Plausible D text w i)
    (hStep : incident A D st w i = some w') : Meaning w w' i (deed st w i) := by
  match i with
  | .crash =>
    obtain rfl := Option.some.inj hStep
    exact quiet_meaning rfl (fun id q s hq => nomatch hq) rfl
  | .debris tmpMetadata tmpShard =>
    obtain rfl := Option.some.inj hStep
    exact quiet_meaning rfl (fun id q s hq _ => hq) rfl
  | .crashInSave id share publicKey nonce steps =>
    exact crashInSave_meaning h hOpens hCodec hPlausible hStep
  | .serve e =>
    obtain ⟨id, req, faults, rfl, -, rfl⟩ | ⟨id, out, p, t, rfl, hTask, hTurn, rfl⟩ |
      ⟨id, p, rfl, -, rfl⟩ := Service.step_cases hStep
    · exact receive_meaning hPlausible
    · exact resume_meaning h hOpens hCodec hPlausible hTask hTurn
    · -- a cancelled handler is gone, and the others are as before
      refine quiet_meaning rfl ?_ rfl
      intro j q s hq _
      exact (World.dropTask_tasks_cases hq).2

end

-- ---------------------------------------------------------------------------
-- The fleet and its logs
-- ---------------------------------------------------------------------------

/-- A party's metadata is there once it has a lineage, and of the key its founding
session agreed on. -/
structure Stored {C : Crypto} (key : Session → PubkeySec1) (w : Fleet C) (p : UInt8) : Prop where
  blank : w.lineage p = [] ↔ (w.world p).shared.dir.metadata = none
  keyed : ∀ metadata, (w.world p).shared.dir.metadata = some metadata →
    ∃ s rest, w.lineage p = s :: rest ∧ metadata.publicKey = key s

/-- The logs are the lineages, the runs those of the suspended handlers. -/
structure Tracks (D : Dkls) {C : Crypto} (st : UInt8 → CosignerState C)
    (key : Session → PubkeySec1) (w : Fleet C) (j : Joint UInt8 Session) : Prop where
  log : j.log = w.lineage
  said : j.said = w.said
  run : ∀ p s r, j.run p = some (s, r) ↔ Taking (w.world p) s ∧ r = w.round p
  inv : ∀ p, Inv D (st p) (w.world p)
  stored : ∀ p, Stored key w p

section

variable {D : Dkls} {text : UInt8 → UInt8 → String} {A : Eth.Alloy} {C : Crypto}
  {st : UInt8 → CosignerState C} {n : Nat} {key : Session → PubkeySec1} {w w' : Fleet C}
  {j : Joint UInt8 Session} {p : UInt8} {s : Session}

/-- A key generation is run by who has nothing yet, a refresh by who has. -/
theorem taking_founds {c : CosignerState C} {v : World OpState Request (Pending C) Answer Effect}
    (h : Inv D c v) (hOpens : Opens c.sealer) (hTaking : Taking v s) :
    s.founds = true ↔ v.shared.dir.metadata = none := by
  obtain ⟨id, p, hTask, hSession⟩ := hTaking
  have hSeen := h.grounded id p hTask
  match p with
  | .dkgRun ctx =>
    obtain rfl := Option.some.inj hSession
    exact iff_of_true rfl hSeen
  | .refreshRun req ctx oldShare =>
    obtain rfl := Option.some.inj hSession
    obtain ⟨metadata, hMetadata, -⟩ := h.sound.loaded hOpens hSeen
    exact iff_of_false (by simp [Session.founds, Op.dkg, Op.refresh]) (by simp [hMetadata])
  | .dkgDial _ | .refreshDial _ _ _ | .signDial _ _ _ | .signRun _ _ _ => cases hSession

/-- Before anything has happened there is no session on either side. -/
theorem Tracks.start : Tracks D st key (Fleet.start : Fleet C) Joint.init where
  log := rfl
  said := rfl
  run p s r := by
    constructor
    · intro h
      cases h
    · rintro ⟨⟨id, t, hTask, -⟩, -⟩
      cases hTask
  inv _ := Inv.started Sound.empty
  stored _ := ⟨⟨fun _ => rfl, fun _ => rfl⟩, fun _ h => nomatch h⟩

section

variable (h : Tracks D st key w j)
include h

/-- Who was heard in the fleet is heard in the joint sessions. -/
theorem Tracks.heard {q : UInt8} {r : Nat} (hHeard : w.Heard n q s r) :
    j.Heard (ids n) q s r := by
  unfold Joint.Heard
  rw [h.said]
  exact hHeard

/-- **A round read** is a round read. -/
theorem Tracks.advance {id : Nat} (hStep : Fleet.step A D st n w (.advance p id) = some w') :
    ∃ j', j.step (ids n) 3 Session.founds (.advance p) = some j' ∧ Tracks D st key w' j' := by
  simp only [Fleet.step] at hStep
  split at hStep
  · simp at hStep
  rename_i s hBind
  split at hStep
  case isFalse => simp at hStep
  rename_i hOk
  obtain rfl := Option.some.inj hStep
  obtain ⟨t, hTask, hSession⟩ := Option.bind_eq_some_iff.mp hBind
  have hTaking : Taking (w.world p) s := ⟨id, t, hTask, hSession⟩
  have hRun : j.run p = some (s, w.round p) := (h.run p s _).mpr ⟨hTaking, rfl⟩
  refine ⟨j.say p s (w.round p + 1), ?_, h.log, ?_, ?_, h.inv, ?_⟩
  · simp only [Joint.step, hRun]
    rw [if_pos ⟨hOk.1, h.heard hOk.2⟩]
  · show _ :: j.said = _ :: w.said
    rw [h.said]
  · intro q s' r
    show Function.update j.run p _ q = _ ↔ Taking (w.world q) s' ∧ r = Function.update w.round p _ q
    -- a party is in one session only, so the round that moved is its own
    by_cases hSame : q = p
    · subst hSame
      rw [Function.update_self, Function.update_self, Option.some.injEq, Prod.mk.injEq]
      constructor
      · rintro ⟨rfl, rfl⟩
        exact ⟨hTaking, rfl⟩
      · rintro ⟨hOther, rfl⟩
        exact ⟨(h.inv q).taking_unique hTaking hOther, rfl⟩
    · rw [Function.update_of_ne hSame, Function.update_of_ne hSame]
      exact h.run q s' r
  · exact fun q => ⟨(h.stored q).blank, (h.stored q).keyed⟩

/-- Files that say what they said keep what is stored. -/
theorem Tracks.stored_world {world : World OpState Request (Pending C) Answer Effect}
    (hMeta : world.shared.dir.metadata = (w.world p).shared.dir.metadata) (q : UInt8) :
    Stored key { w with world := Function.update w.world p world } q := by
  have hSame : (Function.update w.world p world q).shared.dir.metadata =
      (w.world q).shared.dir.metadata := by
    by_cases hSelf : q = p
    · rw [hSelf, Function.update_self]
      exact hMeta
    · rw [Function.update_of_ne hSelf]
  refine ⟨?_, ?_⟩
  · show w.lineage q = [] ↔ _
    rw [(h.stored q).blank]
    show _ ↔ (Function.update w.world p world q).shared.dir.metadata = none
    rw [hSame]
  · intro metadata hFound
    change (Function.update w.world p world q).shared.dir.metadata = some metadata at hFound
    rw [hSame] at hFound
    exact (h.stored q).keyed metadata hFound

/-- One party's new state, beside those of the others. -/
theorem Tracks.inv_world {world : World OpState Request (Pending C) Answer Effect}
    (hInv : Inv D (st p) world) (q : UInt8) :
    Inv D (st q) (Function.update w.world p world q) := by
  by_cases hSelf : q = p
  · subst hSelf
    rwa [Function.update_self]
  · rw [Function.update_of_ne hSelf]
    exact h.inv q

variable {world : World OpState Request (Pending C) Answer Effect}

/-- The runs after one party's world has changed and those of the others have not. -/
theorem Tracks.run_world {j' : Joint UInt8 Session} {round : UInt8 → Nat}
    (hOthers : ∀ q, q ≠ p → j'.run q = j.run q ∧ round q = w.round q)
    (hOwn : ∀ s r, j'.run p = some (s, r) ↔ Taking world s ∧ r = round p) (q : UInt8) (s : Session)
    (r : Nat) : j'.run q = some (s, r) ↔
      Taking (Function.update w.world p world q) s ∧ r = round q := by
  by_cases hSelf : q = p
  · subst hSelf
    rw [Function.update_self]
    exact hOwn s r
  · rw [Function.update_of_ne hSelf, (hOthers q hSelf).1, (hOthers q hSelf).2]
    exact h.run q s r

/-- A run goes on, or it is over. -/
theorem Tracks.quiet (hInv : Inv D (st p) world)
    (hTaking : ∀ s, Taking world s → Taking (w.world p) s)
    (hMeta : world.shared.dir.metadata = (w.world p).shared.dir.metadata) :
    ∃ j', (Joint.machine (ids n) 3 Session.founds).Reach (fun _ _ => True) j j' ∧
      Tracks D st key { w with world := Function.update w.world p world } j' := by
  -- the joint session goes on with the run, or the party leaves it
  by_cases hGoesOn : ∃ s, Taking world s
  · obtain ⟨s, hNow⟩ := hGoesOn
    have hSame : ∀ s', Taking (w.world p) s' ↔ Taking world s' := by
      intro s'
      refine ⟨fun hBefore => ?_, hTaking s'⟩
      rwa [(h.inv p).taking_unique hBefore (hTaking s hNow)]
    refine ⟨j, Machine.Reach.refl j, h.log, h.said, ?_, h.inv_world hInv, h.stored_world hMeta⟩
    refine h.run_world (fun q _ => ⟨rfl, rfl⟩) fun s' r => ?_
    rw [← hSame]
    exact h.run p s' r
  · refine ⟨j.leave p, (Machine.Reach.refl j).step (a := .leave p) trivial rfl, h.log, h.said, ?_,
      h.inv_world hInv, h.stored_world hMeta⟩
    refine h.run_world (fun q hNe => ⟨Function.update_of_ne hNe _ _, rfl⟩) fun s' r => ?_
    show Function.update j.run p none p = _ ↔ _
    rw [Function.update_self]
    constructor
    · intro hRun
      cases hRun
    · rintro ⟨hNow, -⟩
      exact absurd ⟨s', hNow⟩ hGoesOn

/-- **A run joined** is a session joined: a key generation by a party with an empty
log, a refresh by one with a key. -/
theorem Tracks.join (hOpens : Opens (st p).sealer) (hp : p ∈ ids n) (hInv : Inv D (st p) world)
    (hBefore : ∀ s', ¬ Taking (w.world p) s') (hNow : ∀ s', Taking world s' ↔ s' = s)
    (hMeta : world.shared.dir.metadata = (w.world p).shared.dir.metadata)
    (hFresh : ∀ word ∈ w.said, ¬ (word.sender = p ∧ word.session = s)) :
    ∃ j', (Joint.machine (ids n) 3 Session.founds).Reach (fun _ _ => True) j j' ∧
      Tracks D st key ({ w with world := Function.update w.world p world }.say p s 1) j' := by
  have hIdle : j.run p = none := by
    rcases hRun : j.run p with _ | ⟨s', r⟩
    · rfl
    · exact absurd ((h.run p s' r).mp hRun).1 (hBefore s')
  -- the run is grounded in the files, and these did not change
  have hSuits : j.Suits Session.founds p s := by
    unfold Joint.Suits
    rw [taking_founds hInv hOpens ((hNow s).mpr rfl), hMeta, h.log, (h.stored p).blank]
  have hJoin : j.step (ids n) 3 Session.founds (.join p s) = some (j.say p s 1) := by
    simp only [Joint.step, Joint.Fresh, h.said]
    rw [if_pos ⟨hp, hIdle, hFresh, hSuits⟩]
  have hWorld : Tracks D st key ({ w with world := Function.update w.world p world }.say p s 1)
      (j.say p s 1) := by
    refine ⟨h.log, ?_, ?_, h.inv_world hInv, fun q => ?_⟩
    · show _ :: j.said = _ :: w.said
      rw [h.said]
    · refine h.run_world (fun q hNe => ⟨Function.update_of_ne hNe _ _,
        Function.update_of_ne hNe _ _⟩) fun s' r => ?_
      show Function.update j.run p _ p = _ ↔ _ ∧ r = Function.update w.round p 1 p
      rw [Function.update_self, Function.update_self, hNow, Option.some.injEq, Prod.mk.injEq]
      exact ⟨fun hEq => ⟨hEq.1.symm, hEq.2.symm⟩, fun hEq => ⟨hEq.1.symm, hEq.2.symm⟩⟩
    · exact ⟨(h.stored_world hMeta q).blank, (h.stored_world hMeta q).keyed⟩
  exact ⟨_, (Machine.Reach.refl j).step (a := .join p s) trivial hJoin, hWorld⟩

/-- **A save that installs a generation** is a commit. -/
theorem Tracks.commit (hInv : Inv D (st p) world) (hBefore : Taking (w.world p) s)
    (hAfter : ∀ s', ¬ Taking world s') {publicKey : PubkeySec1}
    (hFiles : Committed (w.world p) world s publicKey)
    (hSucceeds : Succeeds n key w p s publicKey) :
    ∃ j', (Joint.machine (ids n) 3 Session.founds).Reach (fun _ _ => True) j j' ∧
      Tracks D st key { w with
        world := Function.update w.world p world
        lineage := Function.update w.lineage p (w.lineage p ++ [s]) } j' := by
  have hRun : j.run p = some (s, 3) := (h.run p s 3).mpr ⟨hBefore, hSucceeds.last.symm⟩
  have hCommit : j.step (ids n) 3 Session.founds (.commit p) = some (j.append p s) := by
    simp only [Joint.step, hRun]
    rw [if_pos ⟨trivial, h.heard hSucceeds.heard⟩]
  refine ⟨_, (Machine.Reach.refl j).step (a := .commit p) trivial hCommit, ?_, h.said, ?_,
    h.inv_world hInv, fun q => ?_⟩
  · show Function.update j.log p (j.log p ++ [s]) = Function.update w.lineage p _
    rw [h.log]
  · refine h.run_world (fun q hNe => ⟨Function.update_of_ne hNe _ _, rfl⟩) fun s' r => ?_
    show Function.update j.run p none p = _ ↔ _
    rw [Function.update_self]
    constructor
    · intro hNone
      cases hNone
    · rintro ⟨hNow, -⟩
      exact absurd hNow (hAfter s')
  · -- the saver's log and lineage get the session; what the metadata says of the key is
    -- left to the kind of session
    by_cases hSelf : q = p
    · subst hSelf
      refine ⟨?_, ?_⟩
      · show Function.update w.lineage q (w.lineage q ++ [s]) q = [] ↔
          (Function.update w.world q world q).shared.dir.metadata = none
        rw [Function.update_self, Function.update_self]
        rcases hFiles with ⟨-, -, hNew⟩ | ⟨-, hSame, hSome⟩
        · simp [hNew]
        · simp [hSame, hSome]
      · intro metadata hFound
        change (Function.update w.world q world q).shared.dir.metadata = some metadata at hFound
        rw [Function.update_self] at hFound
        show ∃ s' rest, Function.update w.lineage q (w.lineage q ++ [s]) q = s' :: rest ∧ _
        rw [Function.update_self]
        -- a key generation founds the lineage, a refresh leaves its founder
        rcases hFiles with ⟨hDkg, hNone, hNew⟩ | ⟨-, hSame, -⟩
        · obtain rfl := Option.some.inj (hNew.symm.trans hFound)
          rw [(h.stored q).blank.mpr hNone]
          exact ⟨s, [], rfl, hSucceeds.agreed hDkg⟩
        · obtain ⟨s', rest, hLineage, hKey⟩ := (h.stored q).keyed metadata (hSame ▸ hFound)
          rw [hLineage]
          exact ⟨s', rest ++ [s], rfl, hKey⟩
    · refine ⟨?_, ?_⟩
      · show Function.update w.lineage p _ q = [] ↔
          (Function.update w.world p world q).shared.dir.metadata = none
        rw [Function.update_of_ne hSelf, Function.update_of_ne hSelf]
        exact (h.stored q).blank
      · intro metadata hFound
        change (Function.update w.world p world q).shared.dir.metadata = some metadata at hFound
        rw [Function.update_of_ne hSelf] at hFound
        show ∃ s' rest, Function.update w.lineage p _ q = s' :: rest ∧ _
        rw [Function.update_of_ne hSelf]
        exact (h.stored q).keyed metadata hFound

end

/-- **The lineages are the logs of joint sessions.** -/
theorem fleet_refines (hOpens : ∀ p, Opens (st p).sealer) (hCodec : D.party.RoundTrips) :
    (Fleet.machine A D st n).Refines (Concerted D text st n key)
      (Joint.machine (ids n) 3 Session.founds) (fun _ _ => True) (Tracks D st key) := by
  intro w j m w' h hConcerted hStep
  cases m with
  | advance p id =>
    obtain ⟨j', hJoint, hNext⟩ := h.advance (A := A) hStep
    exact ⟨j', (Machine.Reach.refl j).step (a := .advance p) trivial hJoint, hNext⟩
  | incident p i =>
    obtain ⟨hp, hPlausible, hFresh, hSucceeds⟩ := hConcerted
    obtain ⟨world, hWorld, rfl⟩ := Option.map_eq_some_iff.mp hStep
    have hInv : Inv D (st p) world := (step_inv (h.inv p) (hOpens p) hCodec hPlausible hWorld).1
    have hMeaning := incident_meaning (h.inv p) (hOpens p) hCodec hPlausible hWorld
    -- one joint move for each kind of deed
    rcases hDeed : deed (st p) (w.world p) i with _ | s | s
    · rw [hDeed] at hMeaning
      obtain ⟨hTaking, hMeta⟩ := hMeaning
      exact h.quiet hInv hTaking hMeta
    · rw [hDeed] at hMeaning
      obtain ⟨hBefore, hNow, hMeta⟩ := hMeaning
      exact h.join (hOpens p) hp hInv hBefore hNow hMeta (hFresh s hDeed)
    · rw [hDeed] at hMeaning
      obtain ⟨hBefore, hAfter, save, hSave, hBind, hFiles⟩ := hMeaning
      exact h.commit hInv hBefore hAfter hFiles (hSucceeds save hSave s hBind)

/-- Every run of the fleet is one of joint sessions. -/
theorem tracks_of_reach (hOpens : ∀ p, Opens (st p).sealer) (hCodec : D.party.RoundTrips)
    (hReach : (Fleet.machine A D st n).Reach (Concerted D text st n key) Fleet.start w) :
    ∃ j, (Joint.machine (ids n) 3 Session.founds).Reach (fun _ _ => True) Joint.init j ∧
      Tracks D st key w j :=
  hReach.follows (fleet_refines hOpens hCodec) Tracks.start

-- ---------------------------------------------------------------------------
-- What no run of the fleet does
-- ---------------------------------------------------------------------------

/-- The founder of the history founded whatever metadata there is. -/
theorem Tracks.founder (h : Tracks D st key w j)
    (hJoint : (Joint.machine (ids n) 3 Session.founds).Reach (fun _ _ => True) Joint.init j)
    {metadata : SignerMetadata} (hFound : (w.world p).shared.dir.metadata = some metadata) :
    ∃ founder, j.history.head? = some founder ∧ (w.lineage p).head? = some founder ∧
      metadata = activeMetadata (key founder) := by
  obtain ⟨s, rest, hLineage, hKey⟩ := (h.stored p).keyed metadata hFound
  have hHead : (w.lineage p).head? = some s := by rw [hLineage]; rfl
  have hFirst := (Joint.one_founder (by omega) hJoint).2 p
  rw [h.log] at hFirst
  refine ⟨s, (hFirst ?_).symm.trans hHead, hHead, ?_⟩
  · rw [hLineage]
    exact List.cons_ne_nil s rest
  · rw [(h.inv p).sound.active metadata hFound, hKey]

/-- All metadata in a fleet is of one key. -/
theorem one_key (hOpens : ∀ p, Opens (st p).sealer) (hCodec : D.party.RoundTrips)
    (hReach : (Fleet.machine A D st n).Reach (Concerted D text st n key) Fleet.start w) :
    ∃ publicKey, ∀ p ∈ ids n, ∀ metadata, (w.world p).shared.dir.metadata = some metadata →
      metadata = activeMetadata publicKey := by
  obtain ⟨j, hJoint, h⟩ := tracks_of_reach hOpens hCodec hReach
  -- any metadata names the founder, and there is one
  by_cases hSome : ∃ p metadata, (w.world p).shared.dir.metadata = some metadata
  · obtain ⟨q, other, hOther⟩ := hSome
    obtain ⟨founder, hHead, -, -⟩ := h.founder hJoint hOther
    refine ⟨key founder, fun p _ metadata hFound => ?_⟩
    obtain ⟨s, hSame, -, hKey⟩ := h.founder hJoint hFound
    rw [hKey, Option.some.inj (hSame.symm.trans hHead)]
  · exact ⟨key ⟨0, .repeatByte 32 0⟩, fun p _ metadata hFound => absurd ⟨p, metadata, hFound⟩ hSome⟩

/-- **One history.** In every state of every run of a fleet from empty directories
there is one list of sessions, none twice and each sent to the last round by every
party, of which all lineages are parts, in its order, whatever was cut off and
wherever a refresh went on from. Its first session and no other generates a key,
and the metadata of every party that has any is of that key. -/
theorem lineages_ordered (hOpens : ∀ p, Opens (st p).sealer) (hCodec : D.party.RoundTrips)
    (hReach : (Fleet.machine A D st n).Reach (Concerted D text st n key) Fleet.start w) :
    ∃ history : List Session, history.Nodup ∧
      (∀ s ∈ history, (∃ p ∈ ids n, s ∈ w.lineage p) ∧ ∀ q ∈ ids n, ⟨q, s, 3⟩ ∈ w.said) ∧
      (∀ p ∈ ids n, (w.lineage p).Sublist history) ∧
      (∀ s ∈ history, s.op = Op.dkg ↔ history.head? = some s) ∧
      ∀ p ∈ ids n, (w.lineage p = [] ↔ (w.world p).shared.dir.metadata = none) ∧
        ∀ metadata, (w.world p).shared.dir.metadata = some metadata →
          ∃ founder, history.head? = some founder ∧ (w.lineage p).head? = some founder ∧
            metadata = activeMetadata (key founder) := by
  obtain ⟨j, hJoint, h⟩ := tracks_of_reach hOpens hCodec hReach
  obtain ⟨hNodup, hKnown, hSub⟩ := Joint.one_history (by omega) hJoint
  have hFounder := (Joint.one_founder (by omega) hJoint).1
  rw [h.log] at hSub
  refine ⟨j.history, hNodup, fun s hs => ?_, fun p _ => hSub p, fun s hs => ?_, fun p _ =>
    ⟨(h.stored p).blank, fun metadata hFound => h.founder hJoint hFound⟩⟩
  · rw [← h.log, ← h.said]
    exact hKnown s hs
  · rw [← hFounder s hs, Session.founds, decide_eq_true_eq]

/-- A move of the fleet is an incident of one party's world, or of none. -/
theorem Fleet.step_world {m : FleetMove} (hStep : Fleet.step A D st n w m = some w') :
    w'.world = w.world ∨ ∃ p i world, m = .incident p i ∧
      incident A D (st p) (w.world p) i = some world ∧
        w'.world = Function.update w.world p world := by
  cases m with
  | advance p id =>
    simp only [Fleet.step] at hStep
    split at hStep
    · simp at hStep
    · split at hStep
      · exact Or.inl (Option.some.inj hStep ▸ rfl)
      · simp at hStep
  | incident p i =>
    obtain ⟨world, hWorld, rfl⟩ := Option.map_eq_some_iff.mp hStep
    refine Or.inr ⟨p, i, world, rfl, hWorld, ?_⟩
    cases deed (st p) (w.world p) i <;> rfl

/-- Files keep what they hold through every run of the fleet. -/
theorem fleet_keeps (hOpens : ∀ p, Opens (st p).sealer) (hCodec : D.party.RoundTrips)
    {w₀ : Fleet C} (hInv : ∀ p, Inv D (st p) (w₀.world p))
    (hLater : (Fleet.machine A D st n).Reach (Concerted D text st n key) w₀ w) (p : UInt8) :
    Keeps (w₀.world p).shared.dir (w.world p).shared.dir := by
  have hBoth : (∀ p, Inv D (st p) (w.world p)) ∧
      Keeps (w₀.world p).shared.dir (w.world p).shared.dir := by
    refine hLater.invariant ⟨hInv, Keeps.refl _⟩ ?_
    rintro v m v' ⟨hInvs, hKept⟩ hConcerted hStep
    -- one party's world moves, and its files keep what they hold
    rcases Fleet.step_world hStep with hSame | ⟨q, i, world, rfl, hWorld, hUpdate⟩
    · rw [hSame]
      exact ⟨hInvs, hKept⟩
    obtain ⟨hNext, hKeeps⟩ := step_inv (hInvs q) (hOpens q) hCodec hConcerted.2.1 hWorld
    rw [hUpdate]
    constructor
    · intro a
      by_cases hSelf : a = q
      · subst hSelf
        rwa [Function.update_self]
      · rw [Function.update_of_ne hSelf]
        exact hInvs a
    · by_cases hSelf : p = q
      · subst hSelf
        rw [Function.update_self]
        exact hKept.trans hKeeps
      · rwa [Function.update_of_ne hSelf]
  exact hBoth.2

/-- A shard that is there stays: a save puts another in its place, or nothing. -/
theorem shard_kept (hOpens : ∀ p, Opens (st p).sealer) (hCodec : D.party.RoundTrips)
    {w₀ : Fleet C} (hInv : ∀ p, Inv D (st p) (w₀.world p))
    (hLater : (Fleet.machine A D st n).Reach (Concerted D text st n key) w₀ w) (p : UInt8)
    (hShard : (w₀.world p).shared.dir.shard.isSome = true) :
    (w.world p).shared.dir.shard.isSome = true :=
  (fleet_keeps hOpens hCodec hInv hLater p).shard hShard

/-- **A quorum survives.** Once every party of a fleet has a shard, every party has
one in whatever becomes of it, with refreshes cut off anywhere. Where `k` sessions
were saved by some parties and not by all, at least `t` shards are of one generation
if there are more than `t - 1` parties for each of the `2 ^ k` generations that can
be about. -/
theorem quorum_survives (hOpens : ∀ p, Opens (st p).sealer) (hCodec : D.party.RoundTrips)
    {w₀ : Fleet C}
    (hReach : (Fleet.machine A D st n).Reach (Concerted D text st n key) Fleet.start w₀)
    (hComplete : ∀ p ∈ ids n, (w₀.world p).shared.dir.shard.isSome = true)
    (hLater : (Fleet.machine A D st n).Reach (Concerted D text st n key) w₀ w) {t : Nat}
    (hTorn : (t - 1) * 2 ^ (Joint.torn (ids n) w.lineage).card < n) :
    (∀ p ∈ ids n, (w.world p).shared.dir.shard.isSome = true) ∧
    ∃ g, t ≤ (ids n).countP fun p => w.lineage p = g := by
  obtain ⟨j₀, -, h₀⟩ := tracks_of_reach hOpens hCodec hReach
  obtain ⟨j, hJoint, h⟩ := tracks_of_reach hOpens hCodec (hReach.trans hLater)
  refine ⟨fun p hp => shard_kept hOpens hCodec h₀.inv hLater p (hComplete p hp), ?_⟩
  obtain ⟨hNodup, -, hSub⟩ := Joint.one_history (by omega) hJoint
  rw [h.log] at hSub
  -- a generation is known by which of the torn sessions it has: at most two for each of
  -- them
  refine Joint.quorum hNodup hSub ?_
  rwa [ids, List.length_map, List.length_range]

end

-- ---------------------------------------------------------------------------
-- A refresh cut off at two of three
-- ---------------------------------------------------------------------------

namespace Sample

/-- A party is its index, all of one wallet. -/
def dkls : Dkls :=
  { Carbon.Sample.dkls with view := ⟨id, fun _ => 2, fun _ => 3, fun _ => Eth.Sample.pubkey⟩ }

/-- Its shards are read back as they were written. -/
theorem dkls_party : dkls.party.RoundTrips := Carbon.Sample.dkls_roundTrips.party

/-- Everybody's key generation. -/
def keygen (p : UInt8) : DkgPhases dkls Unit where
  new := (Carbon.Sample.dkg p).new
  phase1 := (Carbon.Sample.dkg p).phase1
  phase2 := (Carbon.Sample.dkg p).phase2
  phase3 := (Carbon.Sample.dkg p).phase3
  phase4 := (Carbon.Sample.dkg p).phase4

/-- Everybody's refresh. -/
def rerandomize (p : UInt8) : RefreshPhases dkls where
  phase1 := (Carbon.Sample.refreshPhases p).phase1
  phase2 := (Carbon.Sample.refreshPhases p).phase2
  phase3 := (Carbon.Sample.refreshPhases p).phase3
  phase4 := (Carbon.Sample.refreshPhases p).phase4

/-- The 2-of-3, by party. -/
def party (p : UInt8) : CosignerState Symbolic.crypto :=
  { state with partyId := p, signingKey := show UInt8 from p + 10 }

/-- The three as a fleet. -/
def trio : Machine (Fleet Symbolic.crypto) FleetMove :=
  Fleet.machine Eth.Sample.alloy dkls party 3

/-- The parties of the fleet. -/
def everyone : List UInt8 := [0, 1, 2]

/-- One message from each of the others. -/
def fromOthers (p : UInt8) (bytes : Bytes) : PartyMap :=
  (everyone.filter (· ≠ p)).foldl (fun map q => map.insert q bytes) ∅

/-- What `p` reads in the three rounds of a key generation or a refresh. -/
def inboxes (p : UInt8) : List RoundInbox :=
  [⟨∅, fromOthers p [5]⟩, ⟨fromOthers p [5], ∅⟩, ⟨∅, ∅⟩]

/-- The handlers of request `id` at all parties, up to the last round of their runs. -/
def untilLast (id : Nat) (req : Request) : List FleetMove :=
  (everyone.flatMap fun p => [.incident p (.serve (.receive id req ⟨none, none⟩)),
    .incident p (.serve (.resume id (.dialed (.ok ()))))]) ++
  everyone.map (fun p => .advance p id) ++ everyone.map fun p => .advance p id

/-- A run succeeds and is saved. -/
def finish (id : Nat) (p : UInt8) : FleetMove :=
  .incident p (.serve (.resume id
    (.shard (some (.ok (Carbon.Sample.share p, Eth.Sample.pubkey))) [] none)))

/-- A key generation that everybody saves. -/
def generating : List FleetMove :=
  untilLast 0 (.dkg ⟨.repeatByte 32 0x2a, 3, 2⟩) ++ everyone.map (finish 0)

/-- A refresh as far as its last round. -/
def refresh (id : Nat) (inst : UInt8) : List FleetMove :=
  untilLast id (.refresh ⟨.repeatByte 32 inst, 3, 2, Eth.Sample.pubkey⟩)

/-- The party dies before the last rename. -/
def dieSaving (id : Nat) (p : UInt8) : FleetMove :=
  .incident p (.crashInSave id (Carbon.Sample.share p) Eth.Sample.pubkey [] 7)

/-- The first party saves, the others do not. -/
def refreshing : List FleetMove := refresh 1 0x2b ++ [finish 1 0, dieSaving 1 1, dieSaving 1 2]

/-- Once more, on what they have: the first two save. -/
def retrying : List FleetMove := refresh 2 0x2c ++ [finish 2 0, finish 2 1, dieSaving 2 2]

/-- Whether the runner returns this, on what it reads from the others. -/
def yields (p : UInt8) (r : KeyShare × PubkeySec1) : Pending Symbolic.crypto → Bool
  | .dkgRun ctx => (keygenParty dkls Carbon.Sample.text (keygen p)
      ctx).feed (inboxes p) = some r
  | .refreshRun req ctx oldShare => (refreshParty dkls Carbon.Sample.text
      (rerandomize p) ctx oldShare req.publicKey).feed (inboxes p) = some r
  | _ => false

theorem yields_sound {p : UInt8} {r : KeyShare × PubkeySec1} {t : Pending Symbolic.crypto}
    (h : yields p r t = true) : RunnerYields dkls Carbon.Sample.text t r := by
  match t with
  | .dkgRun ctx =>
    exact ⟨Unit, keygen p, Script.yields_of_feed (of_decide_eq_true h)⟩
  | .refreshRun req ctx oldShare =>
    exact ⟨rerandomize p, Script.yields_of_feed (of_decide_eq_true h)⟩
  | .dkgDial _ | .refreshDial _ _ _ | .signDial _ _ _ | .signRun _ _ _ => cases h

/-- Whether reads find what is there and saves are of what the runner returns. -/
def faithful (w : Fleet Symbolic.crypto) (p : UInt8) (i : Incident) : Bool :=
  match i with
  | .serve (.receive _ _ faults) => faults.metadata.isNone && faults.shard.isNone
  | i => match i.save? with
    | none => true
    | some save => ((w.world p).tasks save.id).all (yields p (save.share, save.publicKey))

theorem plausible_sound {w : Fleet Symbolic.crypto} {p : UInt8} {i : Incident}
    (h : faithful w p i = true) :
    Plausible dkls Carbon.Sample.text (w.world p) i := by
  match i with
  | .serve (.receive _ _ faults) =>
    simp only [faithful, Bool.and_eq_true, Option.isNone_iff_eq_none] at h
    refine ⟨fun id => ?_, fun id => ?_⟩
    · rw [h.1]
      simp
    · rw [h.2]
      simp
  | .serve (.resume id (.shard (some (.ok r)) nonce stop)) =>
    intro t hTask
    simp only [faithful, Incident.save?, hTask, Option.all_some] at h
    exact yields_sound h
  | .crashInSave id share publicKey nonce steps =>
    intro t hTask
    simp only [faithful, Incident.save?, hTask, Option.all_some] at h
    exact yields_sound h
  | .serve (.resume id (.dialed _)) | .serve (.resume id (.parts _)) => trivial
  | .serve (.resume id (.shard none _ _)) | .serve (.resume id (.shard (some (.error _)) _ _)) =>
    trivial
  | .serve (.cancel id) | .crash | .debris _ _ => trivial

/-- `Concerted` for the moves of these runs, as a check. -/
def concerted (w : Fleet Symbolic.crypto) : FleetMove → Bool
  | .advance p _ => p ∈ ids 3
  | .incident p i =>
    p ∈ ids 3 && faithful w p i &&
      (match deed (party p) (w.world p) i with
        | .join s => ∀ word ∈ w.said, ¬ (word.sender = p ∧ word.session = s)
        | _ => true) &&
      (match i.save? with
        | none => true
        | some save => (((w.world p).tasks save.id).bind Pending.session).all fun s =>
          w.round p = 3 ∧ w.Heard 3 p s 3 ∧ save.publicKey = Eth.Sample.pubkey)

theorem concerted_sound (w : Fleet Symbolic.crypto) (m : FleetMove) (h : concerted w m = true) :
    Concerted dkls Carbon.Sample.text party 3 (fun _ => Eth.Sample.pubkey) w m := by
  cases m with
  | advance p id =>
    show p ∈ ids 3
    exact of_decide_eq_true h
  | incident p i =>
    simp only [concerted, Bool.and_eq_true, decide_eq_true_eq] at h
    obtain ⟨⟨⟨hp, hPlausible⟩, hFresh⟩, hSucceeds⟩ := h
    refine ⟨hp, plausible_sound hPlausible, ?_, ?_⟩
    · intro s hDeed
      rw [hDeed] at hFresh
      exact of_decide_eq_true hFresh
    · intro save hSave s hBind
      simp only [hSave, hBind, Option.all_some, decide_eq_true_eq] at hSucceeds
      obtain ⟨hRound, hHeard, hKey⟩ := hSucceeds
      exact ⟨hRound, hHeard, fun _ => hKey⟩

theorem generating_some : (trio.runIf concerted Fleet.start generating).isSome = true := by
  decide +kernel

/-- All three have a shard. -/
def generated : Fleet Symbolic.crypto :=
  (trio.runIf concerted Fleet.start generating).get generating_some

theorem refreshing_some : (trio.runIf concerted generated refreshing).isSome = true := by
  decide +kernel

/-- One of them has the next one. -/
def refreshed : Fleet Symbolic.crypto :=
  (trio.runIf concerted generated refreshing).get refreshing_some

theorem retrying_some : (trio.runIf concerted refreshed retrying).isSome = true := by
  decide +kernel

/-- Each of them has something else. -/
def retried : Fleet Symbolic.crypto :=
  (trio.runIf concerted refreshed retrying).get retrying_some

/-- What the first party saved. -/
def sessions : List Session :=
  [⟨Op.dkg, .repeatByte 32 0x2a⟩, ⟨Op.refresh, .repeatByte 32 0x2b⟩,
    ⟨Op.refresh, .repeatByte 32 0x2c⟩]

theorem generated_reach : trio.Reach (Concerted dkls Carbon.Sample.text party 3
    fun _ => Eth.Sample.pubkey) Fleet.start generated :=
  Machine.reach_of_runIf concerted_sound (Option.some_get generating_some).symm

theorem refreshed_reach : trio.Reach (Concerted dkls Carbon.Sample.text party 3
    fun _ => Eth.Sample.pubkey) generated refreshed :=
  Machine.reach_of_runIf concerted_sound (Option.some_get refreshing_some).symm

theorem retried_reach : trio.Reach (Concerted dkls Carbon.Sample.text party 3
    fun _ => Eth.Sample.pubkey) refreshed retried :=
  Machine.reach_of_runIf concerted_sound (Option.some_get retrying_some).symm

end Sample

/-- After a cut-off refresh and one on top of it no two of three parties have shards
of one generation, but all have the founder and the key in common. -/
theorem lineages_ordered_retried :
    (Sample.retried.lineage 0 ≠ Sample.retried.lineage 1 ∧
      Sample.retried.lineage 1 ≠ Sample.retried.lineage 2 ∧
      Sample.retried.lineage 0 ≠ Sample.retried.lineage 2) ∧
    ∃ history : List Session, history.length = 3 ∧
      (∀ p ∈ ids 3, (Sample.retried.lineage p).Sublist history) ∧
      ∀ p ∈ ids 3, ∀ metadata, (Sample.retried.world p).shared.dir.metadata = some metadata →
        metadata = activeMetadata Eth.Sample.pubkey := by
  obtain ⟨history, hNodup, hKnown, hSub, -, hStored⟩ := lineages_ordered
    (fun _ => passthrough_opens) Sample.dkls_party
    ((Sample.generated_reach.trans Sample.refreshed_reach).trans Sample.retried_reach)
  have hFull : Sample.retried.lineage 0 = Sample.sessions ∧
      ∀ p ∈ ids 3, Sample.retried.lineage p ⊆ Sample.sessions := by decide +kernel
  have hSubset : history ⊆ Sample.sessions := by
    intro s hs
    obtain ⟨⟨p, hp, hMem⟩, -⟩ := hKnown s hs
    exact hFull.2 p hp hMem
  have hLength : history.length = 3 := by
    refine Nat.le_antisymm (List.subperm_of_subset hNodup hSubset).length_le ?_
    have hLe := (hSub 0 (by decide)).length_le
    rw [hFull.1] at hLe
    exact hLe
  refine ⟨by decide +kernel, history, hLength, hSub, fun p hp metadata hFound => ?_⟩
  obtain ⟨founder, -, -, hKey⟩ := (hStored p hp).2 metadata hFound
  exact hKey

/-- Before the second one two of the three had shards of one. -/
theorem quorum_survives_refreshed :
    ∃ g, 2 ≤ (ids 3).countP fun p => Sample.refreshed.lineage p = g := by
  have hComplete : ∀ p ∈ ids 3,
      (Sample.generated.world p).shared.dir.shard.isSome = true := by decide +kernel
  exact (quorum_survives (fun _ => passthrough_opens) Sample.dkls_party Sample.generated_reach
    hComplete Sample.refreshed_reach (by decide +kernel)).2

end Sovra.Cosigner
