import Sovra.Carbon.Shard
import Sovra.Cosigner.Service
import Sovra.Ipc.Fleet

/-!
# Sovra — a store reopened under another sealer

A directory whose shard the configured sealer refuses to open is closed for
good: no handler gets past loading the shard, so none dials, none saves, and the
bytes stay as they are. A plaintext shard under a seal key is such a directory.

* `closed_forever` — every run over a closed directory leaves it as it is.
* `unsealed_refused` — a plaintext shard, any seal key, every run, and the
  orchestrator's refresh.
-/

namespace Sovra.Cosigner

open Lib Mpc State Ipc

/-- Reads of files that are there do not come back as missing. -/
def Faults.Present (faults : Faults) : Prop :=
  (∀ id, faults.metadata ≠ some (.NotFound id)) ∧ ∀ id, faults.shard ≠ some (.NotFound id)

/-- Both files are there and the sealer refuses the shard. -/
structure Closed (sealer : ShardSealer) (dir : ShardDir) : Prop where
  metadata : ∃ metadata, dir.metadata = some metadata
  shard : ∃ sealed, dir.shard = some sealed ∧ sealer.openBytes sealed = .error .Seal

/-- A run whose reads fail only for reasons of their own. -/
def ReadsPresent {σ : Type} (_ : σ) (e : Event Request Faults Outcome) : Prop :=
  ∀ id req faults, e = .receive id req faults → faults.Present

-- ---------------------------------------------------------------------------
-- One read
-- ---------------------------------------------------------------------------

section

variable {sealer : ShardSealer} {dir : ShardDir} {faults : Faults}

/-- The shard is refused, if it can be read at all. -/
theorem Closed.loadShard (h : Closed sealer dir) (fault : Option StateError) :
    loadShard sealer dir fault = .error (fault.getD .Seal) := by
  obtain ⟨sealed, hShard, hOpen⟩ := h.shard
  rcases fault with _ | e
  · show (do let b ← readOrNotFound none dir.shard
             let p ← sealer.openBytes b
             return ⟨p⟩ : Except StateError KeyShare) = .error .Seal
    rw [hShard]
    show (do let p ← sealer.openBytes sealed
             return ⟨p⟩ : Except StateError KeyShare) = .error .Seal
    rw [hOpen]
    rfl
  · rfl

/-- Metadata that is there is not reported missing. -/
theorem loadMetadata_present (hFaults : faults.Present) {metadata : SignerMetadata}
    (hMetadata : dir.metadata = some metadata) (id : String) :
    loadMetadata dir faults.metadata ≠ .error (.NotFound id) := by
  rcases hFault : faults.metadata with _ | e
  · simp [State.loadMetadata, hMetadata, readOrNotFound]
  · intro hEq
    have hError : e = .NotFound id := Except.error.inj hEq
    exact hFaults.1 id (by rw [hFault, hError])

/-- A closed directory does not pass for an empty one. -/
theorem Closed.loadMetadata (h : Closed sealer dir) (hFaults : faults.Present) :
    ∀ id, loadMetadata dir faults.metadata ≠ .error (.NotFound id) := by
  obtain ⟨metadata, hMetadata⟩ := h.metadata
  exact loadMetadata_present hFaults hMetadata

variable {C : Crypto} {st : CosignerState C}

/-- A handler that loads the shard stops there: it is not missing, so the error is
the store's own. -/
theorem Closed.loadShardOr (h : Closed st.sealer dir) (hFaults : faults.Present)
    (missing : CosignerError) : st.loadShardOr missing dir faults.shard =
      .error (.State (faults.shard.getD .Seal)) := by
  have hNot : ∀ id, faults.shard.getD .Seal ≠ .NotFound id := by
    intro id hEq
    rcases hFault : faults.shard with _ | e
    · simp [hFault] at hEq
    · rw [hFault] at hEq
      exact hFaults.2 id (by rw [hFault]; exact congrArg some hEq)
  show (State.loadShard st.sealer dir faults.shard).mapError (missingOr missing) = _
  rw [h.loadShard faults.shard]
  show Except.error (missingOr missing (faults.shard.getD .Seal)) = _
  unfold missingOr
  split
  · rename_i id hEq
    exact absurd hEq (hNot id)
  · rfl

-- ---------------------------------------------------------------------------
-- No handler gets anywhere
-- ---------------------------------------------------------------------------

/-- `GET /pubkey` loads the shard, and fails. -/
theorem Closed.pubkey (h : Closed st.sealer dir) (hFaults : faults.Present)
    (publicKeyOf : KeyShare → Except MpcError PubkeySec1) :
    pubkey st publicKeyOf dir faults = .error (.State (faults.shard.getD .Seal)) := by
  simp only [Cosigner.pubkey, h.loadShardOr hFaults]
  rfl

/-- A key generation finds metadata, and fails. -/
theorem Closed.dkg (h : Closed st.sealer dir) (hFaults : faults.Present) (req : StartDkgRequest) :
    ∃ e, dkg st dir faults req = .error e := by
  have hMissing := h.loadMetadata hFaults
  unfold Cosigner.dkg
  split
  · exact ⟨_, rfl⟩
  · rename_i id hEq
    exact absurd hEq (hMissing id)
  · exact ⟨_, rfl⟩

/-- Whatever precedes it, the shard is loaded before the hub is dialed. -/
theorem Closed.refresh (h : Closed st.sealer dir) (hFaults : faults.Present)
    (req : StartRefreshRequest) : ∃ e, refresh st dir faults req = .error e := by
  rcases hNext : Cosigner.refresh st dir faults req with e | next
  · exact ⟨e, rfl⟩
  simp only [Cosigner.refresh, bind_eq_ok, h.loadShardOr hFaults, reduceCtorEq, false_and,
    exists_false, and_false] at hNext

/-- A signing loads the shard before it dials, and fails. -/
theorem Closed.sign (h : Closed st.sealer dir) (hFaults : faults.Present) (A : Eth.Alloy)
    (req : StartSignRequest) : ∃ e, sign A st dir faults req = .error e := by
  rcases hNext : Cosigner.sign A st dir faults req with e | next
  · exact ⟨e, rfl⟩
  simp only [Cosigner.sign, bind_eq_ok, h.loadShardOr hFaults, reduceCtorEq, false_and,
    exists_false, and_false] at hNext

/-- `GET /signer` finds metadata without a shard that opens, and fails. -/
theorem Closed.signer (h : Closed st.sealer dir) : ∃ e, signer st dir faults = .error e := by
  have hShard := h.loadShard faults.shard
  unfold Cosigner.signer loadActive
  rw [hShard]
  rcases State.loadMetadata dir faults.metadata with e | metadata
  · rcases e with _ | _ | _ | _ | _ <;> exact ⟨_, rfl⟩
  · rcases faults.shard.getD .Seal with _ | _ | _ | _ | _ <;> exact ⟨_, rfl⟩

/-- On a closed directory every request is answered at once with an error. -/
theorem Closed.enter (h : Closed st.sealer dir) (hFaults : faults.Present) (A : Eth.Alloy)
    (publicKeyOf : KeyShare → Except MpcError PubkeySec1) (req : Request) :
    ∃ e, enter A st publicKeyOf ⟨dir, false⟩ req faults = .answer ⟨dir, false⟩ (.error e) := by
  have hLocked : ∀ first : Except CosignerError (Reply ⊕ Pending C), (∃ e, first = .error e) →
      ∃ e, (tryLock ⟨dir, false⟩ first : Turn OpState (Pending C) Answer Effect) =
        .answer ⟨dir, false⟩ (.error e) := by
    rintro _ ⟨e, rfl⟩
    exact ⟨e, rfl⟩
  match req with
  | .dkg req => exact hLocked _ (h.dkg hFaults req)
  | .sign req => exact hLocked _ (h.sign hFaults A req)
  | .refresh req => exact hLocked _ (h.refresh hFaults req)
  | .pubkey =>
    refine ⟨.State (faults.shard.getD .Seal), ?_⟩
    show Turn.answer _ (Cosigner.pubkey st publicKeyOf dir faults) = _
    rw [h.pubkey hFaults]
  | .signer =>
    obtain ⟨e, hSigner⟩ := h.signer
    refine ⟨e, ?_⟩
    show Turn.answer _ (Cosigner.signer st dir faults) = _
    rw [hSigner]

-- ---------------------------------------------------------------------------
-- Runs
-- ---------------------------------------------------------------------------

/-- Nothing has happened but refusals. -/
structure Refusing (dir : ShardDir) (w : World OpState Request (Pending C) Answer Effect) :
    Prop where
  shared : w.shared = ⟨dir, false⟩
  idle : ∀ id, w.tasks id = none
  log : w.log = []
  answers : ∀ id a, w.answers id = some a → ∃ e, a = .error e

/-- One more refusal. -/
theorem Refusing.settle {w : World OpState Request (Pending C) Answer Effect} {id : Nat}
    {e : CosignerError} (h : Refusing dir w) :
    Refusing dir (w.settle id (.answer ⟨dir, false⟩ (.error e))) where
  shared := rfl
  idle i := by
    rw [World.settle_tasks]
    show Function.update w.tasks id none i = none
    by_cases hId : i = id
    · rw [hId, Function.update_self]
    · rw [Function.update_of_ne hId, h.idle i]
  log := by
    rw [World.settle_log, h.log]
    rfl
  answers i a hAnswer := by
    rcases World.settle_answers_cases hAnswer with ⟨-, hNext⟩ | hOld
    · exact ⟨e, (Sum.inl.inj hNext).symm⟩
    · exact h.answers i a hOld

/-- A closed directory stays as it is in every run: nothing is dialed, nothing
is saved, every answer is an error. -/
theorem closed_forever {A : Eth.Alloy} {publicKeyOf : KeyShare → Except MpcError PubkeySec1}
    (h : Closed st.sealer dir) {w : World OpState Request (Pending C) Answer Effect}
    (hReach : (service A st publicKeyOf).machine.Reach ReadsPresent (World.init ⟨dir, false⟩) w) :
    Refusing dir w := by
  refine hReach.invariant ⟨rfl, fun _ => rfl, rfl, by simp [World.init]⟩ ?_
  intro w e w' hInv hPresent hStep
  obtain ⟨id, req, faults, rfl, -, rfl⟩ | ⟨id, out, p, t, -, hTask, -, -⟩ |
    ⟨id, p, -, hTask, -⟩ := Service.step_cases hStep
  · -- a request is answered at once
    obtain ⟨e, hEnter⟩ := h.enter (hPresent id req faults rfl) A publicKeyOf req
    have hTurn : (service A st publicKeyOf).enter w.shared req faults =
        .answer ⟨dir, false⟩ (.error e) := by
      rw [hInv.shared]
      exact hEnter
    rw [hTurn]
    have hRequest : Refusing dir (w.setRequest id req) :=
      ⟨hInv.shared, hInv.idle, hInv.log, hInv.answers⟩
    exact hRequest.settle
  · -- no handler is suspended, so none goes on or is dropped
    simp [hInv.idle id] at hTask
  · simp [hInv.idle id] at hTask

-- ---------------------------------------------------------------------------
-- The orchestrator's side
-- ---------------------------------------------------------------------------

/-- One cosigner that cannot answer `GET /pubkey` ends a refresh before anything
is posted. -/
theorem refresh_unposted {W : Web} {b : RemoteBackend W} {c : UInt8 × W.Url}
    (hc : c ∈ b.cosigners) {A : Eth.Alloy} {render : ErrorBody → String} {e : CosignerError}
    {pubkeys : UInt8 → Sent PublicKeyInfo}
    (hPubkey : pubkeys c.1 = .ok (respond A render (.error e)))
    (debug : PublicKeyInfo → String) (rosters : UInt8 → Sent RosterInfo) (inst : B256)
    (answer : UInt8 → Sent PublicKeyInfo) :
    ∃ err, b.refresh debug rosters pubkeys inst answer = ([], some (.error err)) := by
  unfold RemoteBackend.refresh
  -- the two steps before the posts: the rosters, then every cosigner's public key
  rcases b.preflightRoster rosters with err | u
  · exact ⟨err, rfl⟩
  rcases hAnchor : b.anchor pubkeys with err | first
  · exact ⟨err, rfl⟩
  simp only [RemoteBackend.anchor, bind_eq_ok] at hAnchor
  obtain ⟨infos, hInfos, -⟩ := hAnchor
  obtain ⟨info, -, hRead⟩ := mapM_mem hInfos hc
  simp only [bind_eq_ok] at hRead
  obtain ⟨value, hGet, -⟩ := hRead
  rw [hPubkey] at hGet
  have hOk : (.error e : Except CosignerError PublicKeyInfo) = .ok value := getJson_respond hGet
  simp at hOk

end

-- ---------------------------------------------------------------------------
-- A plaintext shard under a seal key
-- ---------------------------------------------------------------------------

section

variable {P : Type} (codec : Carbon.Codec P) (party : P)

/-- What `save_shard` leaves of an encoded shard under `Passthrough`. -/
def savedPlain (dir : ShardDir) (meta_ : SignerMetadata) (nonce : Bytes) : ShardDir :=
  (dir.save meta_ (passthrough.sealBytes nonce (Carbon.encode codec party).bytes) none).1

/-- A plaintext shard has no magic, so no seal key opens it. -/
theorem savedPlain_closed (dir : ShardDir) (meta_ : SignerMetadata) (nonce : Bytes)
    (X : XChaCha20Poly1305) (key : B256) :
    Closed (xchachaSealer X key) (savedPlain codec party dir meta_ nonce) where
  metadata := ⟨meta_, rfl⟩
  shard := ⟨_, rfl, xchacha_unprefixed (Carbon.encode_unsealed party)⟩

/-- A plaintext shard and a seal key, whichever: under `Passthrough` the shard
loads; under the key its load is refused, so is `GET /pubkey`, and so are all
requests of all runs, with nothing dialed and the bytes as they were; an
orchestrator's refresh ends before it posts. What is saved under the key opens
under it. -/
theorem unsealed_refused {C : Crypto} (A : Eth.Alloy) (st : CosignerState C)
    (publicKeyOf : KeyShare → Except MpcError PubkeySec1) (dir₀ : ShardDir)
    (meta_ : SignerMetadata) (nonce : Bytes) (X : XChaCha20Poly1305) (key : B256)
    (hX : X.RoundTrips) :
    let dir := savedPlain codec party dir₀ meta_ nonce
    let reopened := { st with sealer := xchachaSealer X key }
    loadShard passthrough dir none = .ok (Carbon.encode codec party) ∧
    loadShard reopened.sealer dir none = .error .Seal ∧
    pubkey reopened publicKeyOf dir ⟨none, none⟩ = .error (.State .Seal) ∧
    (∀ w, (service A reopened publicKeyOf).machine.Reach ReadsPresent (World.init ⟨dir, false⟩) w →
      w.shared = ⟨dir, false⟩ ∧ w.log = [] ∧
        ∀ id a, w.answers id = some a → ∃ e, a = .error e) ∧
    (∀ (W : Web) (b : RemoteBackend W), ∀ c ∈ b.cosigners, ∀ render debug rosters inst answer
        (pubkeys : UInt8 → Sent PublicKeyInfo),
      pubkeys c.1 = .ok (respond A render (.error (.State .Seal))) →
      ∃ err, b.refresh debug rosters pubkeys inst answer = ([], some (.error err))) ∧
    ∀ (dir₁ : ShardDir) meta' (share : KeyShare) nonce' sealed,
      reopened.sealer.sealBytes nonce' share.bytes = .ok sealed →
      loadShard reopened.sealer (dir₁.save meta' (.ok sealed) none).1 none = .ok share := by
  intro dir reopened
  have hClosed : Closed reopened.sealer dir := savedPlain_closed codec party dir₀ meta_ nonce X key
  have hPresent : (⟨none, none⟩ : Faults).Present := ⟨by simp, by simp⟩
  refine ⟨rfl, hClosed.loadShard none, hClosed.pubkey hPresent publicKeyOf, ?_, ?_, ?_⟩
  · -- all runs
    intro w hReach
    have hRefusing := closed_forever hClosed hReach
    exact ⟨hRefusing.shared, hRefusing.log, hRefusing.answers⟩
  · -- the orchestrator's refresh
    intro W b c hc render debug rosters inst answer pubkeys hPubkey
    exact refresh_unposted hc hPubkey debug rosters inst answer
  · -- what the same cosigner saves it can load
    intro dir₁ meta' share nonce' sealed hSealed
    have hOpen : reopened.sealer.openBytes sealed = .ok share.bytes := xchacha_roundTrip hX hSealed
    have hShard : (dir₁.save meta' (.ok sealed) none).1.shard = some sealed := by rw [save_ok]
    show (do
      let b ← readOrNotFound none (dir₁.save meta' (.ok sealed) none).1.shard
      let p ← reopened.sealer.openBytes b
      return ⟨p⟩ : Except StateError KeyShare) = .ok share
    rw [hShard]
    show (do
      let p ← reopened.sealer.openBytes sealed
      return ⟨p⟩ : Except StateError KeyShare) = .ok share
    rw [hOpen]
    rfl

end

namespace Sample

/-- A party is the byte it serializes to. -/
def codec : Carbon.Codec UInt8 := ⟨fun p => [p], fun bytes => bytes.head?⟩

/-- What the example's library says of its one party. -/
def view : Carbon.PartyView UInt8 where
  partyIndex _ := ⟨1, Carbon.PartyIndex.one_ne_zero⟩
  threshold _ := 2
  shareCount _ := 3
  publicKey _ := Eth.Sample.pubkey

/-- A ciphertext is its key, nonce and message. -/
def xchacha : XChaCha20Poly1305 where
  encrypt k n msg := some (k.bytes ++ n.bytes ++ msg)
  decrypt k n ct :=
    let header := k.bytes ++ n.bytes
    if ct.take header.length = header then some (ct.drop header.length) else none

/-- The example's cipher undoes itself. -/
theorem xchacha_roundTrips : xchacha.RoundTrips := by
  intro k n msg ct h
  obtain rfl := Option.some.inj h
  show (if _ then _ else _) = _
  rw [if_pos List.take_left, List.drop_left]

/-- Party 0's plaintext shard. -/
def plainDir : ShardDir :=
  savedPlain codec 7 .empty ⟨activeSignerId, Eth.Sample.pubkey⟩ (List.replicate 24 5)

/-- Party 0 restarted with a seal key. -/
def reopened : CosignerState Symbolic.crypto :=
  { state with sealer := xchachaSealer xchacha (.repeatByte 32 9) }

end Sample

/-- The seal key stays refused whatever happens, and what it seals it opens. -/
theorem unsealed_refused_sample :
    pubkey Sample.reopened (Carbon.publicKeyOf Sample.codec Sample.view) Sample.plainDir
      ⟨none, none⟩ = .error (.State .Seal) :=
  (unsealed_refused Sample.codec 7 Eth.Sample.alloy Sample.state
    (Carbon.publicKeyOf Sample.codec Sample.view) .empty ⟨activeSignerId, Eth.Sample.pubkey⟩
    (List.replicate 24 5) Sample.xchacha (.repeatByte 32 9) Sample.xchacha_roundTrips).2.2.1

/-- `GET /pubkey` answers the shard's key while the store is plaintext and stops
with the seal key; the refresh handler stops before it dials. -/
theorem migration_stuck :
    pubkey Sample.state (Carbon.publicKeyOf Sample.codec Sample.view) Sample.plainDir
        ⟨none, none⟩ = .ok (.publicKey ⟨Eth.Sample.pubkey⟩) ∧
      pubkey Sample.reopened (Carbon.publicKeyOf Sample.codec Sample.view) Sample.plainDir
        ⟨none, none⟩ = .error (.State .Seal) ∧
      (∃ req, (∃ next, refresh Sample.state Sample.plainDir ⟨none, none⟩ req = .ok next) ∧
        refresh Sample.reopened Sample.plainDir ⟨none, none⟩ req = .error (.State .Seal)) := by
  refine ⟨rfl, rfl, ⟨.repeatByte 32 1, 3, 2, Eth.Sample.pubkey⟩, ⟨_, rfl⟩, rfl⟩

end Sovra.Cosigner
