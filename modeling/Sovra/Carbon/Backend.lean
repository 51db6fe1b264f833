import Sovra.Cosigner.Crash
import Sovra.State.Atomic

/-!
# Sovra — the stores of the in-process backend

`InProcessBackend`'s own part of a key generation and of a refresh: what becomes
of the parties' results and of the shard stores, and what `recover_active` makes
of the stores at the next start. A save may fail in any of its steps, and leaves
the stores before it saved, its own cut off and the rest untouched. The API
starts a key generation only while it knows of no key.

* `Inv.step`      — what one operation keeps.
* `recover_exact` — a key is recovered exactly if a key generation succeeded.
-/

namespace Sovra.Carbon

open Lib Mpc State Cosigner

-- ---------------------------------------------------------------------------
-- The backend
-- ---------------------------------------------------------------------------

/-- `SignerStore`, with the one signer's directory. -/
structure SignerStore where
  sealer : ShardSealer
  dir : ShardDir

/-- How one `save_shard` goes: the nonce it seals under and the step that fails. -/
structure SaveFate where
  nonce : Bytes
  stop : Option (Nat × StateError)

/-- `save_shard`, as far as it gets. -/
def SignerStore.saveShard (store : SignerStore) (meta_ : SignerMetadata) (share : KeyShare)
    (fate : SaveFate) : SignerStore × Except StateError Unit :=
  let (dir, result) :=
    store.dir.save meta_ (store.sealer.sealBytes fate.nonce share.bytes) fate.stop
  ({ store with dir }, result)

/-- The saving loop of `persist_generation`, up to the first failure. -/
def saveAll (meta_ : SignerMetadata) :
    List SignerStore → List KeyShare → List SaveFate → List SignerStore × Except MpcError Unit
  | store :: stores, share :: shares, fate :: fates =>
    match store.saveShard meta_ share fate with
    | (store, .error e) => (store :: stores, .error (.dkg e.display))
    | (store, .ok ()) =>
      let (stores, result) := saveAll meta_ stores shares fates
      (store :: stores, result)
  | stores, _, _ => (stores, .ok ())

/-- The results of all parties, if they succeeded on one key. -/
def agreedPairs (results : List (Except Halt (KeyShare × PubkeySec1))) (op : String) :
    Except Halt (List (KeyShare × PubkeySec1) × PubkeySec1) := do
  let pairs ← results.mapM id
  let first ← at_ pairs[0]?
  match pairs.find? fun pair => pair.2 ≠ first.2 with
  | none => return (pairs, first.2)
  | some (_, other) => .error (.error (.partyMismatch (op ++ " public keys differ: " ++
      hexEncode first.2.bytes ++ " != " ++ hexEncode other.bytes)))

/-- `persist_generation`: agree first, then save one store after the other. -/
def persistGeneration (stores : List SignerStore)
    (results : List (Except Halt (KeyShare × PubkeySec1))) (op : String) (fates : List SaveFate) :
    List SignerStore × Except Halt PubkeySec1 :=
  match agreedPairs results op with
  | .error e => (stores, .error e)
  | .ok (pairs, publicKey) =>
    match saveAll (activeMetadata publicKey) stores (pairs.map Prod.fst) fates with
    | (stores, .error e) => (stores, .error (.error e))
    | (stores, .ok ()) => (stores, .ok publicKey)

/-- `{:?}` of one entry of `reports`. -/
def debugReport (report : Nat × Option PubkeySec1) : String :=
  "(" ++ toString report.1 ++ ", " ++ (match report.2 with
    | none => "None"
    | some key => "Some(PubkeySec1(" ++ debugList key.bytes ++ "))") ++ ")"

/-- One store's entry of `reports`; `faults` are read failures, by store. -/
def reportOf (faults : Nat → Faults) (entry : SignerStore × Nat) :
    Except Halt (Nat × Option PubkeySec1) := do
  let active ← (loadActive entry.1.sealer entry.1.dir (faults entry.2).metadata
    (faults entry.2).shard).mapError fun e => Halt.error (.dkg e.display)
  return (entry.2, active)

/-- `recover_active`: all stores must say the same. -/
def recoverActive (stores : List SignerStore) (faults : Nat → Faults) :
    Except Halt (Option PubkeySec1) := do
  let reports ← stores.zipIdx.mapM (reportOf faults)
  let first ← at_ reports[0]?
  ensure (∀ report ∈ reports, report.2 = first.2) (.error (.dkg ("shard stores disagree ([" ++
    ", ".intercalate (reports.map debugReport) ++
    "]); partial dkg state — wipe the store dirs and re-run dkg")))
  return first.2

/-- What precedes a refresh: every store's shard, and the key of the first. -/
def loadShares (D : Dkls) (stores : List SignerStore) (faults : Nat → Faults) :
    Except Halt (List KeyShare × PubkeySec1) := do
  let shares ← stores.zipIdx.mapM fun (store, party) =>
    (loadShard store.sealer store.dir (faults party).shard).mapError fun e =>
      Halt.error (.dkg e.display)
  let first ← at_ shares[0]?
  let publicKey ← (publicKeyOf D.party D.view first).mapError Halt.error
  return (shares, publicKey)

-- ---------------------------------------------------------------------------
-- Its runs
-- ---------------------------------------------------------------------------

/-- The stores, and the key the API knows of since a key generation succeeded. -/
structure Backend where
  stores : List SignerStore
  active : Option PubkeySec1

/-- An operation, with what the parties' runs and the saves come to. -/
inductive Operation
  | dkg (results : List (Except Halt (KeyShare × PubkeySec1))) (fates : List SaveFate)
  | refresh (faults : Nat → Faults) (results : List (Except Halt (KeyShare × PubkeySec1)))
      (fates : List SaveFate)

/-- One operation of the API on the backend. -/
def Backend.operate (D : Dkls) (b : Backend) : Operation → Option Backend
  | .dkg results fates =>
    match persistGeneration b.stores results "dkg" fates with
    | (stores, .ok publicKey) => some ⟨stores, some publicKey⟩
    | (stores, .error _) => some { b with stores }
  | .refresh faults results fates =>
    match loadShares D b.stores faults with
    | .error _ => some b
    | .ok _ => some { b with stores := (persistGeneration b.stores results "refresh" fates).1 }

/-- The backend as a transition system. -/
def backend (D : Dkls) : Machine Backend Operation := ⟨Backend.operate D⟩

/-- Every store has a result and a fate. A party's result is one its runner can
end with: of some key generation; or of a refresh of its own shard under the key
of the first. -/
def Runs (D : Dkls) (text : UInt8 → UInt8 → String) (b : Backend) : Operation → Prop
  | .dkg results fates =>
    results.length = b.stores.length ∧ fates.length = b.stores.length ∧
      ∀ r, .ok r ∈ results → ∃ (C : Crypto) (ctx : PartyContext C) (S : Type) (L : DkgPhases D S),
        (keygenParty D text L ctx).Yields r
  | .refresh faults results fates =>
    results.length = b.stores.length ∧ fates.length = b.stores.length ∧
      ∀ shares publicKey, loadShares D b.stores faults = .ok (shares, publicKey) →
        ∀ r, .ok r ∈ results → ∃ share ∈ shares,
          ∃ (C : Crypto) (ctx : PartyContext C) (L : RefreshPhases D),
            (refreshParty D text L ctx share publicKey).Yields r

/-- No key generation is started once one has succeeded. -/
def Unprovisioned (b : Backend) : Operation → Prop
  | .dkg _ _ => b.active = none
  | .refresh _ _ _ => True

-- ---------------------------------------------------------------------------
-- One save
-- ---------------------------------------------------------------------------

section

variable {μ σ : Type} {dir dir' : SignerDir μ σ} {meta_ : μ} {sealed : Except StateError σ}
  {stop : Option (Nat × StateError)}

/-- A save that stops at step `k` leaves what the steps before it left. -/
theorem save_stopped (k : Nat) (e : StateError) :
    dir.save meta_ sealed (some (k, e)) = (dir.cut meta_ sealed k,
      if k < (saveShard meta_ sealed).1.length then .error e else (saveShard meta_ sealed).2) := rfl

/-- A save that returns has replaced both files. -/
theorem save_done (h : dir.save meta_ sealed stop = (dir', .ok ())) :
    ∃ content, sealed = .ok content ∧ dir' = ⟨some meta_, some content, none, none⟩ := by
  have hAll : dir.save meta_ sealed none = (dir', .ok ()) := by
    rcases stop with _ | ⟨k, e⟩
    · exact h
    · rw [save_stopped, Prod.mk.injEq] at h
      obtain ⟨hDir, hResult⟩ := h
      by_cases hShort : k < (saveShard meta_ sealed).1.length
      · rw [if_pos hShort] at hResult
        cases hResult
      · rw [if_neg hShort] at hResult
        rw [← hDir, ← hResult, SignerDir.cut, List.take_of_length_le (Nat.le_of_not_lt hShort)]
        rfl
  rcases sealed with e | content
  · simp [SignerDir.save, saveShard] at hAll
  · rw [save_ok, Prod.mk.injEq] at hAll
    exact ⟨content, rfl, hAll.1.symm⟩

/-- One that fails has not replaced the shard, which is the last step. -/
theorem save_failed {e : StateError} (h : dir.save meta_ sealed stop = (dir', .error e)) :
    dir'.shard = dir.shard := by
  rcases stop with _ | ⟨k, e'⟩
  · rcases sealed with e' | content
    · obtain rfl := congrArg Prod.fst h
      rfl
    · simp [save_ok] at h
  · rw [save_stopped, Prod.mk.injEq] at h
    obtain ⟨rfl, hResult⟩ := h
    rcases cut_files dir meta_ sealed k with ⟨-, hShard⟩ | ⟨-, hShard⟩ | ⟨content, rfl, -, -⟩
    · exact hShard
    · exact hShard
    · by_cases hShort : k < (saveShard meta_ (.ok content)).1.length
      · have hSteps : k < 8 := hShort
        interval_cases k <;> rfl
      · rw [if_neg hShort] at hResult
        cases hResult

end

-- ---------------------------------------------------------------------------
-- The saving loop
-- ---------------------------------------------------------------------------

section

variable {meta_ : SignerMetadata} {stores stores' : List SignerStore} {shares : List KeyShare}
  {fates : List SaveFate} {result : Except MpcError Unit}

/-- A save is a save of the directory; the sealer is what it was. -/
theorem saveShard_sealer {store store' : SignerStore} {share : KeyShare} {fate : SaveFate}
    {r : Except StateError Unit} (h : store.saveShard meta_ share fate = (store', r)) :
    store'.sealer = store.sealer ∧
      store.dir.save meta_ (store.sealer.sealBytes fate.nonce share.bytes) fate.stop =
        (store'.dir, r) := by
  simp only [SignerStore.saveShard, Prod.mk.injEq] at h
  obtain ⟨rfl, rfl⟩ := h
  exact ⟨rfl, rfl⟩

/-- Each store is left alone or had a save of some party's share, perhaps cut off. -/
theorem saveAll_each (h : saveAll meta_ stores shares fates = (stores', result)) :
    ∀ store' ∈ stores', ∃ store ∈ stores, store'.sealer = store.sealer ∧
      (store'.dir = store.dir ∨ ∃ share ∈ shares, ∃ nonce steps, store'.dir =
        store.dir.cut meta_ (store.sealer.sealBytes nonce share.bytes) steps) := by
  have hSaved : ∀ {store store' : SignerStore} {share : KeyShare} {fate : SaveFate}
      {r : Except StateError Unit}, store.saveShard meta_ share fate = (store', r) →
      store'.sealer = store.sealer ∧ ∃ nonce steps, store'.dir =
        store.dir.cut meta_ (store.sealer.sealBytes nonce share.bytes) steps := by
    intro store store' share fate r hSave
    obtain ⟨hSealer, hDir⟩ := saveShard_sealer hSave
    obtain ⟨steps, hCut⟩ := save_cut store.dir meta_
      (store.sealer.sealBytes fate.nonce share.bytes) fate.stop
    rw [hDir] at hCut
    exact ⟨hSealer, fate.nonce, steps, hCut⟩
  -- one case for each way the loop goes: a save fails, a save is followed by the rest,
  -- or nothing is left to save
  fun_induction saveAll meta_ stores shares fates generalizing stores' result with
  | case1 store stores share shares fate fates store₁ e hSave =>
    obtain ⟨rfl, rfl⟩ := Prod.mk.inj h
    obtain ⟨hSealer, nonce, steps, hCut⟩ := hSaved hSave
    intro store' hMem
    rcases List.mem_cons.mp hMem with rfl | hRest
    · exact ⟨store, List.mem_cons_self, hSealer, Or.inr ⟨share, List.mem_cons_self, nonce, steps,
        hCut⟩⟩
    · exact ⟨store', List.mem_cons_of_mem _ hRest, rfl, Or.inl rfl⟩
  | case2 store stores share shares fate fates store₁ hSave rest r hRest ih =>
    obtain ⟨rfl, rfl⟩ := Prod.mk.inj h
    obtain ⟨hSealer, nonce, steps, hCut⟩ := hSaved hSave
    intro store' hMem
    rcases List.mem_cons.mp hMem with rfl | hLater
    · exact ⟨store, List.mem_cons_self, hSealer, Or.inr ⟨share, List.mem_cons_self, nonce, steps,
        hCut⟩⟩
    · obtain ⟨old, hOld, hSame, hDir⟩ := ih hRest store' hLater
      refine ⟨old, List.mem_cons_of_mem _ hOld, hSame, hDir.imp id ?_⟩
      rintro ⟨share', hShare, hCut'⟩
      exact ⟨share', List.mem_cons_of_mem _ hShare, hCut'⟩
  | case3 stores shares fates hNone =>
    obtain ⟨rfl, rfl⟩ := Prod.mk.inj h
    exact fun store' hMem => ⟨store', hMem, rfl, Or.inl rfl⟩

/-- The loop loses no store. -/
theorem saveAll_length (h : saveAll meta_ stores shares fates = (stores', result)) :
    stores'.length = stores.length := by
  fun_induction saveAll meta_ stores shares fates generalizing stores' result with
  | case1 => obtain ⟨rfl, rfl⟩ := Prod.mk.inj h; rfl
  | case2 store stores share shares fate fates store₁ hSave rest r hRest ih =>
    obtain ⟨rfl, rfl⟩ := Prod.mk.inj h
    rw [List.length_cons, List.length_cons, ih hRest]
  | case3 => obtain ⟨rfl, rfl⟩ := Prod.mk.inj h; rfl

/-- A loop that gets through has replaced both files of every store. -/
theorem saveAll_ok (hShares : shares.length = stores.length) (hFates : fates.length = stores.length)
    (h : saveAll meta_ stores shares fates = (stores', .ok ())) :
    ∀ store' ∈ stores', ∃ share ∈ shares, ∃ nonce content,
      store'.sealer.sealBytes nonce share.bytes = .ok content ∧
        store'.dir = ⟨some meta_, some content, none, none⟩ := by
  fun_induction saveAll meta_ stores shares fates generalizing stores' with
  | case1 => simp at h
  -- the first store is written, and the rest by induction
  | case2 store stores share shares fate fates store₁ hSave rest r hRest ih =>
    obtain ⟨rfl, rfl⟩ := Prod.mk.inj h
    intro store' hMem
    rcases List.mem_cons.mp hMem with rfl | hLater
    · obtain ⟨hSealer, hDir⟩ := saveShard_sealer hSave
      obtain ⟨content, hSeal, hFiles⟩ := save_done hDir
      exact ⟨share, List.mem_cons_self, fate.nonce, content, hSealer ▸ hSeal, hFiles⟩
    · obtain ⟨share', hShare, hFiles⟩ :=
        ih (Nat.succ.inj hShares) (Nat.succ.inj hFates) hRest store' hLater
      exact ⟨share', List.mem_cons_of_mem _ hShare, hFiles⟩
  -- one of the three lists is empty, so all are
  | case3 stores shares fates hNone =>
    obtain ⟨rfl, -⟩ := Prod.mk.inj h
    rcases stores with _ | ⟨store, stores⟩
    · simp
    · rcases shares with _ | ⟨share, shares⟩
      · simp at hShares
      rcases fates with _ | ⟨fate, fates⟩
      · simp at hFates
      · exact (hNone store stores share shares fate fates rfl rfl rfl).elim

/-- One that fails has not replaced the last store's shard. -/
theorem saveAll_failed {e : MpcError} (h : saveAll meta_ stores shares fates = (stores', .error e)) :
    stores'.getLast?.map (fun store => store.dir.shard) =
      stores.getLast?.map fun store => store.dir.shard := by
  -- on the loop; a failure is at the last store or before it
  fun_induction saveAll meta_ stores shares fates generalizing stores' with
  | case1 store stores share shares fate fates store₁ e' hSave =>
    obtain ⟨rfl, -⟩ := Prod.mk.inj h
    obtain ⟨-, hDir⟩ := saveShard_sealer hSave
    rcases stores with _ | ⟨next, stores⟩
    · simp [save_failed hDir]
    · rw [List.getLast?_cons_cons, List.getLast?_cons_cons]
  | case2 store stores share shares fate fates store₁ hSave rest r hRest ih =>
    obtain ⟨rfl, rfl⟩ := Prod.mk.inj h
    have hSame := ih hRest
    have hLength := saveAll_length hRest
    rcases stores with _ | ⟨next, stores⟩
    · -- an empty rest cannot fail
      simp [saveAll] at hRest
    · rcases rest with _ | ⟨next', rest⟩
      · simp at hLength
      · rwa [List.getLast?_cons_cons, List.getLast?_cons_cons]
  | case3 => simp at h

end

-- ---------------------------------------------------------------------------
-- What the stores hold
-- ---------------------------------------------------------------------------

/-- The store holds `publicKey` and a shard of it that loads. -/
structure Holds (D : Dkls) (publicKey : PubkeySec1) (store : SignerStore) : Prop where
  metadata : store.dir.metadata = some (activeMetadata publicKey)
  shard : ∃ share, loadShard store.sealer store.dir none = .ok share ∧
    publicKeyOf D.party D.view share = .ok publicKey

/-- No key generation has succeeded, and the last store has no shard; or one has,
and all stores hold its key. -/
structure Backend.Inv (D : Dkls) (b : Backend) : Prop where
  some_store : b.stores ≠ []
  opens : ∀ store ∈ b.stores, Opens store.sealer
  unset : b.active = none → b.stores.getLast?.map (fun store => store.dir.shard) = some none
  held : ∀ publicKey, b.active = some publicKey → ∀ store ∈ b.stores, Holds D publicKey store

section

variable {D : Dkls} {text : UInt8 → UInt8 → String} {publicKey : PubkeySec1}
  {store store' : SignerStore} {results : List (Except Halt (KeyShare × PubkeySec1))}
  {pairs : List (KeyShare × PubkeySec1)} {op : String}

/-- Loading the shard reads the shard file alone. -/
theorem loadShard_congr {sealer : ShardSealer} {dir dir' : ShardDir} (h : dir.shard = dir'.shard)
    (fault : Option StateError) : loadShard sealer dir fault = loadShard sealer dir' fault := by
  unfold loadShard
  rw [h]

/-- A save of a share of the same key, wherever it stops, keeps the key held. -/
theorem Holds.cut (h : Holds D publicKey store) (hOpens : Opens store.sealer)
    (hSealer : store'.sealer = store.sealer) {share : KeyShare}
    (hKey : publicKeyOf D.party D.view share = .ok publicKey) {nonce : Bytes} {steps : Nat}
    (hDir : store'.dir = store.dir.cut (activeMetadata publicKey)
      (store.sealer.sealBytes nonce share.bytes) steps) : Holds D publicKey store' := by
  rcases cut_files store.dir (activeMetadata publicKey)
    (store.sealer.sealBytes nonce share.bytes) steps with
    ⟨hMeta, hShard⟩ | ⟨hMeta, hShard⟩ | ⟨content, hSeal, hMeta, hShard⟩
  · refine ⟨by rw [hDir, hMeta, h.metadata], ?_⟩
    rw [hSealer, hDir, loadShard_congr hShard]
    exact h.shard
  · refine ⟨by rw [hDir, hMeta], ?_⟩
    rw [hSealer, hDir, loadShard_congr hShard]
    exact h.shard
  · refine ⟨by rw [hDir, hMeta], share, ?_, hKey⟩
    rw [hSealer, hDir]
    exact loadShard_of_sealed hOpens hShard hSeal

/-- Agreed results all carry the key. -/
theorem agreedPairs_ok (h : agreedPairs results op = .ok (pairs, publicKey)) :
    pairs.length = results.length ∧
      ∀ pair ∈ pairs, .ok pair ∈ results ∧ pair.2 = publicKey := by
  simp only [agreedPairs, bind_eq_ok] at h
  obtain ⟨found, hAll, first, -, hAgree⟩ := h
  split at hAgree
  case h_2 => simp at hAgree
  rename_i hNone
  simp only [pure_eq_ok, Prod.mk.injEq] at hAgree
  obtain ⟨rfl, rfl⟩ := hAgree
  refine ⟨mapM_length hAll, fun pair hPair => ⟨?_, ?_⟩⟩
  · obtain ⟨result, hResult, hSame⟩ := mapM_origin hAll hPair
    exact hSame ▸ hResult
  · have hSame := List.find?_eq_none.mp hNone pair hPair
    simpa using hSame

/-- What persisting agreed results of one key leaves: every store as it was, or
with a save of a share of that key, perhaps cut off. -/
theorem persist_each {stores stores' : List SignerStore} {fates : List SaveFate}
    {answer : Except Halt PubkeySec1} (h : persistGeneration stores results op fates =
      (stores', answer)) :
    ∀ store' ∈ stores', ∃ store ∈ stores, store'.sealer = store.sealer ∧
      (store'.dir = store.dir ∨ ∃ share key nonce steps, .ok (share, key) ∈ results ∧
        store'.dir = store.dir.cut (activeMetadata key)
          (store.sealer.sealBytes nonce share.bytes) steps) := by
  unfold persistGeneration at h
  split at h
  · -- nothing agreed upon, so nothing saved
    obtain ⟨rfl, -⟩ := Prod.mk.inj h
    exact fun store' hMem => ⟨store', hMem, rfl, Or.inl rfl⟩
  · rename_i pairs key hAgreed
    obtain ⟨-, hPairs⟩ := agreedPairs_ok hAgreed
    -- saved store by store, up to a failure
    obtain ⟨stores₁, result, hSaved, rfl⟩ : ∃ stores₁ result,
        saveAll (activeMetadata key) stores (pairs.map Prod.fst) fates = (stores₁, result) ∧
          stores₁ = stores' := by
      split at h
      · rename_i stores₁ e hSaved
        exact ⟨_, _, hSaved, (Prod.mk.inj h).1⟩
      · rename_i stores₁ hSaved
        exact ⟨_, _, hSaved, (Prod.mk.inj h).1⟩
    intro store' hMem
    obtain ⟨store, hStore, hSealer, hDir⟩ := saveAll_each hSaved store' hMem
    refine ⟨store, hStore, hSealer, hDir.imp id ?_⟩
    rintro ⟨share, hShare, nonce, steps, hCut⟩
    obtain ⟨⟨share', key'⟩, hPair, rfl⟩ := List.mem_map.mp hShare
    obtain ⟨hResult, rfl⟩ := hPairs _ hPair
    exact ⟨_, _, nonce, steps, hResult, hCut⟩

/-- Nor does saving a generation. -/
theorem persist_nonempty {stores stores' : List SignerStore} {fates : List SaveFate}
    {answer : Except Halt PubkeySec1} (h : persistGeneration stores results op fates =
      (stores', answer)) (hStores : stores ≠ []) : stores' ≠ [] := by
  have hLength : stores'.length = stores.length := by
    unfold persistGeneration at h
    split at h
    · rw [(Prod.mk.inj h).1]
    · split at h
      · rename_i stores₁ e hSaved
        rw [← (Prod.mk.inj h).1, saveAll_length hSaved]
      · rename_i stores₁ hSaved
        rw [← (Prod.mk.inj h).1, saveAll_length hSaved]
  intro hNil
  rw [hNil, List.length_nil, eq_comm, List.length_eq_zero_iff] at hLength
  exact hStores hLength

-- ---------------------------------------------------------------------------
-- What an operation keeps
-- ---------------------------------------------------------------------------

variable {b b' : Backend} (h : b.Inv D) (hCodec : D.party.RoundTrips)
include h hCodec

/-- A key generation: all stores get the new key and the API learns it, or some save
was cut off and the API knows of none. -/
theorem Backend.Inv.dkg {fates : List SaveFate} (hRuns : Runs D text b (.dkg results fates))
    (hNone : b.active = none)
    (hStep : b.operate D (.dkg results fates) = some b') : b'.Inv D := by
  obtain ⟨hResults, hFates, hYields⟩ := hRuns
  obtain ⟨stores', answer, hPersist⟩ :
      ∃ stores' answer, persistGeneration b.stores results "dkg" fates = (stores', answer) :=
    ⟨_, _, rfl⟩
  have hOpens : ∀ store ∈ stores', Opens store.sealer := by
    intro store hMem
    obtain ⟨old, hOld, hSealer, -⟩ := persist_each hPersist store hMem
    rw [hSealer]
    exact h.opens old hOld
  have hSome := persist_nonempty hPersist h.some_store
  simp only [Backend.operate, hPersist] at hStep
  unfold persistGeneration at hPersist
  split at hPersist
  · -- a party failed, or they differ: nothing was saved
    obtain ⟨rfl, rfl⟩ := Prod.mk.inj hPersist
    obtain rfl := Option.some.inj hStep
    exact ⟨hSome, hOpens, h.unset, h.held⟩
  rename_i pairs publicKey hAgreed
  obtain ⟨hLength, hPairs⟩ := agreedPairs_ok hAgreed
  split at hPersist
  · -- a save failed: no key is active, whatever the stores hold by now
    rename_i saved e hSaved
    obtain ⟨rfl, rfl⟩ := Prod.mk.inj hPersist
    obtain rfl := Option.some.inj hStep
    refine ⟨hSome, hOpens, fun _ => ?_, fun key hKey => ?_⟩
    · rw [saveAll_failed hSaved]
      exact h.unset hNone
    · rw [hNone] at hKey
      cases hKey
  · -- all were saved: every store holds a share of the agreed key
    rename_i saved hSaved
    obtain ⟨rfl, rfl⟩ := Prod.mk.inj hPersist
    obtain rfl := Option.some.inj hStep
    refine ⟨hSome, hOpens, (fun hUnset => by cases hUnset), ?_⟩
    rintro key hKey store hMem
    obtain rfl := Option.some.inj hKey
    have hShares : (pairs.map Prod.fst).length = b.stores.length := by
      rw [List.length_map, hLength, hResults]
    obtain ⟨share, hShare, nonce, content, hSeal, hDir⟩ :=
      saveAll_ok hShares hFates hSaved store hMem
    obtain ⟨⟨share', key'⟩, hPair, rfl⟩ := List.mem_map.mp hShare
    obtain ⟨hResult, rfl⟩ := hPairs _ hPair
    obtain ⟨C, ctx, S, L, hYield⟩ := hYields _ hResult
    refine ⟨by rw [hDir], share', ?_, keygen_yields hCodec hYield⟩
    exact loadShard_of_sealed (hOpens store hMem) (by rw [hDir]) hSeal

omit hCodec in
/-- Without a key the last store has no shard to refresh. -/
theorem Backend.Inv.no_shares (hNone : b.active = none) (faults : Nat → Faults)
    (shares : List KeyShare) : loadShares D b.stores faults ≠ .ok (shares, publicKey) := by
  intro hLoad
  simp only [loadShares, bind_eq_ok] at hLoad
  obtain ⟨found, hAll, -⟩ := hLoad
  have hLast := h.unset hNone
  obtain ⟨store, hStore, hShard⟩ := Option.map_eq_some_iff.mp hLast
  have hMem : (store, b.stores.length - 1) ∈ b.stores.zipIdx := by
    refine List.mem_zipIdx_iff_getElem?.mpr ?_
    rw [← List.getLast?_eq_getElem?]
    exact hStore
  obtain ⟨share, -, hShare⟩ := mapM_mem hAll hMem
  obtain ⟨-, sealed, hSealed, -⟩ := loadShard_ok (mapError_eq_ok.mp hShare)
  rw [hShard] at hSealed
  cases hSealed

/-- A refresh leaves every store with the key it had, however its saves end. -/
theorem Backend.Inv.refresh {faults : Nat → Faults} {fates : List SaveFate}
    (hRuns : Runs D text b (.refresh faults results fates))
    (hStep : b.operate D (.refresh faults results fates) = some b') : b'.Inv D := by
  obtain ⟨hResults, hFates, hYields⟩ := hRuns
  simp only [Backend.operate] at hStep
  split at hStep
  · -- the shares could not be loaded
    obtain rfl := Option.some.inj hStep
    exact h
  rename_i loaded hLoad
  obtain ⟨shares, publicKey⟩ := loaded
  obtain rfl := Option.some.inj hStep
  obtain ⟨stores', answer, hPersist⟩ :
      ∃ stores' answer, persistGeneration b.stores results "refresh" fates = (stores', answer) :=
    ⟨_, _, rfl⟩
  simp only [hPersist]
  have hOpens : ∀ store ∈ stores', Opens store.sealer := by
    intro store hMem
    obtain ⟨old, hOld, hSealer, -⟩ := persist_each hPersist store hMem
    rw [hSealer]
    exact h.opens old hOld
  refine ⟨persist_nonempty hPersist h.some_store, hOpens, ?_, ?_⟩
  · intro hNone
    exact absurd hLoad (h.no_shares hNone faults shares)
  · intro key hKey store hMem
    obtain ⟨old, hOld, hSealer, hDir⟩ := persist_each hPersist store hMem
    have hHeld := h.held key hKey old hOld
    rcases hDir with hSame | ⟨share, key', nonce, steps, hResult, hCut⟩
    · -- a store that was not reached
      obtain ⟨share, hShare, hOf⟩ := hHeld.shard
      refine ⟨by rw [hSame, hHeld.metadata], share, ?_, hOf⟩
      rw [hSealer, hSame]
      exact hShare
    · -- the refreshed share is of the key of the shard it was made from
      obtain ⟨oldShare, hMine, C, ctx, L, hYield⟩ := hYields shares publicKey hLoad _ hResult
      obtain ⟨hOldKey, rfl, hNew⟩ := refresh_yields hCodec hYield
      have hLoaded : ∃ store ∈ b.stores, ∃ fault,
          loadShard store.sealer store.dir fault = .ok oldShare := by
        simp only [loadShares, bind_eq_ok, pure_eq_ok, Prod.mk.injEq] at hLoad
        obtain ⟨found, hAll, first, -, key'', -, rfl, -⟩ := hLoad
        obtain ⟨⟨store, party⟩, hAt, hOne⟩ := mapM_origin hAll hMine
        obtain ⟨-, -, hStore⟩ := List.mem_zipIdx hAt
        exact ⟨store, hStore ▸ List.getElem_mem _, _, mapError_eq_ok.mp hOne⟩
      obtain ⟨origin, hOrigin, fault, hOriginal⟩ := hLoaded
      obtain ⟨hFault, -⟩ := loadShard_ok hOriginal
      obtain ⟨held, hHeldShare, hHeldKey⟩ := (h.held key hKey origin hOrigin).shard
      rw [hFault] at hOriginal
      obtain rfl := Except.ok.inj (hOriginal.symm.trans hHeldShare)
      obtain rfl : key' = key := Except.ok.inj (hOldKey.symm.trans hHeldKey)
      exact hHeld.cut (h.opens old hOld) hSealer hNew hCut

/-- **Step lemma.** -/
theorem Backend.Inv.step {operation : Operation} (hRuns : Runs D text b operation)
    (hFirst : Unprovisioned b operation) (hStep : b.operate D operation = some b') : b'.Inv D := by
  cases operation with
  | dkg results fates => exact h.dkg hCodec hRuns hFirst hStep
  | refresh faults results fates => exact h.refresh hCodec hRuns hStep

-- ---------------------------------------------------------------------------
-- Recovery
-- ---------------------------------------------------------------------------

omit hCodec

/-- Whatever reads fail, a recovered key is the one held. -/
theorem Backend.Inv.recovered {faults : Nat → Faults}
    (hRecover : recoverActive b.stores faults = .ok (some publicKey)) :
    b.active = some publicKey := by
  simp only [recoverActive, bind_eq_ok, ensure_eq_ok, pure_eq_ok] at hRecover
  obtain ⟨reports, hAll, first, hFirst, -, hSame, hKey⟩ := hRecover
  -- every store reports the key, so the last one does
  obtain ⟨store, hLast⟩ : ∃ store, b.stores.getLast? = some store :=
    Option.ne_none_iff_exists'.mp (by rw [ne_eq, List.getLast?_eq_none_iff]; exact h.some_store)
  have hMem : (store, b.stores.length - 1) ∈ b.stores.zipIdx := by
    refine List.mem_zipIdx_iff_getElem?.mpr ?_
    rw [← List.getLast?_eq_getElem?]
    exact hLast
  obtain ⟨report, hReport, hOne⟩ := mapM_mem hAll hMem
  simp only [reportOf, bind_eq_ok, mapError_eq_ok, pure_eq_ok] at hOne
  obtain ⟨active, hActive, rfl⟩ := hOne
  obtain rfl : active = some publicKey := (hSame _ hReport).trans hKey
  obtain ⟨metadata, share, hMeta, hOf, hLoad⟩ := loadActive_some hActive
  obtain ⟨-, sealed, hSealed, -⟩ := loadShard_ok hLoad
  rcases hNow : b.active with _ | key
  · have hUnset := h.unset hNow
    rw [hLast, Option.map_some, hSealed, Option.some.injEq] at hUnset
    cases hUnset
  · have hHeld := (h.held key hNow store (List.mem_of_getLast? hLast)).metadata
    obtain rfl := Option.some.inj (hMeta.symm.trans hHeld)
    rw [← hOf]
    rfl

/-- The key held is recovered. -/
theorem Backend.Inv.recovers (hActive : b.active = some publicKey) :
    recoverActive b.stores (fun _ => ⟨none, none⟩) = .ok (some publicKey) := by
  have hReport : ∀ entry ∈ b.stores.zipIdx,
      reportOf (fun _ => ⟨none, none⟩) entry = .ok (entry.2, some publicKey) := by
    rintro ⟨store, party⟩ hMem
    obtain ⟨-, -, hAt⟩ := List.mem_zipIdx hMem
    have hHeld := h.held publicKey hActive store (hAt ▸ List.getElem_mem _)
    obtain ⟨share, hShare, -⟩ := hHeld.shard
    have hLoaded : loadActive store.sealer store.dir none none = .ok (some publicKey) := by
      unfold loadActive
      rw [hShare, loadMetadata, hHeld.metadata]
      rfl
    simp only [reportOf, hLoaded]
    rfl
  obtain ⟨first, rest, hCons⟩ := List.exists_cons_of_ne_nil h.some_store
  simp only [recoverActive, bind_eq_ok, ensure_eq_ok, pure_eq_ok]
  refine ⟨_, mapM_ok hReport, (0, some publicKey), ?_, (), ?_, rfl⟩
  · rw [hCons]
    rfl
  · intro report hMem
    obtain ⟨entry, -, rfl⟩ := List.mem_map.mp hMem
    rfl

end

/-- **A key is recovered exactly if a key generation succeeded**, whatever failed
before and since: in every run from empty stores that starts no key generation
after one has succeeded, with saves of key generations and refreshes that fail in
any step at any store, `recover_active` finds a key if and only if one was
returned, and no read failure makes it find another. Every store then has a shard
of that key that loads. -/
theorem recover_exact {D : Dkls} {text : UInt8 → UInt8 → String} (hCodec : D.party.RoundTrips)
    {sealers : List ShardSealer} (hSome : sealers ≠ []) (hOpens : ∀ s ∈ sealers, Opens s)
    {b : Backend} (hReach : (backend D).Reach (fun b o => Runs D text b o ∧ Unprovisioned b o)
      ⟨sealers.map fun sealer => ⟨sealer, .empty⟩, none⟩ b) :
    (∀ publicKey, recoverActive b.stores (fun _ => ⟨none, none⟩) = .ok (some publicKey) ↔
      b.active = some publicKey) ∧
    (∀ faults publicKey, recoverActive b.stores faults = .ok (some publicKey) →
      b.active = some publicKey) ∧
    ∀ publicKey, b.active = some publicKey → ∀ store ∈ b.stores,
      ∃ share, loadShard store.sealer store.dir none = .ok share ∧
        publicKeyOf D.party D.view share = .ok publicKey := by
  -- the invariant at the start: no key is active, and the last directory is empty
  have hInv : b.Inv D := by
    refine Machine.Reach.invariant hReach ⟨?_, ?_, ?_, ?_⟩ ?_
    · simpa using hSome
    · intro store hMem
      obtain ⟨sealer, hSealer, rfl⟩ := List.mem_map.mp hMem
      exact hOpens sealer hSealer
    · intro _
      obtain ⟨sealer, hLast⟩ : ∃ sealer, sealers.getLast? = some sealer :=
        Option.ne_none_iff_exists'.mp (by rw [ne_eq, List.getLast?_eq_none_iff]; exact hSome)
      rw [List.getLast?_map, hLast]
      rfl
    · intro publicKey hKey
      cases hKey
    · rintro b operation b' hInv ⟨hRuns, hFirst⟩ hStep
      exact hInv.step hCodec hRuns hFirst hStep
  exact ⟨fun publicKey => ⟨hInv.recovered, hInv.recovers⟩, fun faults publicKey => hInv.recovered,
    fun publicKey hActive store hMem => (hInv.held publicKey hActive store hMem).shard⟩

-- ---------------------------------------------------------------------------
-- A second key generation after one that was cut off
-- ---------------------------------------------------------------------------

namespace Sample

/-- A party's run of a key generation that went through. -/
def finished : Except Halt (KeyShare × PubkeySec1) := .ok (share 0, key)

/-- A save that no step of fails. -/
def whole : SaveFate := ⟨[], none⟩

/-- The second store gets its metadata and no shard. -/
def cutOff : Operation := .dkg [finished, finished] [whole, ⟨[], some (5, .Seal)⟩]

/-- The key generation, run again. -/
def again : Operation := .dkg [finished, finished] [whole, whole]

/-- Two stores without a shard. -/
def emptyStores : Backend := ⟨[passthrough, passthrough].map fun sealer => ⟨sealer, .empty⟩, none⟩

theorem cutOff_some : ((backend dkls).step emptyStores cutOff).isSome = true := by
  decide +kernel

/-- The stores it leaves, one of them filled. -/
def halfSaved : Backend := ((backend dkls).step emptyStores cutOff).get cutOff_some

theorem again_some : ((backend dkls).step halfSaved again).isSome = true := by
  decide +kernel

/-- The stores it leaves, both filled. -/
def saved : Backend := ((backend dkls).step halfSaved again).get again_some

/-- The runs' results are ones the runner can end with. -/
theorem finished_yields : ∀ r, .ok r ∈ [finished, finished] →
    ∃ (C : Crypto) (ctx : PartyContext C) (S : Type) (L : DkgPhases dkls S),
      (keygenParty dkls text L ctx).Yields r := by
  intro r hMem
  have hSame : .ok r = finished := by simpa using hMem
  obtain rfl := Except.ok.inj hSame
  have hFeed : (keygenParty dkls text (dkg 0) Cosigner.Sample.dkgCtx).feed
      Cosigner.Sample.dkgInboxes = some (share 0, key) := by
    decide +kernel
  exact ⟨_, Cosigner.Sample.dkgCtx, Unit, dkg 0, Script.yields_of_feed hFeed⟩

/-- What the example's operations have to be. -/
def Operates (b : Backend) (o : Operation) : Prop := Runs dkls text b o ∧ Unprovisioned b o

theorem halfSaved_reach : (backend dkls).Reach Operates emptyStores halfSaved :=
  (Machine.Reach.refl _).step (a := cutOff) ⟨⟨rfl, rfl, finished_yields⟩, rfl⟩
    (Option.some_get cutOff_some).symm

theorem saved_reach : (backend dkls).Reach Operates emptyStores saved := by
  have hNone : halfSaved.active = none := by decide +kernel
  exact halfSaved_reach.step (a := again) ⟨⟨rfl, rfl, finished_yields⟩, hNone⟩
    (Option.some_get again_some).symm

end Sample

/-- Half a key generation is no key, and a whole one after it is. -/
theorem recover_exact_again :
    (∀ publicKey, recoverActive Sample.halfSaved.stores (fun _ => ⟨none, none⟩) ≠
      .ok (some publicKey)) ∧
    recoverActive Sample.saved.stores (fun _ => ⟨none, none⟩) = .ok (some Sample.key) := by
  have hOpens : ∀ s ∈ [passthrough, passthrough], Opens s := by
    intro s hMem
    obtain rfl : s = passthrough := by simpa using hMem
    exact passthrough_opens
  have hCodec := Sample.dkls_roundTrips.party
  constructor
  · intro publicKey hRecover
    have hActive := ((recover_exact hCodec (List.cons_ne_nil _ _) hOpens
      Sample.halfSaved_reach).1 publicKey).mp
      hRecover
    have hNone : Sample.halfSaved.active = none := by decide +kernel
    rw [hNone] at hActive
    cases hActive
  · exact ((recover_exact hCodec (List.cons_ne_nil _ _) hOpens Sample.saved_reach).1 _).mpr
      (by decide +kernel)

end Sovra.Carbon
