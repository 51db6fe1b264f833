import Sovra.Lib.Cut
import Sovra.Lib.Transition
import Sovra.State.Atomic

/-!
# Sovra — a store of signers

All of `SignerStore`, as programs on a disk: `save_shard`, the reads,
`find_by_public_key`. The store is a map from signer ids to what is kept under
them. A save that is stopped leaves the entry as it was, or with the new metadata
alone, or replaced; it touches no other entry, and an id that could name
anything but a directory of its own is refused.

* `persistShard_always`   — what a save leaves, wherever it stops.
* `store_keeps`           — every read returns what the saves so far come to.
* `active_of_acknowledged` — a completed save is never lost to a later one.

Third-party code and parameters: the JSON of `SignerMetadata`, the sealer. What
`read_dir` yields, and its order, is an input.
-/

namespace Sovra.State

open Lib

/-- `serde_json` on `SignerMetadata`. -/
structure MetadataCodec where
  toVecPretty : SignerMetadata → Except StateError Bytes
  fromSlice : Bytes → Except StateError SignerMetadata

/-- What was written is read back. -/
def MetadataCodec.RoundTrips (codec : MetadataCodec) : Prop :=
  ∀ {metadata bytes}, codec.toVecPretty metadata = .ok bytes → codec.fromSlice bytes = .ok metadata

/-- What was sealed opens. -/
def ShardSealer.RoundTrips (sealer : ShardSealer) : Prop :=
  ∀ {nonce plaintext sealed}, sealer.sealBytes nonce plaintext = .ok sealed →
    sealer.openBytes sealed = .ok plaintext

/-- `SignerStore`, opened. -/
structure SignerStore where
  root : String
  sealer : ShardSealer
  codec : MetadataCodec

/-- `StateError` of the store as a whole. -/
inductive StoreError
  | Common (e : StateError)
  | PubkeyNotFound (key : PubkeySec1)
  | InvalidSignerId (id : String)
deriving DecidableEq

/-- What `read_dir` yields: a directory, or something that is not one. -/
inductive DirEntry
  | dir (name : String)
  | file (name : String)
deriving DecidableEq

/-- The ids `signer_dir` takes. -/
def SafeId (id : String) : Prop :=
  id ≠ "" ∧ id ≠ "." ∧ id ≠ ".." ∧ '/' ∉ id.toList ∧ '\\' ∉ id.toList ∧ '\x00' ∉ id.toList

instance (id : String) : Decidable (SafeId id) := by unfold SafeId; infer_instance

namespace SignerStore

variable (store : SignerStore)

/-- `root.join(id)`. -/
def dirOf (id : String) : String := store.root ++ "/" ++ id

/-- `signer_dir`: an id that is no plain name is refused. -/
def signerDir (id : String) : Except StoreError String :=
  if SafeId id then .ok (store.dirOf id) else .error (.InvalidSignerId id)

/-- `save_shard`. -/
def saveShard (metadata : SignerMetadata) (shard : KeyShare) (nonce : Bytes) :
    Files String Bytes StoreError Unit := do
  let _ ← Files.liftExcept (store.signerDir metadata.signerId)
  ExceptT.adapt .Common
    (persistShard store.root store.codec.toVecPretty store.sealer metadata shard nonce)

/-- `read_or_not_found`. -/
def readOrNotFound (path : HostPath) (id : String) : Files String Bytes StoreError Bytes :=
  Files.read path fun | .NotFound => .Common (.NotFound id)

/-- `load_shard`. -/
def loadShard (id : String) : Files String Bytes StoreError KeyShare := do
  let dir ← Files.liftExcept (store.signerDir id)
  let sealed ← readOrNotFound ⟨dir, shardFile⟩ id
  Files.liftExcept ((store.sealer.openBytes sealed).mapError .Common |>.map KeyShare.mk)

/-- `load_metadata`. -/
def loadMetadata (id : String) : Files String Bytes StoreError SignerMetadata := do
  let dir ← Files.liftExcept (store.signerDir id)
  let bytes ← readOrNotFound ⟨dir, metadataFile⟩ id
  Files.liftExcept ((store.codec.fromSlice bytes).mapError .Common)

/-- The first of the entries with the key. -/
def findByPublicKey (key : PubkeySec1) : List DirEntry → Files String Bytes StoreError String
  | [] => Files.liftExcept (.error (.PubkeyNotFound key))
  | .file name :: _ => Files.liftExcept (.error (.Common
      (.Io (store.dirOf name ++ "/" ++ metadataFile) "Not a directory (os error 20)")))
  | .dir name :: entries => do
    match ← Files.attempt (Files.read ⟨store.dirOf name, metadataFile⟩ fun e : IoError => e) with
    | .error .NotFound => findByPublicKey key entries
    | .ok bytes =>
      let metadata ← Files.liftExcept ((store.codec.fromSlice bytes).mapError .Common)
      if metadata.publicKey = key then Files.liftExcept (.ok metadata.signerId)
      else findByPublicKey key entries

/-- `load_active`: no metadata is no wallet, metadata without a shard is half a save. -/
def loadActive (id : String) : Files String Bytes StoreError (Option PubkeySec1) := do
  match ← Files.attempt (store.loadMetadata id) with
  | .error (.Common (.NotFound _)) => Files.liftExcept (.ok none)
  | .error e => Files.liftExcept (.error e)
  | .ok metadata =>
    match ← Files.attempt (store.loadShard id) with
    | .ok _ => Files.liftExcept (.ok (some metadata.publicKey))
    | .error (.Common (.NotFound _)) =>
      Files.liftExcept (.error (.Common (.PartialState metadata.publicKey)))
    | .error e => Files.liftExcept (.error e)

end SignerStore

/-- What a program on a store yields. -/
def ask {α : Type} (p : Files String Bytes StoreError α) (disk : HostDisk) : Except StoreError α :=
  (p.run.eval Disk.exec disk).2

-- ---------------------------------------------------------------------------
-- The map
-- ---------------------------------------------------------------------------

/-- What is kept under an id. -/
structure Kept where
  metadata : Option SignerMetadata
  shard : Option KeyShare
deriving DecidableEq

/-- A save, and what its caller was told: nothing where the process died. -/
structure Attempt where
  metadata : SignerMetadata
  shard : KeyShare
  told : Option (Except StoreError Unit)

/-- What a save may make of the entry it is for. -/
def Attempt.Leaves (a : Attempt) (before after : Kept) : Prop :=
  match a.told with
  | some (.ok _) => after = ⟨some a.metadata, some a.shard⟩
  | some (.error _) => after = before ∨ after = ⟨some a.metadata, before.shard⟩
  | none => after = before ∨ after = ⟨some a.metadata, before.shard⟩ ∨
      after = ⟨some a.metadata, some a.shard⟩

/-- What some saves, the latest first, may have left under an id. -/
def Stored : List Attempt → String → Kept → Prop
  | [], _, kept => kept = ⟨none, none⟩
  | a :: older, id, kept => ∃ before, Stored older id before ∧
      if a.metadata.signerId = id then a.Leaves before kept else kept = before

/-- A disk, and the saves so far. -/
structure StoreWorld where
  disk : HostDisk
  log : List Attempt

/-- What happens to the directory. -/
inductive StoreEvent
  /-- A save that runs to its end, or whose process dies after so many calls. -/
  | save (metadata : SignerMetadata) (shard : KeyShare) (nonce : Bytes) (dies : Option Nat)
  /-- Anything at all in the place of a temporary. -/
  | debris (path : HostPath) (file : File Bytes)

/-- A temporary of `write_atomic`. -/
def IsTmp (path : HostPath) : Prop := path.name.toList.take 5 = ".tmp-".toList

instance (path : HostPath) : Decidable (IsTmp path) := by unfold IsTmp; infer_instance

/-- One event. The caller of a save that runs to its end is told how it ended. -/
def SignerStore.step (store : SignerStore) (w : StoreWorld) : StoreEvent → Option StoreWorld
  | .save metadata shard nonce none =>
    let after := (store.saveShard metadata shard nonce).run.eval Disk.exec w.disk
    some ⟨after.1, ⟨metadata, shard, some after.2⟩ :: w.log⟩
  | .save metadata shard nonce (some calls) =>
    let after := (store.saveShard metadata shard nonce).run.cut Disk.exec calls w.disk
    some ⟨after.1, ⟨metadata, shard, none⟩ :: w.log⟩
  | .debris path file =>
    if IsTmp path then some { w with disk := w.disk.setFile path file } else none

/-- The store as a transition system. -/
def SignerStore.machine (store : SignerStore) : Machine StoreWorld StoreEvent := ⟨store.step⟩

-- ---------------------------------------------------------------------------
-- What a save leaves
-- ---------------------------------------------------------------------------

/-- The same files, up to temporaries. -/
def AgreesOff (f g : HostPath → Option Bytes) : Prop := ∀ path, ¬ IsTmp path → f path = g path

theorem AgreesOff.refl (f : HostPath → Option Bytes) : AgreesOff f f := fun _ _ => rfl

theorem AgreesOff.trans {f g h : HostPath → Option Bytes} (hFirst : AgreesOff f g)
    (hSecond : AgreesOff g h) : AgreesOff f h :=
  fun path hPath => (hFirst path hPath).trans (hSecond path hPath)

/-- The same write on both sides keeps the agreement. -/
theorem AgreesOff.update {f g : HostPath → Option Bytes} (h : AgreesOff f g) (path : HostPath)
    (content : Option Bytes) :
    AgreesOff (Function.update f path content) (Function.update g path content) := by
  intro other hOther
  rw [Function.update_apply, Function.update_apply, h other hOther]

/-- What `write_atomic` writes to is a temporary. -/
theorem isTmp_tmpPath (path : HostPath) : IsTmp (tmpPath path) := by
  show (".tmp-" ++ path.name).toList.take 5 = ".tmp-".toList
  rw [String.toList_append]
  exact List.take_left' rfl

/-- A write to a temporary changes nothing that is looked at. -/
theorem agreesOff_tmp (f : HostPath → Option Bytes) (path : HostPath) (content : Option Bytes) :
    AgreesOff (Function.update f (tmpPath path) content) f := by
  intro other hOther
  refine Function.update_of_ne ?_ _ _
  rintro rfl
  exact hOther (isTmp_tmpPath path)

/-- The metadata file is no temporary. -/
theorem metadata_not_tmp (dir : String) : ¬ IsTmp ⟨dir, metadataFile⟩ := by
  show ¬ metadataFile.toList.take 5 = ".tmp-".toList
  decide

/-- The shard file is no temporary. -/
theorem shard_not_tmp (dir : String) : ¬ IsTmp ⟨dir, shardFile⟩ := by
  show ¬ shardFile.toList.take 5 = ".tmp-".toList
  decide

/-- **A file is replaced as a whole or not at all**, and nothing else is touched. -/
theorem writeAtomicMode_always {Q : HostDisk → Option (Except StateError Unit) → Prop}
    {disk : HostDisk} {path : HostPath} {bytes : Bytes} {mode : Mode}
    (hOld : ∀ disk' r, r ≠ some (.ok ()) → AgreesOff disk'.content? disk.content? → Q disk' r)
    (hNew : ∀ disk', AgreesOff disk'.content? (Function.update disk.content? path (some bytes)) →
      Q disk' (some (.ok ()))) :
    (writeAtomicMode path bytes mode).run.Always Disk.exec Q disk := by
  unfold writeAtomicMode
  refine Program.Always.andThen (Program.Always.perform
    (hOld disk none (by simp) (AgreesOff.refl _))
    (fun e => hOld disk _ (by simp) (AgreesOff.refl _)) ?_)
  -- only the temporary is written so far
  intro written hWrite
  have hWritten := Disk.content?_write hWrite
  have hOff : AgreesOff written.content? disk.content? := by
    rw [hWritten]
    exact agreesOff_tmp _ path _
  refine Program.Always.andThen (Program.Always.perform (hOld written none (by simp) hOff)
    (fun e => hOld written _ (by simp) hOff) ?_)
  intro moded hMode
  have hSame := Disk.content?_setMode hMode
  have hOff' : AgreesOff moded.content? disk.content? := by rwa [hSame]
  refine Program.Always.perform (hOld moded none (by simp) hOff')
    (fun e => hOld moded _ (by simp) hOff') ?_
  -- the rename is the one step that shows
  intro renamed hRename
  obtain ⟨content, hContent, hAfter⟩ := Disk.content?_rename hRename
  have hBytes : content = bytes := by
    rw [hSame, hWritten, Function.update_self] at hContent
    exact (Option.some.inj hContent).symm
  refine hNew renamed ?_
  rw [hAfter, hBytes]
  exact ((agreesOff_tmp _ path _).trans hOff').update path _

section

variable {store : SignerStore} {metadata : SignerMetadata} {shard : KeyShare} {nonce : Bytes}
  {disk : HostDisk}

/-- **Where a save can stop**, on the disk. -/
theorem persistShard_always {Q : HostDisk → Option (Except StateError Unit) → Prop}
    (hNone : ∀ disk' r, r ≠ some (.ok ()) → AgreesOff disk'.content? disk.content? → Q disk' r)
    (hHalf : ∀ disk' r metaBytes, r ≠ some (.ok ()) →
      store.codec.toVecPretty metadata = .ok metaBytes →
      AgreesOff disk'.content? (Function.update disk.content?
        ⟨store.dirOf metadata.signerId, metadataFile⟩ (some metaBytes)) → Q disk' r)
    (hBoth : ∀ disk' metaBytes sealed, store.codec.toVecPretty metadata = .ok metaBytes →
      store.sealer.sealBytes nonce shard.bytes = .ok sealed →
      AgreesOff disk'.content? (Function.update (Function.update disk.content?
        ⟨store.dirOf metadata.signerId, metadataFile⟩ (some metaBytes))
        ⟨store.dirOf metadata.signerId, shardFile⟩ (some sealed)) → Q disk' (some (.ok ()))) :
    (persistShard store.root store.codec.toVecPretty store.sealer metadata shard
      nonce).run.Always Disk.exec Q disk := by
  unfold persistShard
  refine Program.Always.andThen (Program.Always.perform
    (hNone disk none (by simp) (AgreesOff.refl _))
    (fun e => hNone disk _ (by simp) (AgreesOff.refl _)) ?_)
  -- neither directory call touches a file
  intro made hMade
  have hOff : AgreesOff made.content? disk.content? := by
    rw [Disk.content?_createDirAll hMade]
    exact AgreesOff.refl _
  refine Program.Always.andThen (Program.Always.perform (hNone made none (by simp) hOff)
    (fun e => hNone made _ (by simp) hOff) ?_)
  intro moded hMode
  have hOff' : AgreesOff moded.content? disk.content? := by
    have hFiles := (Disk.apply_setDirMode hMode).1
    intro path hPath
    rw [Disk.content?, hFiles]
    exact hOff path hPath
  refine Program.Always.andThen (Program.Always.liftExcept ?_)
  rcases hJson : store.codec.toVecPretty metadata with e | metaBytes
  · exact hNone moded _ (by simp) hOff'
  -- the metadata, old or new
  refine Program.Always.andThen (writeAtomicMode_always ?_ ?_)
  · rintro disk' (_ | e | ⟨⟩) hNot hSame
    · exact hNone disk' none (by simp) (hSame.trans hOff')
    · exact hNone disk' _ (by simp) (hSame.trans hOff')
    · exact absurd rfl hNot
  -- from here on the metadata is new and the shard is old
  intro half hWritten
  have hHalfway := hWritten.trans (hOff'.update ⟨store.dirOf metadata.signerId, metadataFile⟩ _)
  refine Program.Always.andThen (Program.Always.liftExcept ?_)
  rcases hSeal : store.sealer.sealBytes nonce shard.bytes with e | sealed
  · exact hHalf half _ metaBytes (by simp) hJson hHalfway
  -- the shard; with it the save is whole
  refine writeAtomicMode_always ?_ ?_
  · intro disk' r hNot hSame
    exact hHalf disk' r metaBytes hNot hJson (hSame.trans hHalfway)
  · intro disk' hSealed
    exact hBoth disk' metaBytes sealed hJson hSeal
      (hSealed.trans (hHalfway.update ⟨store.dirOf metadata.signerId, shardFile⟩ _))

end

-- ---------------------------------------------------------------------------
-- The disk holds the map
-- ---------------------------------------------------------------------------

/-- The two files of an id encode what is kept under it. -/
structure Holds (store : SignerStore) (disk : HostDisk) (id : String) (kept : Kept) : Prop where
  metadata : Option.Rel
    (fun metadata bytes => store.codec.toVecPretty metadata = .ok bytes ∧ metadata.signerId = id)
    kept.metadata (disk.content? ⟨store.dirOf id, metadataFile⟩)
  shard : Option.Rel (fun (shard : KeyShare) bytes => ∃ nonce,
      store.sealer.sealBytes nonce shard.bytes = .ok bytes)
    kept.shard (disk.content? ⟨store.dirOf id, shardFile⟩)

section

variable {store : SignerStore} {disk disk' : HostDisk} {id : String} {kept : Kept}

/-- Only the two files matter. -/
theorem Holds.congr (h : Holds store disk id kept)
    (hMetadata : disk'.content? ⟨store.dirOf id, metadataFile⟩ =
      disk.content? ⟨store.dirOf id, metadataFile⟩)
    (hShard : disk'.content? ⟨store.dirOf id, shardFile⟩ =
      disk.content? ⟨store.dirOf id, shardFile⟩) : Holds store disk' id kept := by
  constructor
  · rw [hMetadata]
    exact h.metadata
  · rw [hShard]
    exact h.shard

/-- Temporaries do not matter. -/
theorem Holds.agreesOff (h : Holds store disk id kept)
    (hSame : AgreesOff disk'.content? disk.content?) : Holds store disk' id kept :=
  h.congr (hSame _ (metadata_not_tmp _)) (hSame _ (shard_not_tmp _))

theorem dirOf_inj {id id' : String} (h : store.dirOf id = store.dirOf id') : id = id' :=
  (String.append_right_inj _).mp h

/-- The two files of a directory have different names. -/
theorem metadata_ne_shard (dir dir' : String) :
    (⟨dir, metadataFile⟩ : HostPath) ≠ ⟨dir', shardFile⟩ := by
  intro h
  have hName : metadataFile = shardFile := congrArg FilePath.name h
  exact absurd hName (by decide)

/-- A file of another id. -/
theorem path_ne {id id' : String} (h : id ≠ id') (name name' : String) :
    (⟨store.dirOf id, name⟩ : HostPath) ≠ ⟨store.dirOf id', name'⟩ :=
  fun hPath => h (dirOf_inj (congrArg FilePath.dir hPath))

variable {metadata : SignerMetadata} {shard : KeyShare} {nonce : Bytes}

/-- After the first rename the new metadata stands beside the old shard. -/
theorem Holds.half (h : Holds store disk metadata.signerId kept) {bytes : Bytes}
    (hJson : store.codec.toVecPretty metadata = .ok bytes)
    (hDisk : AgreesOff disk'.content? (Function.update disk.content?
      ⟨store.dirOf metadata.signerId, metadataFile⟩ (some bytes))) :
    Holds store disk' metadata.signerId ⟨some metadata, kept.shard⟩ := by
  constructor
  · rw [hDisk _ (metadata_not_tmp _), Function.update_self]
    exact .some ⟨hJson, rfl⟩
  · rw [hDisk _ (shard_not_tmp _), Function.update_of_ne (metadata_ne_shard _ _).symm]
    exact h.shard

/-- After the second rename metadata and shard are both new. -/
theorem holds_both {bytes sealed : Bytes}
    (hJson : store.codec.toVecPretty metadata = .ok bytes)
    (hSeal : store.sealer.sealBytes nonce shard.bytes = .ok sealed)
    (hDisk : AgreesOff disk'.content? (Function.update (Function.update disk.content?
      ⟨store.dirOf metadata.signerId, metadataFile⟩ (some bytes))
      ⟨store.dirOf metadata.signerId, shardFile⟩ (some sealed))) :
    Holds store disk' metadata.signerId ⟨some metadata, some shard⟩ := by
  constructor
  · rw [hDisk _ (metadata_not_tmp _), Function.update_of_ne (metadata_ne_shard _ _),
      Function.update_self]
    exact .some ⟨hJson, rfl⟩
  · rw [hDisk _ (shard_not_tmp _), Function.update_self]
    exact .some ⟨nonce, hSeal⟩

/-- What a save makes of the entry of `id`, whoever it is for. -/
def Attempt.Makes (a : Attempt) (id : String) (before after : Kept) : Prop :=
  if a.metadata.signerId = id then a.Leaves before after else after = before

/-- A save is accounted for under its own id. -/
theorem Attempt.makes_self {a : Attempt} {before after : Kept} (h : a.Leaves before after) :
    a.Makes a.metadata.signerId before after := by
  rw [Attempt.Makes, if_pos rfl]
  exact h

/-- A save that did not succeed may have changed nothing. -/
theorem Attempt.makes_same {a : Attempt} (h : a.told ≠ some (.ok ())) (id : String)
    (kept : Kept) : a.Makes id kept kept := by
  unfold Attempt.Makes
  split
  · rcases hTold : a.told with _ | e | ⟨⟩
    · rw [Attempt.Leaves, hTold]
      exact Or.inl rfl
    · rw [Attempt.Leaves, hTold]
      exact Or.inl rfl
    · exact absurd hTold h
  · rfl

/-- Half a save is what a save that is not acknowledged may leave. -/
theorem Attempt.leaves_half {a : Attempt} {before : Kept} (h : a.told ≠ some (.ok ())) :
    a.Leaves before ⟨some a.metadata, before.shard⟩ := by
  rcases hTold : a.told with _ | e | ⟨⟩
  · rw [Attempt.Leaves, hTold]
    exact Or.inr (Or.inl rfl)
  · rw [Attempt.Leaves, hTold]
    exact Or.inr rfl
  · exact absurd hTold h

/-- What the caller was told only narrows down what was left. -/
theorem Attempt.makes_untold {told : Option (Except StoreError Unit)} {before after : Kept}
    (h : (⟨metadata, shard, told⟩ : Attempt).Makes id before after) :
    (⟨metadata, shard, none⟩ : Attempt).Makes id before after := by
  unfold Attempt.Makes at h ⊢
  split
  · rename_i hOwn
    rw [if_pos hOwn] at h
    rcases told with _ | e | ⟨⟩
    · exact h
    · exact h.imp_right Or.inl
    · exact Or.inr (Or.inr h)
  · rename_i hOther
    rwa [if_neg hOther] at h

/-- **Step lemma.** However a save ends, the disk goes on holding a map, and the
save is accounted for in it. -/
theorem saveShard_always (metadata : SignerMetadata) (shard : KeyShare) (nonce : Bytes)
    (h : Holds store disk id kept) :
    (store.saveShard metadata shard nonce).run.Always Disk.exec
      (fun disk' told => ∃ after, Holds store disk' id after ∧
        (⟨metadata, shard, told⟩ : Attempt).Makes id kept after) disk := by
  have hSame : ∀ disk' told, told ≠ some (.ok ()) → AgreesOff disk'.content? disk.content? →
      ∃ after, Holds store disk' id after ∧
        (⟨metadata, shard, told⟩ : Attempt).Makes id kept after :=
    fun disk' told hNot hDisk => ⟨kept, h.agreesOff hDisk, Attempt.makes_same hNot id kept⟩
  unfold SignerStore.saveShard
  refine Program.Always.andThen (Program.Always.liftExcept ?_)
  -- an id that is refused gets as far as no file
  rcases store.signerDir metadata.signerId with e | dir
  · exact hSame disk _ (by simp) (AgreesOff.refl _)
  have hTold : ∀ r : Option (Except StateError Unit), r ≠ some (.ok ()) →
      r.map (Except.mapError StoreError.Common) ≠ some (.ok ()) := by
    rintro (_ | e | ⟨⟩) hNot
    · simp
    · simp [Except.mapError]
    · exact absurd rfl hNot
  rw [Program.PartOrError]
  refine Program.Always.adapt (persistShard_always ?_ ?_ ?_)
  · exact fun disk' r hNot hDisk => hSame disk' _ (hTold r hNot) hDisk
  · -- stopped between its two files: half of its own entry, other entries as they were
    intro disk' r bytes hNot hJson hDisk
    by_cases hOwn : metadata.signerId = id
    · subst hOwn
      exact ⟨_, h.half hJson hDisk, Attempt.makes_self (Attempt.leaves_half (hTold r hNot))⟩
    · refine ⟨kept, h.congr ?_ ?_, Attempt.makes_same (hTold r hNot) id kept⟩
      · rw [hDisk _ (metadata_not_tmp _), Function.update_of_ne (path_ne (Ne.symm hOwn) _ _)]
      · rw [hDisk _ (shard_not_tmp _), Function.update_of_ne (path_ne (Ne.symm hOwn) _ _)]
  · -- run to its end
    intro disk' bytes sealed hJson hSeal hDisk
    by_cases hOwn : metadata.signerId = id
    · subst hOwn
      exact ⟨_, holds_both hJson hSeal hDisk, Attempt.makes_self rfl⟩
    · refine ⟨kept, h.congr ?_ ?_, by rw [Attempt.Makes, if_neg hOwn]⟩
      · rw [hDisk _ (metadata_not_tmp _), Function.update_of_ne (path_ne (Ne.symm hOwn) _ _),
          Function.update_of_ne (path_ne (Ne.symm hOwn) _ _)]
      · rw [hDisk _ (shard_not_tmp _), Function.update_of_ne (path_ne (Ne.symm hOwn) _ _),
          Function.update_of_ne (path_ne (Ne.symm hOwn) _ _)]

/-- **Run lemma.** What an id has is accounted for after every run. -/
theorem holds_of_reach {w₀ w : StoreWorld} (h : store.machine.Reach (fun _ _ => True) w₀ w)
    (hStart : ∃ kept, Stored w₀.log id kept ∧ Holds store w₀.disk id kept) :
    ∃ kept, Stored w.log id kept ∧ Holds store w.disk id kept := by
  refine h.invariant hStart ?_
  rintro w e w' ⟨kept, hStored, hHolds⟩ - hStep
  -- the induction is over the events: a save that ends, one that is cut off, and debris
  rcases e with ⟨metadata, shard, nonce, _ | calls⟩ | ⟨path, file⟩
  · obtain rfl := Option.some.inj hStep
    obtain ⟨after, hAfter, hMakes⟩ := (saveShard_always metadata shard nonce hHolds).eval
    exact ⟨after, ⟨kept, hStored, hMakes⟩, hAfter⟩
  · obtain rfl := Option.some.inj hStep
    obtain ⟨after, hAfter, hMakes⟩ := saveShard_always metadata shard nonce hHolds calls
    exact ⟨after, ⟨kept, hStored, Attempt.makes_untold hMakes⟩, hAfter⟩
  · simp only [SignerStore.machine, SignerStore.step] at hStep
    split at hStep
    · rename_i hTmp
      obtain rfl := Option.some.inj hStep
      refine ⟨kept, hStored, hHolds.agreesOff ?_⟩
      intro other hOther
      rw [Disk.content?, Disk.setFile_file?, if_neg]
      · rfl
      · rintro rfl
        exact hOther hTmp
    · simp at hStep

end

-- ---------------------------------------------------------------------------
-- What reads return
-- ---------------------------------------------------------------------------

/-- What `read_or_not_found` makes of a file that may be missing. -/
def found {α : Type} (id : String) : Option α → Except StateError α
  | some a => .ok a
  | none => .error (.NotFound id)

/-- The first id whose metadata has the key. -/
def firstWith (kept : String → Kept) (key : PubkeySec1) (ids : List String) : Option String :=
  ids.find? fun id => (kept id).metadata.any fun metadata => metadata.publicKey = key

section

variable {store : SignerStore} {disk : HostDisk} {id : String} {kept : Kept}

/-- A plain name has a directory under the root. -/
theorem signerDir_safe (h : SafeId id) : store.signerDir id = .ok (store.dirOf id) := if_pos h

/-- Any other name is refused. -/
theorem signerDir_unsafe (h : ¬ SafeId id) : store.signerDir id = .error (.InvalidSignerId id) :=
  if_neg h

/-- The metadata read is the metadata kept. -/
theorem eval_loadMetadata (hCodec : store.codec.RoundTrips) (hSafe : SafeId id)
    (h : Holds store disk id kept) :
    (store.loadMetadata id).run.eval Disk.exec disk =
      (disk, (found id kept.metadata).mapError .Common) := by
  have hMetadata := h.metadata
  unfold SignerStore.loadMetadata
  rw [Program.eval_andThen_ok (t := disk) (a := store.dirOf id)
    (by rw [Program.eval_liftExcept, signerDir_safe hSafe])]
  -- the file is there exactly if the entry has the part
  rcases kept with ⟨_ | metadata, shard⟩
  · cases hContent : disk.content? ⟨store.dirOf id, metadataFile⟩ with
    | some bytes => simp [hContent] at hMetadata
    | none =>
      refine Program.eval_andThen_error ?_
      rw [SignerStore.readOrNotFound, Program.eval_read, Disk.readFile, hContent]
      rfl
  · cases hContent : disk.content? ⟨store.dirOf id, metadataFile⟩ with
    | none => simp [hContent] at hMetadata
    | some bytes =>
      rw [hContent, Option.rel_some_some] at hMetadata
      rw [Program.eval_andThen_ok (t := disk) (a := bytes) ?_]
      · rw [Program.eval_liftExcept, hCodec hMetadata.1]
        rfl
      · rw [SignerStore.readOrNotFound, Program.eval_read, Disk.readFile, hContent]
        rfl

/-- The shard read is the shard kept. -/
theorem eval_loadShard (hSealer : store.sealer.RoundTrips) (hSafe : SafeId id)
    (h : Holds store disk id kept) :
    (store.loadShard id).run.eval Disk.exec disk =
      (disk, (found id kept.shard).mapError .Common) := by
  have hShard := h.shard
  unfold SignerStore.loadShard
  rw [Program.eval_andThen_ok (t := disk) (a := store.dirOf id)
    (by rw [Program.eval_liftExcept, signerDir_safe hSafe])]
  rcases kept with ⟨metadata, _ | shard⟩
  · -- no shard is kept, and there is no file
    cases hContent : disk.content? ⟨store.dirOf id, shardFile⟩ with
    | some bytes => simp [hContent] at hShard
    | none =>
      refine Program.eval_andThen_error ?_
      rw [SignerStore.readOrNotFound, Program.eval_read, Disk.readFile, hContent]
      rfl
  · -- the file has the sealed shard, which opens
    cases hContent : disk.content? ⟨store.dirOf id, shardFile⟩ with
    | none => simp [hContent] at hShard
    | some bytes =>
      rw [hContent, Option.rel_some_some] at hShard
      obtain ⟨nonce, hSeal⟩ := hShard
      rw [Program.eval_andThen_ok (t := disk) (a := bytes) ?_]
      · rw [Program.eval_liftExcept, hSealer hSeal]
        rfl
      · rw [SignerStore.readOrNotFound, Program.eval_read, Disk.readFile, hContent]
        rfl

/-- The active wallet is made of the metadata and the shard kept. -/
theorem ask_loadActive (hCodec : store.codec.RoundTrips) (hSealer : store.sealer.RoundTrips)
    (hSafe : SafeId id) (h : Holds store disk id kept) :
    ask (store.loadActive id) disk =
      (activeOf SignerMetadata.publicKey (found id kept.metadata)
        (found id kept.shard)).mapError .Common := by
  have hMetadata := eval_loadMetadata hCodec hSafe h
  have hShard := eval_loadShard hSealer hSafe h
  unfold ask SignerStore.loadActive
  rw [Program.eval_andThen_ok (t := disk)
    (a := (found id kept.metadata).mapError .Common) (by rw [Program.eval_attempt, hMetadata])]
  rcases kept with ⟨_ | metadata, shard⟩
  · rfl
  show (Program.eval Disk.exec (_ >>= _ : Files String Bytes StoreError _).run disk).2 = _
  rw [Program.eval_andThen_ok (t := disk)
    (a := (found id shard).mapError .Common) (by rw [Program.eval_attempt, hShard])]
  cases shard with
  | none => rfl
  | some shard => rfl

/-- **First match wins**, and what has no metadata is passed over. -/
theorem ask_findByPublicKey (hCodec : store.codec.RoundTrips) {map : String → Kept}
    (h : ∀ id, SafeId id → Holds store disk id (map id)) (key : PubkeySec1) {ids : List String}
    (hIds : ∀ id ∈ ids, SafeId id) :
    ask (store.findByPublicKey key (ids.map .dir)) disk =
      (firstWith map key ids).elim (.error (.PubkeyNotFound key)) .ok := by
  unfold ask
  -- on the listing; each directory's metadata is read in turn
  induction ids with
  | nil => rfl
  | cons id ids ih =>
    have hRest := ih fun other hOther => hIds other (List.mem_cons_of_mem _ hOther)
    have hMetadata := (h id (hIds id List.mem_cons_self)).metadata
    rw [List.map_cons, SignerStore.findByPublicKey, firstWith, List.find?_cons]
    cases hKept : (map id).metadata with
    -- no metadata: the directory is passed over
    | none =>
      cases hContent : disk.content? ⟨store.dirOf id, metadataFile⟩ with
      | some bytes => simp [hContent, hKept] at hMetadata
      | none =>
        rw [Program.eval_andThen_ok (t := disk) (a := .error .NotFound)]
        · exact hRest
        · rw [Program.eval_attempt, Program.eval_read, Disk.readFile, hContent]
          rfl
    | some metadata =>
      cases hContent : disk.content? ⟨store.dirOf id, metadataFile⟩ with
      | none => simp [hContent, hKept] at hMetadata
      | some bytes =>
        rw [hContent, hKept, Option.rel_some_some] at hMetadata
        obtain ⟨hJson, hId⟩ := hMetadata
        rw [Program.eval_andThen_ok (t := disk) (a := .ok bytes)]
        · show (Program.eval Disk.exec (_ >>= _ : Files String Bytes StoreError _).run disk).2 = _
          rw [Program.eval_andThen_ok (t := disk) (a := metadata)
            (by rw [Program.eval_liftExcept, hCodec hJson]; rfl)]
          -- the key is this one, or the search goes on
          by_cases hKey : metadata.publicKey = key
          · rw [if_pos hKey, Program.eval_liftExcept, hId]
            simp [hKey]
          · rw [if_neg hKey, hRest]
            simp [hKey, firstWith]
        · rw [Program.eval_attempt, Program.eval_read, Disk.readFile, hContent]
          rfl

/-- An id that could name anything but a directory of its own gets nowhere. -/
theorem unsafe_refused (h : ¬ SafeId id) :
    ask (store.loadMetadata id) disk = .error (.InvalidSignerId id) ∧
      ask (store.loadShard id) disk = .error (.InvalidSignerId id) ∧
      ask (store.loadActive id) disk = .error (.InvalidSignerId id) ∧
      ∀ (metadata : SignerMetadata) (shard : KeyShare) (nonce : Bytes), metadata.signerId = id →
        (store.saveShard metadata shard nonce).run.eval Disk.exec disk =
          (disk, .error (.InvalidSignerId id)) := by
  have hDir : store.signerDir id = .error (.InvalidSignerId id) := signerDir_unsafe h
  have hMetadata : (store.loadMetadata id).run.eval Disk.exec disk =
      (disk, .error (.InvalidSignerId id)) := by
    refine Program.eval_andThen_error ?_
    rw [Program.eval_liftExcept, hDir]
  refine ⟨congrArg Prod.snd hMetadata, ?_, ?_, ?_⟩
  · unfold ask SignerStore.loadShard
    rw [Program.eval_andThen_error (t := disk) (e := .InvalidSignerId id)
      (by rw [Program.eval_liftExcept, hDir])]
  · unfold ask SignerStore.loadActive
    rw [Program.eval_andThen_ok (t := disk) (a := .error (.InvalidSignerId id))
      (by rw [Program.eval_attempt, hMetadata])]
    rfl
  · rintro metadata shard nonce rfl
    refine Program.eval_andThen_error ?_
    rw [Program.eval_liftExcept, hDir]

end

/-- What the reads return when `kept` is what is under each id. -/
structure ReadsBack (store : SignerStore) (disk : HostDisk) (kept : String → Kept) : Prop where
  metadata : ∀ id, SafeId id →
    ask (store.loadMetadata id) disk = (found id (kept id).metadata).mapError .Common
  shard : ∀ id, SafeId id →
    ask (store.loadShard id) disk = (found id (kept id).shard).mapError .Common
  active : ∀ id, SafeId id → ask (store.loadActive id) disk =
    (activeOf SignerMetadata.publicKey (found id (kept id).metadata)
      (found id (kept id).shard)).mapError .Common
  key : ∀ key ids, (∀ id ∈ ids, SafeId id) →
    ask (store.findByPublicKey key (ids.map .dir)) disk =
      (firstWith kept key ids).elim (.error (.PubkeyNotFound key)) .ok

/-- **The store is a map.** After any saves, each of them stopped anywhere or run
to its end, and whatever is left in the place of temporaries, there is for every id
an entry those saves account for, and every read returns what the entries say. -/
theorem store_keeps {store : SignerStore} (hCodec : store.codec.RoundTrips)
    (hSealer : store.sealer.RoundTrips) {disk : HostDisk}
    (hFresh : ∀ id, disk.content? ⟨store.dirOf id, metadataFile⟩ = none ∧
      disk.content? ⟨store.dirOf id, shardFile⟩ = none)
    {w : StoreWorld} (h : store.machine.Reach (fun _ _ => True) ⟨disk, []⟩ w) :
    ∃ kept : String → Kept, (∀ id, Stored w.log id (kept id)) ∧ ReadsBack store w.disk kept := by
  have hEach : ∀ id, ∃ kept, Stored w.log id kept ∧ Holds store w.disk id kept := by
    intro id
    refine holds_of_reach h ⟨⟨none, none⟩, rfl, ?_, ?_⟩
    · rw [(hFresh id).1]
      exact .none
    · rw [(hFresh id).2]
      exact .none
  choose kept hStored hHolds using hEach
  refine ⟨kept, hStored, ?_, ?_, ?_, ?_⟩
  · exact fun id hSafe => congrArg Prod.snd (eval_loadMetadata hCodec hSafe (hHolds id))
  · exact fun id hSafe => congrArg Prod.snd (eval_loadShard hSealer hSafe (hHolds id))
  · exact fun id hSafe => ask_loadActive hCodec hSealer hSafe (hHolds id)
  · exact fun key ids hIds => ask_findByPublicKey hCodec (fun id _ => hHolds id) key hIds

/-- Once a save of an id has succeeded, both parts of its entry are there for good. -/
theorem kept_of_acknowledged {log : List Attempt} {id : String} {kept : Kept}
    (h : Stored log id kept) {a : Attempt} (hMem : a ∈ log) (hId : a.metadata.signerId = id)
    (hTold : a.told = some (.ok ())) : kept.metadata.isSome = true ∧ kept.shard.isSome = true := by
  -- on the saves: the acknowledged one leaves both parts, and none of the later ones
  -- takes a part away
  induction log generalizing kept with
  | nil => simp at hMem
  | cons latest older ih =>
    obtain ⟨before, hBefore, hMakes⟩ := h
    rcases List.mem_cons.mp hMem with rfl | hOlder
    · rw [if_pos hId, Attempt.Leaves, hTold] at hMakes
      rw [hMakes]
      exact ⟨rfl, rfl⟩
    have hBoth := ih hBefore hOlder
    split at hMakes
    · rcases hLatest : latest.told with _ | e | ⟨⟩
      · rw [Attempt.Leaves, hLatest] at hMakes
        obtain rfl | rfl | rfl := hMakes
        · exact hBoth
        · exact ⟨rfl, hBoth.2⟩
        · exact ⟨rfl, rfl⟩
      · rw [Attempt.Leaves, hLatest] at hMakes
        obtain rfl | rfl := hMakes
        · exact hBoth
        · exact ⟨rfl, hBoth.2⟩
      · rw [Attempt.Leaves, hLatest] at hMakes
        rw [hMakes]
        exact ⟨rfl, rfl⟩
    · rw [hMakes]
      exact hBoth

/-- **A completed save is never lost**: from then on the id has an active key,
whatever later saves are stopped. -/
theorem active_of_acknowledged {store : SignerStore} (hCodec : store.codec.RoundTrips)
    (hSealer : store.sealer.RoundTrips) {disk : HostDisk}
    (hFresh : ∀ id, disk.content? ⟨store.dirOf id, metadataFile⟩ = none ∧
      disk.content? ⟨store.dirOf id, shardFile⟩ = none)
    {w : StoreWorld} (h : store.machine.Reach (fun _ _ => True) ⟨disk, []⟩ w) {a : Attempt}
    (hMem : a ∈ w.log) (hSafe : SafeId a.metadata.signerId) (hTold : a.told = some (.ok ())) :
    ∃ key, ask (store.loadActive a.metadata.signerId) w.disk = .ok (some key) := by
  obtain ⟨kept, hStored, hReads⟩ := store_keeps hCodec hSealer hFresh h
  obtain ⟨hMetadata, hShard⟩ := kept_of_acknowledged (hStored _) hMem rfl hTold
  obtain ⟨metadata, hMetadata⟩ := Option.isSome_iff_exists.mp hMetadata
  obtain ⟨shard, hShard⟩ := Option.isSome_iff_exists.mp hShard
  refine ⟨metadata.publicKey, ?_⟩
  rw [hReads.active _ hSafe, hMetadata, hShard]
  rfl

-- ---------------------------------------------------------------------------
-- A sample run
-- ---------------------------------------------------------------------------

namespace Sample

/-- The key of the first wallet. -/
def firstKey : PubkeySec1 := ⟨0x02 :: List.replicate 32 0x11, rfl, Or.inl rfl⟩

/-- The key of the second wallet. -/
def secondKey : PubkeySec1 := ⟨0x03 :: List.replicate 32 0x22, rfl, Or.inr rfl⟩

/-- The metadata of this run. -/
def known : List SignerMetadata :=
  [⟨"signer-1", firstKey⟩, ⟨"signer-1", secondKey⟩, ⟨"signer-2", firstKey⟩]

/-- `to_vec_pretty` of the metadata. -/
def jsonOf (metadata : SignerMetadata) : Bytes :=
  ("\x7b\n  \"signer_id\": \"" ++ metadata.signerId ++ "\",\n  \"public_key\": \"" ++
    hexEncode metadata.publicKey.bytes ++ "\"\n\x7d").toUTF8.toList

/-- JSON, on the metadata of this run. -/
def codec : MetadataCodec where
  toVecPretty metadata := if metadata ∈ known then .ok (jsonOf metadata) else .error .Serde
  fromSlice bytes := (known.find? fun metadata => jsonOf metadata = bytes).elim (.error .Serde) .ok

/-- The example's encoding tells the two ids apart. -/
theorem jsonOf_known :
    ∀ metadata ∈ known, (known.find? fun other => jsonOf other = jsonOf metadata) = some metadata := by
  decide +kernel

/-- The example's encoding can be read back. -/
theorem codec_roundTrips : codec.RoundTrips := by
  intro metadata bytes h
  simp only [codec] at h ⊢
  split at h
  · rename_i hKnown
    rw [← Except.ok.inj h, jsonOf_known metadata hKnown]
    rfl
  · simp at h

/-- An unsealed shard can be read back. -/
theorem passthrough_roundTrips : passthrough.RoundTrips := fun h => h.symm

/-- The example's store. -/
def store : SignerStore := ⟨"data", passthrough, codec⟩

/-- A torn temporary, a completed save, one that dies between its two files, one
that dies at the first, and one that cannot be for a signer. -/
def events : List StoreEvent :=
  [.save ⟨"signer-1", firstKey⟩ ⟨[1, 2, 3]⟩ [] none,
    .debris ⟨"data/signer-1", ".tmp-shard.bin"⟩ ⟨[1], 0o644⟩,
    .save ⟨"signer-1", secondKey⟩ ⟨[4, 5, 6]⟩ [] (some 6),
    .save ⟨"signer-2", firstKey⟩ ⟨[7]⟩ [] (some 3),
    .save ⟨"..", firstKey⟩ ⟨[8]⟩ [] none]

/-- The disk before anything was saved. -/
def disk : HostDisk := Disk.empty.setDir "data" 0o755

theorem events_some : (store.machine.run ⟨disk, []⟩ events).isSome = true := by
  decide +kernel

/-- The store after the saves. -/
def afterEvents : StoreWorld := (store.machine.run ⟨disk, []⟩ events).get events_some

theorem afterEvents_reach : store.machine.Reach (fun _ _ => True) ⟨disk, []⟩ afterEvents :=
  Machine.reach_of_run (Option.some_get events_some).symm

end Sample

/-- The first save is still there, under the second one's metadata; the save that
died first left nothing. -/
theorem store_keeps_signers :
    ask (Sample.store.loadActive "signer-1") Sample.afterEvents.disk =
        .ok (some Sample.secondKey) ∧
      ask (Sample.store.loadShard "signer-1") Sample.afterEvents.disk = .ok ⟨[1, 2, 3]⟩ ∧
      ask (Sample.store.loadActive "signer-2") Sample.afterEvents.disk = .ok none ∧
      ∃ kept : String → Kept, (∀ id, Stored Sample.afterEvents.log id (kept id)) ∧
        ReadsBack Sample.store Sample.afterEvents.disk kept :=
  ⟨by decide +kernel, by decide +kernel, by decide +kernel,
    store_keeps Sample.codec_roundTrips Sample.passthrough_roundTrips (fun _ => ⟨rfl, rfl⟩)
      Sample.afterEvents_reach⟩

end Sovra.State
