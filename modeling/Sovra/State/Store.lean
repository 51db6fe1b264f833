import Sovra.Types

/-!
# Sovra — the shard store

`sovra-state`: one signer's directory, `metadata.json` and `shard.bin`, each
replaced through a temporary file. `save_shard` is the list of its file-system
steps, so that it can stop between any two of them. Reads may fail for reasons
of their own (i/o, JSON): what the file system does is an input.

* `cut_files` — what a save that stops anywhere leaves of the two files.
* `save_ok` — a completed save leaves both new files and no temporary.
-/

namespace Sovra.State

/-- `StateError`, less what the modelled functions cannot return. -/
inductive StateError
  | Io (path source : String)
  | Serde
  | NotFound (id : String)
  | Seal
  | PartialState (key : PubkeySec1)
deriving DecidableEq

/-- The id every DKG generation is stored under. -/
def activeSignerId : String := "default"

/-- `SignerMetadata`. -/
structure SignerMetadata where
  signerId : String
  publicKey : PubkeySec1
deriving DecidableEq

/-- A directory whose metadata files hold `μ` and whose shard files hold `σ`. -/
@[ext] structure SignerDir (μ σ : Type) where
  metadata : Option μ
  shard : Option σ
  tmpMetadata : Option μ
  tmpShard : Option σ
deriving DecidableEq

/-- One file-system step of `save_shard` and of its `write_atomic`. -/
inductive FileOp (μ σ : Type)
  | createDir
  | setDirMode
  | writeTmpMetadata (content : μ)
  | setTmpMetadataMode
  | renameMetadata
  | writeTmpShard (content : σ)
  | setTmpShardMode
  | renameShard
deriving DecidableEq

section

variable {μ σ : Type}

/-- Nothing was saved. -/
def SignerDir.empty : SignerDir μ σ := ⟨none, none, none, none⟩

/-- What an operation does to the directory; modes are not looked at here. -/
def FileOp.apply (dir : SignerDir μ σ) : FileOp μ σ → SignerDir μ σ
  | .createDir | .setDirMode | .setTmpMetadataMode | .setTmpShardMode => dir
  | .writeTmpMetadata content => { dir with tmpMetadata := some content }
  | .renameMetadata => { dir with metadata := dir.tmpMetadata, tmpMetadata := none }
  | .writeTmpShard content => { dir with tmpShard := some content }
  | .renameShard => { dir with shard := dir.tmpShard, tmpShard := none }

/-- `save_shard`'s steps before the shard is sealed. -/
def saveMetadataOps (meta_ : μ) : List (FileOp μ σ) :=
  [.createDir, .setDirMode, .writeTmpMetadata meta_, .setTmpMetadataMode, .renameMetadata]

/-- `save_shard`'s steps on the sealed shard. -/
def saveShardOps (sealed : σ) : List (FileOp μ σ) :=
  [.writeTmpShard sealed, .setTmpShardMode, .renameShard]

/-- `save_shard`: its steps in order, and how it ends if none of them fails. -/
def saveShard (meta_ : μ) (sealed : Except StateError σ) :
    List (FileOp μ σ) × Except StateError Unit :=
  match sealed with
  | .ok sealed => (saveMetadataOps meta_ ++ saveShardOps sealed, .ok ())
  | .error e => (saveMetadataOps meta_, .error e)

/-- Run `save_shard` on a directory; `stop` is a step that fails and its error. -/
def SignerDir.save (dir : SignerDir μ σ) (meta_ : μ) (sealed : Except StateError σ)
    (stop : Option (Nat × StateError)) : SignerDir μ σ × Except StateError Unit :=
  let (ops, result) := saveShard meta_ sealed
  match stop with
  | none => (ops.foldl FileOp.apply dir, result)
  | some (k, e) => ((ops.take k).foldl FileOp.apply dir,
      if k < ops.length then .error e else result)

/-- What a `save_shard` that got through `steps` of its steps leaves. -/
def SignerDir.cut (dir : SignerDir μ σ) (meta_ : μ) (sealed : Except StateError σ) (steps : Nat) :
    SignerDir μ σ :=
  ((saveShard meta_ sealed).1.take steps).foldl FileOp.apply dir

/-- **Where a save can stop.** With both files as they were, with the new
metadata alone, or with both files new. -/
theorem cut_files (dir : SignerDir μ σ) (meta_ : μ) (sealed : Except StateError σ) (steps : Nat) :
    let dir' := dir.cut meta_ sealed steps
    (dir'.metadata = dir.metadata ∧ dir'.shard = dir.shard) ∨
    (dir'.metadata = some meta_ ∧ dir'.shard = dir.shard) ∨
    ∃ content, sealed = .ok content ∧ dir'.metadata = some meta_ ∧ dir'.shard = some content := by
  intro dir'
  rcases sealed with e | content
  · rcases steps with _ | _ | _ | _ | _ | steps
    iterate 5 exact Or.inl ⟨rfl, rfl⟩
    right
    left
    simp [dir', SignerDir.cut, saveShard, saveMetadataOps, FileOp.apply]
  · rcases steps with _ | _ | _ | _ | _ | _ | _ | _ | steps
    iterate 5 exact Or.inl ⟨rfl, rfl⟩
    iterate 3 exact Or.inr (Or.inl ⟨rfl, rfl⟩)
    right
    right
    simp [dir', SignerDir.cut, saveShard, saveMetadataOps, saveShardOps, FileOp.apply]

/-- A save that stops, for whatever reason, is one that was cut. -/
theorem save_cut (dir : SignerDir μ σ) (meta_ : μ) (sealed : Except StateError σ)
    (stop : Option (Nat × StateError)) :
    ∃ steps, (dir.save meta_ sealed stop).1 = dir.cut meta_ sealed steps := by
  rcases stop with _ | ⟨k, e⟩
  · refine ⟨(saveShard meta_ sealed).1.length, ?_⟩
    rw [SignerDir.cut, List.take_length]
    rfl
  · exact ⟨k, rfl⟩

/-- A completed save: both files hold the new content, no temporary is left. -/
theorem save_ok {dir : SignerDir μ σ} {meta_ : μ} {sealed : σ} :
    dir.save meta_ (.ok sealed) none = (⟨some meta_, some sealed, none, none⟩, .ok ()) := rfl

end

-- ---------------------------------------------------------------------------
-- Reading
-- ---------------------------------------------------------------------------

/-- `ShardSealer`: the at-rest strategy. Sealing draws a nonce. -/
structure ShardSealer where
  sealBytes : Bytes → Bytes → Except StateError Bytes
  openBytes : Bytes → Except StateError Bytes

/-- `Passthrough`: shard bytes are written as they are. -/
def passthrough : ShardSealer := ⟨fun _ plaintext => .ok plaintext, .ok⟩

/-- What a cosigner's directory holds. -/
abbrev ShardDir := SignerDir SignerMetadata Bytes

/-- `read_or_not_found`; `fault` is a read that fails. -/
def readOrNotFound {β : Type} (fault : Option StateError) (file : Option β) :
    Except StateError β :=
  match fault, file with
  | some e, _ => .error e
  | none, some content => .ok content
  | none, none => .error (.NotFound activeSignerId)

/-- `load_shard`, as the handlers see it. -/
def loadShard (sealer : ShardSealer) (dir : ShardDir) (fault : Option StateError) :
    Except StateError KeyShare := do
  let sealed ← readOrNotFound fault dir.shard
  let plaintext ← sealer.openBytes sealed
  return ⟨plaintext⟩

/-- `load_metadata`, likewise. -/
def loadMetadata (dir : ShardDir) (fault : Option StateError) : Except StateError SignerMetadata :=
  readOrNotFound fault dir.metadata

/-- `load_active` on what its two reads yield: metadata without a shard is its
own error. -/
def activeOf {μ σ : Type} (key : μ → PubkeySec1) (metadata : Except StateError μ)
    (shard : Except StateError σ) : Except StateError (Option PubkeySec1) :=
  match metadata with
  | .error (.NotFound _) => .ok none
  | .error e => .error e
  | .ok metadata =>
    match shard with
    | .ok _ => .ok (some (key metadata))
    | .error (.NotFound _) => .error (.PartialState (key metadata))
    | .error e => .error e

/-- `load_active`, likewise. -/
def loadActive (sealer : ShardSealer) (dir : ShardDir) (metaFault shardFault : Option StateError) :
    Except StateError (Option PubkeySec1) :=
  activeOf SignerMetadata.publicKey (loadMetadata dir metaFault) (loadShard sealer dir shardFault)

end Sovra.State
