import Sovra.State.Store
import Sovra.Lib.Files

/-!
# Sovra — files replaced as a whole

`write_atomic` and `write_atomic_public`: the bytes go to a temporary file beside
the target, whose name all writers of the target share, the temporary gets its
mode, and a rename puts it in place. Three separate steps; each may fail, and a
process may die between any two.

* `writeAtomicMode_sat` — the three steps judged one by one.
-/

namespace Sovra.State

open Lib

/-- A file of the host, in a directory named by its path. -/
abbrev HostPath := FilePath String

/-- The host's files hold bytes. -/
abbrev HostDisk := Disk String Bytes

/-- A path as it is shown. -/
def hostPath (path : HostPath) : String := path.dir ++ "/" ++ path.name

/-- `std::io::Error`'s `Display`. -/
def ioText : IoError → String
  | .NotFound => "No such file or directory (os error 2)"

/-- `IoResultExt::at`. -/
def ioAt (path : String) (e : IoError) : StateError := .Io path (ioText e)

/-- `StateError`'s `Display`. -/
def StateError.display : StateError → String
  | .Io path source => "i/o error at " ++ path ++ ": " ++ source
  | .Serde => "serialization error"
  | .NotFound id => "signer not found: " ++ id
  | .Seal => "could not unseal shard"
  | .PartialState key => "metadata for " ++ hexEncode key.bytes ++
      " present but shard missing; partial dkg persistence — wipe the store dir and re-run dkg"

/-- `METADATA_FILE`. -/
def metadataFile : String := "metadata.json"

/-- `SHARD_FILE`. -/
def shardFile : String := "shard.bin"

/-- The name `write_atomic` gives its temporary. -/
def tmpName (name : String) : String := ".tmp-" ++ name

/-- The temporary is beside the file. -/
def tmpPath (path : HostPath) : HostPath := { path with name := tmpName path.name }

/-- `write_atomic_mode`. -/
def writeAtomicMode (path : HostPath) (bytes : Bytes) (mode : Mode) :
    Files String Bytes StateError Unit := do
  let tmp := tmpPath path
  Files.perform (.write tmp bytes) (ioAt (hostPath tmp))
  -- perms before rename, so a secret file is never briefly world-readable
  Files.perform (.setMode tmp mode) (ioAt (hostPath tmp))
  Files.perform (.rename tmp path) (ioAt (hostPath path))

/-- `write_atomic`: for secrets. -/
def writeAtomic (path : HostPath) (bytes : Bytes) : Files String Bytes StateError Unit :=
  writeAtomicMode path bytes 0o600

/-- `write_atomic_public`: for what everybody may read. -/
def writeAtomicPublic (path : HostPath) (bytes : Bytes) : Files String Bytes StateError Unit :=
  writeAtomicMode path bytes 0o644

/-- A temporary is not the file it is for. -/
theorem tmpName_ne (name : String) : tmpName name ≠ name := by
  intro h
  have hLength : (tmpName name).length = name.length := congrArg String.length h
  rw [tmpName, String.length_append] at hLength
  have hPrefix : ".tmp-".length = 5 := by decide
  omega

theorem tmpPath_ne (path : HostPath) : tmpPath path ≠ path :=
  fun h => tmpName_ne path.name (congrArg FilePath.name h)

section

variable {σ : Type} {M : Mount σ String Bytes} {T : Terms σ (FileCall String Bytes)} {s : σ}
  {path : HostPath} {bytes : Bytes} {mode : Mode}

/-- The three steps of a write: what holds after each of them (`A`, `B`) is kept
by interference and makes the next one right. -/
theorem writeAtomicMode_sat {Q : Except StateError Unit → σ → Prop}
    (A B : σ → Prop) (hError : ∀ e s, Q (.error e) s)
    (hA : ∀ s s', A s → T.rely s s' → A s') (hB : ∀ s s', B s → T.rely s s' → B s')
    (hWrite : ∀ before disk, T.rely s before →
      T.pre before (.perform (.write (tmpPath path) bytes)) →
      (M.get before).apply (.write (tmpPath path) bytes) = .ok disk →
      T.guarantee before (M.set before disk) ∧ A (M.set before disk))
    (hMode : ∀ before disk, A before → T.pre before (.perform (.setMode (tmpPath path) mode)) →
      (M.get before).apply (.setMode (tmpPath path) mode) = .ok disk →
      T.guarantee before (M.set before disk) ∧ B (M.set before disk))
    (hRename : ∀ before disk, B before →
      T.pre before (.perform (.rename (tmpPath path) path)) →
      (M.get before).apply (.rename (tmpPath path) path) = .ok disk →
      T.guarantee before (M.set before disk) ∧
        ∀ later, T.rely (M.set before disk) later → Q (.ok ()) later) :
    Program.Sat M.exec T Q (writeAtomicMode path bytes mode).run s := by
  unfold writeAtomicMode
  refine Program.Sat.andThen (Q := fun r s => r = .ok () → A s) ?_ ?_ hError
  · refine Program.Sat.perform (fun _ _ h => by simp at h) ?_
    intro before disk hRely hPre hApply
    obtain ⟨hStep, hAfter⟩ := hWrite before disk hRely hPre hApply
    exact ⟨hStep, fun later hLater _ => hA _ _ hAfter hLater⟩
  -- the bytes are in the temporary: `A`
  rintro ⟨⟩ t hWritten
  refine Program.Sat.andThen (Q := fun r s => r = .ok () → B s) ?_ ?_ hError
  · refine Program.Sat.perform (fun _ _ h => by simp at h) ?_
    intro before disk hRely hPre hApply
    obtain ⟨hStep, hAfter⟩ := hMode before disk (hA _ _ (hWritten rfl) hRely) hPre hApply
    exact ⟨hStep, fun later hLater _ => hB _ _ hAfter hLater⟩
  -- its mode is set: `B`
  rintro ⟨⟩ t' hSet
  refine Program.Sat.perform hError ?_
  intro before disk hRely hPre hApply
  exact hRename before disk (hB _ _ (hSet rfl) hRely) hPre hApply

end

/-- `SignerStore::save_shard`, below the store's root, with each call it makes.
`signer_dir` joins the id; the one id in use is a plain name. -/
def persistShard (root : String) (toJson : SignerMetadata → Except StateError Bytes)
    (sealer : ShardSealer) (meta_ : SignerMetadata) (shard : KeyShare) (nonce : Bytes) :
    Files String Bytes StateError Unit := do
  let dir := root ++ "/" ++ meta_.signerId
  Files.perform (.createDirAll dir) (ioAt dir)
  Files.perform (.setDirMode dir 0o700) (ioAt dir)
  let metaBytes ← Files.liftExcept (toJson meta_)
  writeAtomic ⟨dir, metadataFile⟩ metaBytes
  let sealed ← Files.liftExcept (sealer.sealBytes nonce shard.bytes)
  writeAtomic ⟨dir, shardFile⟩ sealed

/-- All of a write's calls are steps on the temporary and the file. -/
theorem writeAtomicMode_only {P : FileCall String Bytes → Prop} {path : HostPath} {bytes : Bytes}
    {mode : Mode} (hWrite : P (.perform (.write (tmpPath path) bytes)))
    (hMode : P (.perform (.setMode (tmpPath path) mode)))
    (hRename : P (.perform (.rename (tmpPath path) path))) :
    Program.Only P (writeAtomicMode path bytes mode).run := by
  refine Program.Only.andThen ⟨hWrite, fun _ => trivial⟩ fun _ => ?_
  refine Program.Only.andThen ⟨hMode, fun _ => trivial⟩ fun _ => ?_
  exact ⟨hRename, fun _ => trivial⟩

end Sovra.State
