import Sovra.Cli.Identity
import Sovra.Certs.Provision

/-!
# Sovra — who can read the secrets

Everything that puts secret bytes on a disk, in any number of processes at once:
the identity keys, `save_shard`, and the keys of `sovra-certs`. Between any two
file-system steps, is each file with secret bytes private (mode 0600), or in a
private directory (mode 0700)? Which bytes are secret is a parameter; what rcgen
publishes is not.

* `write_step`, `setMode_step`, `rename_step` — what each step of a write needs.
* `secrets_private` — every secret is private in every state, if keys are written
  into private directories or over private temporaries.
* `secret_readable` — a first run in a fresh directory writes its key to a file
  everybody can read, and only then makes it private.
-/

namespace Sovra.Secrets

open Lib State Cosigner Certs

/-- A process that persists secrets, with what it draws. -/
inductive Job (K : Type)
  | cosigner (dataDir : String) (fresh : SigningKey)
  | identity (dataDir : String) (fresh : SigningKey)
  | saveShard (root : String) (toJson : SignerMetadata → Except StateError Bytes)
      (sealer : ShardSealer) (meta_ : SignerMetadata) (shard : KeyShare) (nonce : Bytes)
  | ensureCa (dir : String) (fresh : K)
  | ensureLeaf (dir stem commonName : String) (sans : List String) (ca : Ca K) (fresh : K)
  | generateCsr (dir stem commonName : String) (sans : List String) (fresh : K)
  | sign (dir : String) (csr : HostPath) (out : Option HostPath) (fresh : K)

/-- A program whose result nobody looks at. -/
abbrev Process := Program (FileCall String Bytes) FileCall.Reply Unit

/-- Any number of them on one disk, each between two of its steps. -/
abbrev Processes := Crew HostDisk (FileCall String Bytes) FileCall.Reply Unit

/-- How a process ends does not matter here. -/
def process {ε α : Type} (p : Files String Bytes ε α) : Process := p.run >>= fun _ => .done ()

section

variable {K : Type} (R : Rcgen K)

/-- What a job runs. -/
def launch : Job K → Process
  | .cosigner dataDir fresh => process (Cosigner.loadOrGenerate dataDir fresh)
  | .identity dataDir fresh => process (Cli.loadOrGenerate dataDir fresh)
  | .saveShard root toJson sealer meta_ shard nonce =>
    process (persistShard root toJson sealer meta_ shard nonce)
  | .ensureCa dir fresh => process (ensureCa R dir fresh)
  | .ensureLeaf dir stem commonName sans ca fresh =>
    process (ensureLeaf R dir stem commonName sans ca fresh)
  | .generateCsr dir stem commonName sans fresh =>
    process (generateCsr R dir stem commonName sans fresh)
  | .sign dir csr out fresh => process (sign R dir csr out fresh)

/-- The machine: processes start, go on by one file operation, and stop, in any order. -/
def processes : Machine Processes (Move (Job K)) := Crew.machine Mount.whole.exec (launch R)

end

-- ---------------------------------------------------------------------------
-- Private files
-- ---------------------------------------------------------------------------

/-- 0600. -/
def privateFile : Mode := 0o600

/-- 0700. -/
def privateDir : Mode := 0o700

/-- What has secret bytes (`S`) is private, or in a private directory. -/
def Protected (S : Bytes → Prop) (disk : HostDisk) : Prop :=
  ∀ path file, disk.file? path = some file → S file.content →
    file.mode = privateFile ∨ disk.dirMode? path.dir = some privateDir

/-- `path` is in a private directory, or a private file already. -/
def Shielded (disk : HostDisk) (path : HostPath) : Prop :=
  disk.dirMode? path.dir = some privateDir ∨
    ∃ file, disk.file? path = some file ∧ file.mode = privateFile

/-- The temporaries keys go through. -/
def KeyTemporary (name : String) : Prop :=
  name = tmpName identityFile ∨ ∃ stem, name = tmpName (keyFile stem)

/-- A key is written where its temporary is shielded. -/
def ShieldedWrite (S : Bytes → Prop) (disk : HostDisk) : FileCall String Bytes → Prop
  | .perform (.write path bytes) => S bytes → KeyTemporary path.name → Shielded disk path
  | _ => True

/-- The next step of each process that moves meets `ShieldedWrite`. -/
def KeysShielded {K : Type} (S : Bytes → Prop) (w : Processes) : Move (Job K) → Prop
  | .advance id => ∀ p c, w.tasks id = some p → p.next? = some c → ShieldedWrite S w.state c
  | _ => True

/-- Nothing rcgen publishes is secret. -/
structure PublicPems {K : Type} (S : Bytes → Prop) (R : Rcgen K) : Prop where
  cert : ∀ cert, ¬ S (R.certPem cert)
  csr : ∀ csr, ¬ S (R.csrPem csr)

-- ---------------------------------------------------------------------------
-- One step
-- ---------------------------------------------------------------------------

/-- Private directories stay private. -/
def Held (disk disk' : HostDisk) : Prop :=
  ∀ dir, disk.dirMode? dir = some privateDir → disk'.dirMode? dir = some privateDir

/-- What every step keeps: secrets are private, and none has a public name. -/
structure Inv (S : Bytes → Prop) (disk : HostDisk) : Prop where
  private_ : Protected S disk
  unpublished : ∀ path file, disk.file? path = some file → S file.content →
    ¬ PublicName path.name

/-- What a process relies on (private directories stay private), what is asked of
its calls, and what each of its steps answers for. -/
def secretTerms (S : Bytes → Prop) : Terms HostDisk (FileCall String Bytes) where
  rely := Held
  pre := ShieldedWrite S
  guarantee disk disk' := Held disk disk' ∧ (Inv S disk → Inv S disk')
  rely_refl _ _ h := h
  rely_trans h h' dir hDir := h' dir (h dir hDir)
  guarantee_refl _ := ⟨fun _ h => h, fun h => h⟩

section

variable {S : Bytes → Prop} {disk disk' : HostDisk} {dir : String} {path source target : HostPath}
  {bytes : Bytes} {mode : Mode}

/-- A step that leaves the directories' modes alone. -/
theorem Held.of_eq (h : ∀ dir, disk'.dirMode? dir = disk.dirMode? dir) : Held disk disk' := by
  intro dir hDir
  rw [h]
  exact hDir

/-- A directory that is created was not there: no mode is changed. -/
theorem createDirAll_step (h : disk.apply (.createDirAll dir) = .ok disk') :
    (secretTerms S).guarantee disk disk' := by
  obtain ⟨hFiles, -, hDirs⟩ := Disk.apply_createDirAll h
  refine ⟨fun other hMode => hDirs other _ hMode, ?_⟩
  intro hInv
  constructor
  · intro path file hFile hSecret
    rw [hFiles] at hFile
    exact (hInv.private_ path file hFile hSecret).imp id (hDirs path.dir _)
  · intro path file hFile
    rw [hFiles] at hFile
    exact hInv.unpublished path file hFile

/-- Making a directory private exposes nothing. -/
theorem setDirMode_step (h : disk.apply (.setDirMode dir privateDir) = .ok disk') :
    (secretTerms S).guarantee disk disk' := by
  obtain ⟨hFiles, hDirs⟩ := Disk.apply_setDirMode h
  have hHeld : Held disk disk' := by
    intro other hMode
    rw [hDirs]
    split
    · rfl
    · exact hMode
  refine ⟨hHeld, ?_⟩
  intro hInv
  constructor
  · intro path file hFile hSecret
    rw [hFiles] at hFile
    exact (hInv.private_ path file hFile hSecret).imp id (hHeld path.dir)
  · intro path file hFile
    rw [hFiles] at hFile
    exact hInv.unpublished path file hFile

/-- A write keeps the secrets private if it is one of a public text, or goes where
it is shielded, under a name that is not public. -/
theorem write_step (h : disk.apply (.write path bytes) = .ok disk')
    (hShielded : S bytes → Shielded disk path) (hName : S bytes → ¬ PublicName path.name) :
    (secretTerms S).guarantee disk disk' := by
  obtain ⟨hDirs, hFiles⟩ := Disk.apply_write h
  refine ⟨Held.of_eq hDirs, ?_⟩
  intro hInv
  constructor
  · intro other file hFile hSecret
    rw [hFiles] at hFile
    rw [hDirs]
    split at hFile
    · rename_i hPath
      obtain rfl := Option.some.inj hFile
      rcases hShielded hSecret with hDir | ⟨old, hOld, hMode⟩
      · rw [hPath]
        exact Or.inr hDir
      · -- An existing file keeps its mode.
        left
        rw [hOld]
        exact hMode
    · exact hInv.private_ other file hFile hSecret
  · intro other file hFile hSecret
    rw [hFiles] at hFile
    split at hFile
    · rename_i hPath
      obtain rfl := Option.some.inj hFile
      rw [hPath]
      exact hName hSecret
    · exact hInv.unpublished other file hFile hSecret

/-- A file may be made private; a public name may get any mode, since no secret has
one. -/
theorem setMode_step (h : disk.apply (.setMode path mode) = .ok disk')
    (hMode : mode = privateFile ∨ PublicName path.name) :
    (secretTerms S).guarantee disk disk' := by
  obtain ⟨old, hOld, hDirs, hFiles⟩ := Disk.apply_setMode h
  refine ⟨Held.of_eq hDirs, ?_⟩
  intro hInv
  constructor
  · intro other file hFile hSecret
    rw [hFiles] at hFile
    rw [hDirs]
    split at hFile
    · obtain rfl := Option.some.inj hFile
      -- the mode set is private, or the name is one no secret has
      rcases hMode with rfl | hPublic
      · exact Or.inl rfl
      · exact absurd hPublic (hInv.unpublished path old hOld hSecret)
    · exact hInv.private_ other file hFile hSecret
  · intro other file hFile hSecret
    rw [hFiles] at hFile
    split at hFile
    · rename_i hPath
      obtain rfl := Option.some.inj hFile
      rw [hPath]
      exact hInv.unpublished path old hOld hSecret
    · exact hInv.unpublished other file hFile hSecret

/-- A rename takes the mode along, within one directory. -/
theorem rename_step (h : disk.apply (.rename source target) = .ok disk')
    (hDir : target.dir = source.dir) (hName : PublicName target.name → PublicName source.name) :
    (secretTerms S).guarantee disk disk' := by
  obtain ⟨moved, hMoved, hDirs, hFiles⟩ := Disk.apply_rename h
  refine ⟨Held.of_eq hDirs, ?_⟩
  intro hInv
  constructor
  · intro other file hFile hSecret
    rw [hFiles] at hFile
    rw [hDirs]
    split at hFile
    · rename_i hPath
      obtain rfl := Option.some.inj hFile
      -- the file that moved was private where it was, and its directory is the same
      rw [hPath, hDir]
      exact hInv.private_ source _ hMoved hSecret
    · -- the old name is gone; other files are not touched
      split at hFile
      · simp at hFile
      · exact hInv.private_ other file hFile hSecret
  · intro other file hFile hSecret
    rw [hFiles] at hFile
    split at hFile
    · rename_i hPath
      obtain rfl := Option.some.inj hFile
      rw [hPath]
      intro hPublic
      exact hInv.unpublished source _ hMoved hSecret (hName hPublic)
    · split at hFile
      · simp at hFile
      · exact hInv.unpublished other file hFile hSecret

end

-- ---------------------------------------------------------------------------
-- Whole programs
-- ---------------------------------------------------------------------------

/-- From any disk on which the directories `owned` are private, every step keeps
the secrets private. -/
def Safe {ε α : Type} (S : Bytes → Prop) (owned : Option String) (p : Files String Bytes ε α) :
    Prop :=
  ∀ disk, (∀ dir, owned = some dir → disk.dirMode? dir = some privateDir) →
    Program.Sat Mount.whole.exec (secretTerms S) (fun _ _ => True) p.run disk

section

variable {S : Bytes → Prop} {owned : Option String} {ε α β : Type}

/-- Parts that are safe are safe one after the other: a directory that is private
stays so. -/
theorem Safe.bind {p : Files String Bytes ε α} {f : α → Files String Bytes ε β}
    (h : Safe S owned p) (hRest : ∀ a, Safe S owned (f a)) : Safe S owned (p >>= f) := by
  intro disk hOwned
  -- What is private now is private wherever the rest starts.
  have hKept := (h disk hOwned).frame
    (F := fun s => ∀ dir, owned = some dir → s.dirMode? dir = some privateDir) hOwned
    (fun s s' hF hHeld dir hDir => hHeld dir (hF dir hDir))
    (fun s s' hF hStep dir hDir => hStep.1 dir (hF dir hDir))
  exact hKept.andThen (fun a s hQ => hRest a s hQ.2) (fun _ _ => trivial)

/-- Returning touches no file. -/
theorem Safe.done (result : Except ε α) :
    Safe S owned (ExceptT.mk (.done result) : Files String Bytes ε α) :=
  fun _ _ _ _ => trivial

/-- What was computed without the disk, where it did not fail. -/
theorem Safe.lift {result : Except ε α} {f : α → Files String Bytes ε β}
    (h : ∀ a, result = .ok a → Safe S owned (f a)) : Safe S owned (Files.liftExcept result >>= f) := by
  rcases result with e | a
  · exact Safe.done (.error e)
  · exact h a rfl

/-- Looking for a file writes none. -/
theorem Safe.exists_ (path : HostPath) :
    Safe S owned (Files.exists_ path : Files String Bytes ε Bool) :=
  fun _ _ => Program.Sat.exists_ fun _ _ _ _ _ => trivial

/-- Reading a file writes none. -/
theorem Safe.read (path : HostPath) (f : IoError → ε) : Safe S owned (Files.read path f) :=
  fun _ _ => Program.Sat.read (fun _ _ => trivial) fun _ _ _ _ _ _ _ => trivial

/-- Listing a directory writes no file. -/
theorem Safe.readDir (dir : String) (f : IoError → ε) :
    Safe S owned (Files.readDir dir f : Files String Bytes ε _) :=
  fun _ _ => Program.Sat.readDir (fun _ _ => trivial) fun _ _ _ _ _ => trivial

/-- Renaming errors is safe. -/
theorem Safe.adapt {ε' : Type} {f : ε → ε'} {p : Files String Bytes ε α} (h : Safe S owned p) :
    Safe S owned (ExceptT.adapt f p) :=
  fun disk hOwned => Program.Sat.adapt ((h disk hOwned).weaken fun _ _ _ => trivial)

/-- Creating a directory is safe. -/
theorem Safe.createDirAll (dir : String) (f : IoError → ε) :
    Safe S owned (Files.perform (.createDirAll dir) f) :=
  fun _ _ => Program.Sat.perform (fun _ _ => trivial) fun _ _ _ _ hApply =>
    ⟨createDirAll_step hApply, fun _ _ => trivial⟩

/-- `std::fs::write` of a public text, anywhere. -/
theorem Safe.writePublic {path : HostPath} {bytes : Bytes} (hPublic : ¬ S bytes)
    (f : IoError → ε) : Safe S owned (Files.perform (.write path bytes) f) :=
  fun _ _ => Program.Sat.perform (fun _ _ => trivial) fun _ _ _ _ hApply =>
    ⟨write_step hApply (fun hSecret => absurd hSecret hPublic)
      (fun hSecret => absurd hSecret hPublic), fun _ _ => trivial⟩

/-- **A whole write.** Private from the second step on, and at the first one where
it is shielded. -/
theorem Safe.writeAtomicMode {path : HostPath} {bytes : Bytes} {mode : Mode}
    (hMode : mode = privateFile ∨ PublicName path.name)
    (hName : S bytes → ¬ PublicName (tmpName path.name))
    (hShielded : S bytes → owned = some path.dir ∨ KeyTemporary (tmpName path.name)) :
    Safe S owned (writeAtomicMode path bytes mode) := by
  intro disk hOwned
  refine writeAtomicMode_sat (A := fun _ => True) (B := fun _ => True) (fun _ _ => trivial)
    (fun _ _ _ _ => trivial) (fun _ _ _ _ => trivial) ?_ ?_ ?_
  · intro before after hHeld hPre hApply
    refine ⟨write_step hApply ?_ hName, trivial⟩
    intro hSecret
    rcases hShielded hSecret with hDir | hTemporary
    · exact Or.inl (hHeld path.dir (hOwned path.dir hDir))
    · exact hPre hSecret hTemporary
  · intro before after _ _ hApply
    exact ⟨setMode_step hApply (hMode.imp id PublicName.tmp), trivial⟩
  · intro before after _ _ hApply
    exact ⟨rename_step hApply rfl PublicName.tmp, fun _ _ => trivial⟩

/-- A key, under one of the names keys have. -/
theorem Safe.writeKey {path : HostPath} {bytes : Bytes} (hName : ¬ PublicName (tmpName path.name))
    (hKey : KeyTemporary (tmpName path.name)) : Safe S owned (writeAtomic path bytes) :=
  Safe.writeAtomicMode (Or.inl rfl) (fun _ => hName) fun _ => Or.inr hKey

/-- The identity's temporary has no public name. -/
theorem identity_unpublished : ¬ PublicName (tmpName identityFile) := by decide

/-- The metadata's temporary has no public name. -/
theorem metadata_unpublished : ¬ PublicName (tmpName metadataFile) := by decide

/-- The shard's temporary has no public name. -/
theorem shard_unpublished : ¬ PublicName (tmpName shardFile) := by decide

/-- A first run writes one file, its key. -/
theorem loadOrGenerate_safe (errors : IdentityErrors ε) (dataDir : String) (fresh : SigningKey) :
    Safe S none (loadOrGenerateWith errors dataDir fresh) := by
  refine Safe.bind (Safe.exists_ _) fun found => ?_
  split
  · -- a later run only reads
    refine Safe.bind (Safe.read _ _) fun bytes => ?_
    split
    · exact Safe.done _
    · exact Safe.done _
  · -- a first run writes its key; that the temporary is shielded is up to the condition
    refine Safe.bind (Safe.createDirAll _ _) fun _ => ?_
    refine Safe.bind (Safe.adapt ?_) fun _ => Safe.done _
    exact Safe.writeKey identity_unpublished (Or.inl rfl)

/-- `save_shard` makes its directory private before it writes. -/
theorem persistShard_safe (root : String) (toJson : SignerMetadata → Except StateError Bytes)
    (sealer : ShardSealer) (meta_ : SignerMetadata) (shard : KeyShare) (nonce : Bytes) :
    Safe S none (persistShard root toJson sealer meta_ shard nonce) := by
  refine Safe.bind (Safe.createDirAll _ _) fun _ => ?_
  intro disk _
  refine Program.Sat.andThen
    (Q := fun r s => r = .ok () → s.dirMode? (root ++ "/" ++ meta_.signerId) = some privateDir)
    ?_ ?_ (fun _ _ => trivial)
  · -- the mode is set before anything is written, and no process takes it back
    refine Program.Sat.perform (fun _ _ h => by simp at h) ?_
    intro before after _ _ hApply
    refine ⟨setDirMode_step hApply, ?_⟩
    intro later hHeld _
    refine hHeld _ ?_
    show after.dirMode? _ = _
    rw [(Disk.apply_setDirMode hApply).2, if_pos rfl]
    rfl
  rintro ⟨⟩ s hPrivate
  -- from here on the directory is private, whatever the files' modes
  have hRest : Safe S (some (root ++ "/" ++ meta_.signerId)) (do
      let metaBytes ← Files.liftExcept (toJson meta_)
      writeAtomic ⟨root ++ "/" ++ meta_.signerId, metadataFile⟩ metaBytes
      let sealed ← Files.liftExcept (sealer.sealBytes nonce shard.bytes)
      writeAtomic ⟨root ++ "/" ++ meta_.signerId, shardFile⟩ sealed) := by
    refine Safe.bind (Safe.done _) fun metaBytes => ?_
    refine Safe.bind ?_ fun _ => ?_
    · exact Safe.writeAtomicMode (Or.inl rfl) (fun _ => metadata_unpublished) fun _ => Or.inl rfl
    refine Safe.bind (Safe.done _) fun sealed => ?_
    exact Safe.writeAtomicMode (Or.inl rfl) (fun _ => shard_unpublished) fun _ => Or.inl rfl
  refine hRest s ?_
  rintro dir ⟨⟩
  exact hPrivate rfl

/-- A pair is written key first: a key under a key's name, what is public under a
public one. -/
theorem writePair_safe {dir stem publicFile : String} {keyPem publicPem : Bytes}
    (hName : PublicName publicFile) (hPublic : ¬ S publicPem) :
    Safe S none (writePair ⟨dir, keyFile stem⟩ ⟨dir, publicFile⟩ keyPem publicPem) := by
  refine Safe.bind (Safe.adapt ?_) fun _ => Safe.adapt ?_
  · refine Safe.writeKey ?_ (Or.inr ⟨stem, rfl⟩)
    rw [tmpName_keyFile]
    exact not_publicName_keyFile _
  · exact Safe.writeAtomicMode (Or.inr hName) (fun hSecret => absurd hSecret hPublic)
      fun hSecret => absurd hSecret hPublic

variable {K : Type} {R : Rcgen K}

/-- `ensure_ca` is safe: it writes a pair or nothing. -/
theorem ensureCa_safe (hPublic : PublicPems S R) (dir : String) (fresh : K) :
    Safe S none (ensureCa R dir fresh) := by
  refine Safe.bind (Safe.createDirAll _ _) fun _ => ?_
  refine Safe.bind (Safe.exists_ _) fun certThere => ?_
  refine Safe.bind (Safe.exists_ _) fun keyThere => ?_
  rcases certThere with _ | _ <;> rcases keyThere with _ | _
  · -- neither file is there: a new pair
    show Safe S none (mintCa R dir fresh)
    refine Safe.bind (Safe.bind (Safe.readDir _ _) fun _ => Safe.done _) fun leaf => ?_
    have hMint : Safe S none (do
        writePair ⟨dir, caKeyFile⟩ ⟨dir, caCertFile⟩ (R.keyPem fresh)
          (R.certPem (selfSigned fresh))
        return (⟨"sovra-ca", fresh⟩ : Ca K)) := by
      refine Safe.bind ?_ fun _ => Safe.done _
      rw [caKeyFile_eq, caCertFile_eq]
      exact writePair_safe (publicName_certFile "ca") (hPublic.cert _)
    rcases leaf with _ | leaf
    · exact hMint
    · exact Safe.done _
  · exact Safe.done _
  · exact Safe.done _
  · -- both are: they are read
    show Safe S none (loadCa R dir)
    refine Safe.bind (Safe.read _ _) fun keyPem => ?_
    refine Safe.bind (Safe.done _) fun key => ?_
    refine Safe.bind (Safe.read _ _) fun certPem => ?_
    exact Safe.bind (Safe.done _) fun cert => Safe.done _

/-- `ensure_leaf` is safe: it writes a pair or nothing. -/
theorem ensureLeaf_safe (hPublic : PublicPems S R) (dir stem commonName : String)
    (sans : List String) (ca : Ca K) (fresh : K) :
    Safe S none (ensureLeaf R dir stem commonName sans ca fresh) := by
  refine Safe.bind (Safe.exists_ _) fun certThere => ?_
  refine Safe.bind (Safe.exists_ _) fun keyThere => ?_
  rcases certThere with _ | _ <;> rcases keyThere with _ | _
  · show Safe S none (mintLeaf R dir stem commonName sans ca fresh >>= fun _ => _)
    refine Safe.bind ?_ fun _ => Safe.done _
    refine Safe.bind (Safe.done _) fun _ => ?_
    exact writePair_safe (publicName_certFile stem) (hPublic.cert _)
  · exact Safe.done _
  · exact Safe.done _
  · exact Safe.done _

/-- `generate_csr` is safe: it writes a request and its key or nothing. -/
theorem generateCsr_safe (hPublic : PublicPems S R) (dir stem commonName : String)
    (sans : List String) (fresh : K) :
    Safe S none (generateCsr R dir stem commonName sans fresh) := by
  refine Safe.bind (Safe.createDirAll _ _) fun _ => ?_
  refine Safe.bind (Safe.exists_ _) fun csrThere => ?_
  refine Safe.bind (Safe.exists_ _) fun keyThere => ?_
  rcases csrThere with _ | _ <;> rcases keyThere with _ | _
  · show Safe S none (mintCsr R dir stem commonName sans fresh >>= fun _ => _)
    refine Safe.bind ?_ fun _ => Safe.done _
    refine Safe.bind (Safe.done _) fun _ => ?_
    exact writePair_safe (publicName_csrFile stem) (hPublic.csr _)
  · exact Safe.done _
  · exact Safe.done _
  · exact Safe.done _

/-- `certs sign` is safe: beside what `ensure_ca` writes it writes a certificate. -/
theorem sign_safe (hPublic : PublicPems S R) (dir : String) (csr : HostPath)
    (out : Option HostPath) (fresh : K) : Safe S none (sign R dir csr out fresh) := by
  refine Safe.bind (Safe.read _ _) fun csrPem => ?_
  refine Safe.bind (Safe.done _) fun _ => ?_
  refine Safe.bind (Safe.adapt (ensureCa_safe hPublic dir fresh)) fun ca => ?_
  refine Safe.lift fun certPem hSigned => Safe.writePublic ?_ _
  obtain ⟨request, -, hPem⟩ := bind_eq_ok.mp (mapError_eq_ok.mp hSigned)
  rw [← pure_eq_ok.mp hPem]
  exact hPublic.cert _

/-- So every job keeps its terms from any disk. -/
theorem launch_sat (hPublic : PublicPems S R) (job : Job K) (disk : HostDisk) :
    (launch R job).Sat Mount.whole.exec (secretTerms S) (fun _ _ => True) disk := by
  have hProcess : ∀ {ε α : Type} {p : Files String Bytes ε α}, Safe S none p →
      (process p).Sat Mount.whole.exec (secretTerms S) (fun _ _ => True) disk := by
    intro ε α p hSafe
    exact Program.Sat.map (hSafe disk fun _ hNone => absurd hNone (by simp))
  cases job with
  | cosigner dataDir fresh => exact hProcess (loadOrGenerate_safe _ dataDir fresh)
  | identity dataDir fresh => exact hProcess (loadOrGenerate_safe _ dataDir fresh)
  | saveShard root toJson sealer meta_ shard nonce =>
    exact hProcess (persistShard_safe root toJson sealer meta_ shard nonce)
  | ensureCa dir fresh => exact hProcess (ensureCa_safe hPublic dir fresh)
  | ensureLeaf dir stem commonName sans ca fresh =>
    exact hProcess (ensureLeaf_safe hPublic dir stem commonName sans ca fresh)
  | generateCsr dir stem commonName sans fresh =>
    exact hProcess (generateCsr_safe hPublic dir stem commonName sans fresh)
  | sign dir csr out fresh => exact hProcess (sign_safe hPublic dir csr out fresh)

/-- **Secrets on disk.** From any disk without secrets, in every run in which each
key is written into a private directory or over a private temporary: between any
two file-system steps, every file with secret bytes has mode 0600 or lies in a
directory of mode 0700. -/
theorem secrets_private (hPublic : PublicPems S R) {disk : HostDisk} {w : Processes}
    (hNone : ∀ path file, disk.file? path = some file → ¬ S file.content)
    (hReach : (processes R).Reach (KeysShielded S) (Crew.init disk) w) : Protected S w.state := by
  have hInit : Inv S disk :=
    ⟨fun path file hFile hSecret => absurd hSecret (hNone path file hFile),
      fun path file hFile hSecret => absurd hSecret (hNone path file hFile)⟩
  have hKept : Crew.Keeping Mount.whole.exec (secretTerms S) (fun _ _ => True) (Inv S) w := by
    -- by the crew's run rule: every job keeps its terms, and the condition is met by
    -- whoever moves
    refine Crew.Reach.sat hReach (Crew.Keeping.init hInit)
      (fun job s _ => launch_sat hPublic job s) ?_ ?_
    · intro s s' hInv hStep
      exact ⟨hStep.1, hStep.2 hInv⟩
    · intro w id c next hMet hTask
      exact hMet _ c hTask rfl
  exact hKept.state.private_

end

-- ---------------------------------------------------------------------------
-- A fresh directory
-- ---------------------------------------------------------------------------

namespace Sample

/-- Identity keys and key PEMs. -/
def secret (bytes : Bytes) : Prop := bytes.length = 32 ∨ bytes.head? = some 0

/-- The example's certificates are no secrets. -/
theorem rcgen_public : PublicPems secret Certs.Sample.rcgen := by
  constructor <;> intro _ <;> simp [secret, Certs.Sample.rcgen]

/-- Writes go into private directories. -/
def intoPrivate (w : Processes) : Move (Job UInt8) → Bool
  | .advance id =>
    match w.tasks id with
    | some (.call (.perform (.write path _)) _) => w.state.dirMode? path.dir == some privateDir
    | _ => true
  | _ => true

/-- The check is enough for the condition. -/
theorem intoPrivate_shielded (w : Processes) (m : Move (Job UInt8))
    (h : intoPrivate w m = true) : KeysShielded secret w m := by
  rcases m with ⟨id, job⟩ | ⟨id⟩ | ⟨id⟩
  · trivial
  · intro p c hTask hNext
    rcases p with result | ⟨call, next⟩
    · simp [Program.next?] at hNext
    obtain rfl := Option.some.inj hNext
    rcases call with path | path | dir | step
    · trivial
    · trivial
    · trivial
    rcases step with dir | ⟨dir, mode⟩ | ⟨path, bytes⟩ | ⟨path, mode⟩ | ⟨source, target⟩
    · trivial
    · trivial
    · intro _ _
      simp only [intoPrivate, hTask, beq_iff_eq] at h
      exact Or.inl h
    · trivial
    · trivial
  · trivial

/-- A private data directory, and a CA directory made private beforehand. -/
def prepared : HostDisk := (Disk.empty.setDir "data" privateDir).setDir "certs" privateDir

/-- The key the first run draws. -/
def key : SigningKey := .repeatByte 32 0x0a

/-- `to_vec_pretty` of the metadata. -/
def toJson (metadata : SignerMetadata) : Except StateError Bytes :=
  .ok ("\x7b\n  \"signer_id\": \"" ++ metadata.signerId ++ "\",\n  \"public_key\": \"" ++
    hexEncode metadata.publicKey.bytes ++ "\"\n\x7d").toUTF8.toList

/-- A wallet's key. -/
def publicKey : PubkeySec1 := ⟨0x03 :: List.replicate 32 9, rfl, Or.inr rfl⟩

/-- A first run and a new CA, one step each at a time, and a shard. -/
def moves : List (Move (Job UInt8)) :=
  [.start 0 (.cosigner "data" key), .start 1 (.ensureCa "certs" 7),
    .start 2 (.saveShard "data" toJson passthrough ⟨activeSignerId, publicKey⟩ ⟨key.bytes⟩ [])] ++
    (List.replicate 6 [.advance 0, .advance 1, .advance 2]).flatten

theorem moves_some :
    ((processes Certs.Sample.rcgen).runIf intoPrivate (Crew.init prepared) moves).isSome = true := by
  decide +kernel

/-- The processes after these steps. -/
def afterMoves : Processes :=
  ((processes Certs.Sample.rcgen).runIf intoPrivate (Crew.init prepared) moves).get moves_some

theorem afterMoves_reach :
    (processes Certs.Sample.rcgen).Reach (KeysShielded secret) (Crew.init prepared) afterMoves :=
  Machine.reach_of_runIf intoPrivate_shielded (Option.some_get moves_some).symm

/-- A first run as far as its write. -/
def firstRun : List (Move (Job UInt8)) :=
  .start 0 (.cosigner "data" key) :: List.replicate 3 (.advance 0)

/-- Before the mode is set, the temporary is there for everybody to read. -/
theorem firstRun_run :
    (((processes Certs.Sample.rcgen).run (Crew.init .empty) firstRun).map fun w =>
      (w.state.file? (tmpPath (identityPath "data")), w.state.dirMode? "data")) =
      some (some ⟨key.bytes, 0o644⟩, some 0o755) := by
  decide +kernel

end Sample

/-- The identity key is in its private file, the CA's key and the shard are on
their way there. -/
theorem secrets_private_prepared :
    Sample.afterMoves.state.file? (identityPath "data") = some ⟨Sample.key.bytes, privateFile⟩ ∧
      Protected Sample.secret Sample.afterMoves.state := by
  have hNone : ∀ path file, Sample.prepared.file? path = some file →
      ¬ Sample.secret file.content := by
    intro path file hFile
    cases hFile
  exact ⟨by decide +kernel, secrets_private Sample.rcgen_public hNone Sample.afterMoves_reach⟩

/-- **A secret everybody can read.** A first run writes its key to a file of mode
0644 in a directory of mode 0755, and makes it private a step later. -/
theorem secret_readable :
    ¬ ∀ (K : Type) (R : Rcgen K) (S : Bytes → Prop) (disk : HostDisk) (w : Processes),
      PublicPems S R → (∀ path file, disk.file? path = some file → ¬ S file.content) →
      (processes R).Reach (fun _ _ => True) (Crew.init disk) w → Protected S w.state := by
  intro h
  obtain ⟨w, hRun, hSeen⟩ := Option.map_eq_some_iff.mp Sample.firstRun_run
  have hNone : ∀ path file, (Disk.empty : HostDisk).file? path = some file →
      ¬ Sample.secret file.content := by
    intro path file hFile
    cases hFile
  have hProtected := h UInt8 Certs.Sample.rcgen Sample.secret .empty w Sample.rcgen_public hNone
    (Machine.reach_of_run hRun)
  obtain ⟨hFile, hDir⟩ := Prod.mk.inj hSeen
  rcases hProtected _ _ hFile (Or.inl Sample.key.length_eq) with hMode | hMode
  · exact absurd hMode (by decide)
  · exact absurd (hDir.symm.trans hMode) (by decide)

end Sovra.Secrets
