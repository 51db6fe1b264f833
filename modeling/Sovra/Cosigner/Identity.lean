import Sovra.State.Atomic

/-!
# Sovra — a host's identity key

`load_or_generate`: the 32 bytes of `identity.key`, made on first run. The
cosigner and the CLI each have one; they differ in how they word their errors.

* `load_sat`     — a call that found the file returns what is in it.
* `generate_sat` — a call that found none, undisturbed, leaves its key there.
-/

namespace Sovra.Cosigner

open Lib State

/-- `ed25519_dalek::SigningKey`: any 32 bytes are one. -/
abbrev SigningKey := B256

/-- The identity key's file. -/
def identityFile : String := "identity.key"

/-- Where the identity key is. -/
def identityPath (dataDir : String) : HostPath := ⟨dataDir, identityFile⟩

/-- How a `load_or_generate` words what can go wrong. -/
structure IdentityErrors (ε : Type) where
  read : HostPath → IoError → ε
  size : HostPath → Nat → ε
  createDir : String → IoError → ε
  write : StateError → ε

section

variable {ε : Type} (errors : IdentityErrors ε) (dataDir : String)

/-- The key in a file that was found. -/
def load : Files String Bytes ε SigningKey := do
  let path := identityPath dataDir
  let bytes ← Files.read path (errors.read path)
  if hLen : bytes.length = 32 then
    return ⟨bytes, hLen⟩
  else
    throw (errors.size path bytes.length)

/-- The first run; `fresh` is what `SigningKey::generate` draws. -/
def generate (fresh : SigningKey) : Files String Bytes ε SigningKey := do
  Files.perform (.createDirAll dataDir) (errors.createDir dataDir)
  ExceptT.adapt errors.write (writeAtomic (identityPath dataDir) fresh.bytes)
  return fresh

/-- `load_or_generate`, for either caller's errors. -/
def loadOrGenerateWith (fresh : SigningKey) : Files String Bytes ε SigningKey := do
  if ← Files.exists_ (identityPath dataDir) then
    load errors dataDir
  else
    generate errors dataDir fresh

end

/-- What `load_or_generate` refuses a file with. -/
def sizeError (path : HostPath) (length : Nat) : String :=
  hostPath path ++ " is " ++ toString length ++
    " bytes, expected 32 — refusing to regenerate a pinned identity"

/-- The errors of `CosignerError` the cosigner's `load_or_generate` ends in. -/
inductive IdentityError
  | State (e : StateError)
  | Identity (msg : String)
deriving DecidableEq

/-- The cosigner's. -/
def identityErrors : IdentityErrors IdentityError where
  read path e := .State (ioAt (hostPath path) e)
  size path length := .Identity (sizeError path length)
  createDir dir e := .State (ioAt dir e)
  write := .State

/-- The cosigner's `load_or_generate`. -/
def loadOrGenerate (dataDir : String) (fresh : SigningKey) :
    Files String Bytes IdentityError SigningKey :=
  loadOrGenerateWith identityErrors dataDir fresh

-- ---------------------------------------------------------------------------
-- Each part of a call
-- ---------------------------------------------------------------------------

/-- The bytes of `identity.key`, once there, stay. -/
def Pinned (dataDir : String) (disk disk' : HostDisk) : Prop :=
  ∀ bytes, disk.content? (identityPath dataDir) = some bytes →
    disk'.content? (identityPath dataDir) = some bytes

/-- A returned key is in the file. -/
def Returns {ε : Type} (dataDir : String) (result : Except ε SigningKey) (disk : HostDisk) : Prop :=
  ∀ key, result = .ok key → disk.content? (identityPath dataDir) = some key.bytes

/-- The terms of a call that only reads. -/
def readerTerms (dataDir : String) : Terms HostDisk (FileCall String Bytes) where
  rely := Pinned dataDir
  pre _ _ := True
  guarantee disk disk' := disk' = disk
  rely_refl _ _ h := h
  rely_trans h h' bytes hBytes := h' bytes (h bytes hBytes)
  guarantee_refl _ := rfl

/-- The terms of a call that writes, with nobody else doing so. -/
def writerTerms (dataDir : String) : Terms HostDisk (FileCall String Bytes) where
  rely disk disk' := disk' = disk
  pre _ _ := True
  guarantee := Pinned dataDir
  rely_refl _ := rfl
  rely_trans h h' := h'.trans h
  guarantee_refl _ _ h := h

/-- The calls of a first run past its check. -/
def IsStep : FileCall String Bytes → Prop
  | .perform _ => True
  | _ => False

section

variable {ε : Type} {errors : IdentityErrors ε} {dataDir : String} {fresh : SigningKey}
  {disk disk' : HostDisk}

/-- A call that fails returns no key. -/
theorem Returns.error {e : ε} : Returns dataDir (.error e) disk := by
  intro key h
  simp at h

/-- The key stays the file's while the file is pinned. -/
theorem Returns.pinned {result : Except ε SigningKey} (h : Returns dataDir result disk)
    (hPinned : Pinned dataDir disk disk') : Returns dataDir result disk' :=
  fun key hKey => hPinned key.bytes (h key hKey)

/-- Loading returns what the file holds. -/
theorem load_sat :
    Program.Sat Mount.whole.exec (readerTerms dataDir) (Returns dataDir)
      (load errors dataDir).run disk := by
  unfold load
  refine Program.Sat.andThen
    (Q := fun r s => ∀ bytes, r = .ok bytes → s.content? (identityPath dataDir) = some bytes)
    ?_ ?_ (fun _ _ => Returns.error)
  · refine Program.Sat.read (fun _ _ _ h => by simp at h) ?_
    intro before later content _ _ hContent hLater bytes hBytes
    obtain rfl := Except.ok.inj hBytes
    exact hLater content hContent
  intro bytes s hRead
  have hBytes : s.content? (identityPath dataDir) = some bytes := hRead bytes rfl
  split
  · -- 32 bytes are a key, anything else is refused
    intro later hLater key hKey
    obtain rfl := Except.ok.inj hKey
    exact hLater bytes hBytes
  · exact fun _ _ => Returns.error

/-- Undisturbed, a first run puts its key where there was none. -/
theorem generate_sat (hNone : disk.content? (identityPath dataDir) = none) :
    Program.Sat Mount.whole.exec (writerTerms dataDir) (Returns dataDir)
      (generate errors dataDir fresh).run disk := by
  have hFree : ∀ {before after : HostDisk}, before.content? (identityPath dataDir) = none →
      (writerTerms dataDir).guarantee before after := by
    intro before after hBefore bytes hBytes
    simp [hBefore] at hBytes
  unfold generate
  refine Program.Sat.andThen
    (Q := fun r s => r = .ok () → s.content? (identityPath dataDir) = none)
    ?_ ?_ (fun _ _ => Returns.error)
  · -- creating the directory touches no file
    refine Program.Sat.perform (fun _ _ h => by simp at h) ?_
    rintro before after rfl - hApply
    refine ⟨hFree hNone, ?_⟩
    rintro later rfl -
    rw [Disk.content?_createDirAll hApply]
    exact hNone
  rintro ⟨⟩ s hReady
  refine Program.Sat.andThen
    (Q := fun r s => r = .ok () → s.content? (identityPath dataDir) = some fresh.bytes)
    ?_ ?_ (fun _ _ => Returns.error)
  · refine Program.Sat.adapt ?_
    -- The temporary holds the fresh key from the write on; the file is still missing.
    have hOther : identityPath dataDir ≠ tmpPath (identityPath dataDir) := (tmpPath_ne _).symm
    refine writeAtomicMode_sat
      (A := fun d => d.content? (identityPath dataDir) = none ∧
        d.content? (tmpPath (identityPath dataDir)) = some fresh.bytes)
      (B := fun d => d.content? (identityPath dataDir) = none ∧
        d.content? (tmpPath (identityPath dataDir)) = some fresh.bytes)
      (fun _ _ h => by simp [Except.mapError] at h) (fun _ _ h hSame => hSame ▸ h)
      (fun _ _ h hSame => hSame ▸ h) ?_ ?_ ?_
    · rintro before after rfl - hApply
      refine ⟨hFree (hReady rfl), ?_⟩
      show after.content? _ = none ∧ after.content? _ = _
      rw [Disk.content?_write hApply, Function.update_of_ne hOther, Function.update_self]
      exact ⟨hReady rfl, rfl⟩
    · rintro before after ⟨hBefore, hTmp⟩ - hApply
      refine ⟨hFree hBefore, ?_⟩
      show after.content? _ = none ∧ after.content? _ = _
      rw [Disk.content?_setMode hApply]
      exact ⟨hBefore, hTmp⟩
    · rintro before after ⟨hBefore, hTmp⟩ - hApply
      -- the rename puts the temporary's bytes in the file
      obtain ⟨bytes, hBytes, hContents⟩ := Disk.content?_rename hApply
      refine ⟨hFree hBefore, ?_⟩
      rintro later rfl -
      show later.content? _ = _
      rw [hContents, Function.update_self]
      exact hBytes.symm.trans hTmp
  rintro ⟨⟩ s' hWritten
  refine Program.Sat.done ?_
  rintro later rfl key hKey
  obtain rfl := Except.ok.inj hKey
  exact hWritten rfl

/-- Past its check a first run only writes. -/
theorem generate_only : Program.Only IsStep (generate errors dataDir fresh).run := by
  refine Program.Only.andThen ⟨trivial, fun _ => trivial⟩ fun _ => ?_
  refine Program.Only.andThen ?_ fun _ => trivial
  exact Program.Only.map (writeAtomicMode_only trivial trivial trivial)

end

end Sovra.Cosigner
