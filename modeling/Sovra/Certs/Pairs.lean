import Sovra.Certs.Provision
import Sovra.Lib.Guard

/-!
# Sovra — provisioned pairs stay pairs

One directory, one call after the other, each call file-system step by step: it
may die between two steps, and the operator may delete any file at any time. Does
a call ever change a file it found, and does a certificate ever stand beside a key
it is not for, or under a CA that did not issue it?

* `place_sat`          — a file put in place by `write_atomic`, in terms of what
  the directory contains.
* `ensureCa_sat`, `ensureLeaf_sat`, `generateCsr_sat`, `sign_sat` — the four calls.
* `provisioning_intact` — nothing found is changed and every pair matches, if no
  write meets a file of its name and no key is made where its certificate is.
* `leftover_certificate` — `generate_csr` makes a key beside an old certificate.
-/

namespace Sovra.Certs

open Lib State

/-- What files contain. -/
abbrev Contents := HostPath → Option Bytes

/-- A call on the directory, with the key it would draw. -/
inductive Verb (K : Type)
  | ensureCa (fresh : K)
  | ensureLeaf (stem commonName : String) (sans : List String) (fresh : K)
  | generateCsr (stem commonName : String) (sans : List String) (fresh : K)
  | sign (csr : HostPath) (out : Option HostPath) (fresh : K)

/-- A call in progress; it may return the CA. -/
abbrev Run (K : Type) := Program (FileCall String Bytes) FileCall.Reply (Option (Ca K))

/-- The disk, and the files the last call found, less what was deleted since. -/
structure Scene where
  disk : HostDisk
  before : HostDisk

/-- A directory with a call under way, and the CA the last `ensure_ca` returned:
what the next leaf is issued with. -/
structure Session (K : Type) where
  scene : Scene
  running : Option (Verb K × Run K)
  ca : Option (Ca K)

/-- What happens to a directory: a call starts, goes on by one file operation or is
cut off, or a file is deleted by hand. -/
inductive Incident (K : Type)
  | call (verb : Verb K)
  | step
  | crash
  | delete (path : HostPath)

/-- The calls work on the disk of the scene; what was there when they began stays as
it was. -/
def mount : Mount Scene String Bytes :=
  ⟨Scene.disk, fun s disk => { s with disk }, fun _ => rfl⟩

/-- What the files hold now. -/
def Scene.contents (s : Scene) : Contents := s.disk.content?

/-- A file is deleted by hand: from now on no call answers for it. -/
def Scene.remove (s : Scene) (path : HostPath) : Scene := ⟨s.disk.remove path, s.before.remove path⟩

/-- No call has been made. -/
def Session.start {K : Type} (disk : HostDisk) : Session K := ⟨⟨disk, disk⟩, none, none⟩

section

variable {K : Type} (R : Rcgen K) (dir : String)

/-- The steps of a call; `ensure_leaf` takes the CA that was just returned. -/
def runOf (ca : Option (Ca K)) : Verb K → Option (Run K)
  | .ensureCa fresh => some ((ensureCa R dir fresh).run.bind fun r => .done r.toOption)
  | .ensureLeaf stem commonName sans fresh => ca.map fun ca =>
    (ensureLeaf R dir stem commonName sans ca fresh).run.bind fun _ => .done (some ca)
  | .generateCsr stem commonName sans fresh =>
    some ((generateCsr R dir stem commonName sans fresh).run.bind fun _ => .done none)
  | .sign csr out fresh => some ((sign R dir csr out fresh).run.bind fun _ => .done none)

/-- One incident. A call starts only when the one before has ended: the commands run
one after another. -/
def Session.step (w : Session K) : Incident K → Option (Session K)
  | .call verb =>
    if w.running.isNone then
      (runOf R dir w.ca verb).map fun p =>
        { w with scene := ⟨w.scene.disk, w.scene.disk⟩, running := some (verb, p) }
    else none
  | .step =>
    match w.running with
    | none => none
    | some (_, .done ca) => some { w with running := none, ca }
    | some (verb, .call c next) =>
      some { w with
        scene := (mount.exec w.scene c).1
        running := some (verb, next (mount.exec w.scene c).2) }
  | .crash => some { w with running := none, ca := none }
  | .delete path => some { w with scene := w.scene.remove path }

/-- A directory's life as a transition system. -/
def provisioning : Machine (Session K) (Incident K) := ⟨Session.step R dir⟩

-- ---------------------------------------------------------------------------
-- Pairs
-- ---------------------------------------------------------------------------

/-- The certificate is for the key, and the CA in the directory, if any, issued it. -/
def Certifies (c : Contents) (certPem keyPem : Bytes) : Prop :=
  ∃ cert key, R.certFromPem certPem = .ok cert ∧ R.keyFromPem keyPem = .ok key ∧
    cert.subject = key ∧ ∀ caPem, c ⟨dir, caCertFile⟩ = some caPem →
      ∃ root, R.certFromPem caPem = .ok root ∧ cert.issuer = root.subject

/-- Whatever stands as a pair is one. -/
def Matched (c : Contents) : Prop :=
  ∀ stem certPem keyPem, c ⟨dir, certFile stem⟩ = some certPem →
    c ⟨dir, keyFile stem⟩ = some keyPem → Certifies R dir c certPem keyPem

/-- The claim about a state: what the call found and nobody deleted holds what it
held, and pairs match. -/
structure Intact (s : Scene) : Prop where
  /-- The last call changed no file it found. -/
  additive : ∀ path bytes, s.before.content? path = some bytes → s.contents path = some bytes
  matched : Matched R dir s.contents

/-- The output of `certs sign` is free for it: a certificate's stem is not the
CA's, and its key is absent or that of the request in the CSR file the call found;
what is named like a key has no certificate beside it. -/
structure SignFits (s : Scene) (csr path : HostPath) : Prop where
  cert : ∀ stem, path = ⟨dir, certFile stem⟩ → stem ≠ "ca" ∧
    ∀ keyPem, s.contents ⟨dir, keyFile stem⟩ = some keyPem →
      ∃ csrPem request, s.before.content? csr = some csrPem ∧
        R.csrFromPem csrPem = .ok request ∧ R.keyFromPem keyPem = .ok request.key
  key : ∀ stem, path = ⟨dir, keyFile stem⟩ → s.contents ⟨dir, certFile stem⟩ = none

/-- A write meets no file of its name; no key is made where its certificate, or
the temporary of one, is left. -/
def ClearWrite (c : Contents) (verb : Verb K) (path : HostPath) : Prop :=
  c path = none ∧
    match verb with
    | .ensureLeaf stem _ _ _ => stem ≠ "ca" ∧ c ⟨dir, tmpName (certFile stem)⟩ = none
    | .generateCsr stem _ _ _ =>
      c ⟨dir, certFile stem⟩ = none ∧ c ⟨dir, tmpName (certFile stem)⟩ = none
    | .ensureCa _ | .sign _ _ _ => True

/-- The write of its output by `certs sign` is one that fits. -/
def ClearOutput (s : Scene) (path : HostPath) : Verb K → Prop
  | .sign csr out _ => path = signOut csr out → SignFits R dir s csr path
  | .ensureCa _ | .ensureLeaf _ _ _ _ | .generateCsr _ _ _ _ => True

/-- What a call is about to do is clear in the state before. -/
def ClearCall (s : Scene) (verb : Verb K) : FileCall String Bytes → Prop
  | .perform (.write path _) => ClearWrite dir s.contents verb path ∧ ClearOutput R dir s path verb
  | _ => True

/-- The next step of the call is clear. -/
def Clear (w : Session K) : Incident K → Prop
  | .step => ∀ verb p c, w.running = some (verb, p) → p.next? = some c →
      ClearCall R dir w.scene verb c
  | _ => True

/-- rcgen is an ideal issuer: what it writes says which key and which CA it is of. -/
structure Rcgen.Ideal : Prop where
  key : ∀ key, R.keyFromPem (R.keyPem key) = .ok key
  cert : ∀ cert, ∃ read, R.certFromPem (R.certPem cert) = .ok read ∧
    read.subject = cert.subject ∧ read.issuer = cert.issuer

/-- The CA certificate in the directory, if any, is for `key`. -/
def CaOf (key : K) (c : Contents) : Prop :=
  ∀ caPem, c ⟨dir, caCertFile⟩ = some caPem →
    ∃ root, R.certFromPem caPem = .ok root ∧ root.subject = key

end

-- ---------------------------------------------------------------------------
-- Contents that shrink and grow
-- ---------------------------------------------------------------------------

/-- `c'` has only what `c` has. -/
def Within (c c' : Contents) : Prop := ∀ path bytes, c' path = some bytes → c path = some bytes

/-- A file that was not there has not appeared. -/
theorem Within.none {c c' : Contents} (h : Within c c') {path : HostPath} (hNone : c path = none) :
    c' path = none := by
  rcases hAt : c' path with _ | bytes
  · rfl
  · rw [h path bytes hAt] at hNone
    simp at hNone

/-- What a file may hold, if it is there. -/
theorem Within.only {c c' : Contents} (h : Within c c') {path : HostPath} {bytes : Bytes}
    (hOnly : ∀ b, c path = some b → b = bytes) (b : Bytes) (hAt : c' path = some b) : b = bytes :=
  hOnly b (h path b hAt)

section

variable {K : Type} {R : Rcgen K} {dir : String} {c c' : Contents} {key : K}

/-- A deletion does not give the CA another certificate. -/
theorem CaOf.within (h : CaOf R dir key c) (hWithin : Within c c') : CaOf R dir key c' :=
  fun caPem hAt => h caPem (hWithin _ caPem hAt)

/-- A deletion leaves the other pairs as they are. -/
theorem Matched.within (h : Matched R dir c) (hWithin : Within c c') : Matched R dir c' := by
  intro stem certPem keyPem hCert hKey
  obtain ⟨cert, key, hCertRead, hKeyRead, hSame, hIssued⟩ :=
    h stem certPem keyPem (hWithin _ _ hCert) (hWithin _ _ hKey)
  exact ⟨cert, key, hCertRead, hKeyRead, hSame, fun caPem hCa => hIssued caPem (hWithin _ _ hCa)⟩

/-- **One more file.** A certificate, not the CA's, that is right for the key
beside it; a key with no certificate beside it; or any other file. -/
theorem Matched.insert {path : HostPath} (h : Matched R dir c)
    (hOther : ∀ other, other ≠ path → ∀ bytes, c' other = some bytes → c other = some bytes)
    (hCert : ∀ stem, path = ⟨dir, certFile stem⟩ → stem ≠ "ca" ∧ ∀ certPem keyPem,
      c' path = some certPem → c' ⟨dir, keyFile stem⟩ = some keyPem →
      Certifies R dir c' certPem keyPem)
    (hKey : ∀ stem, path = ⟨dir, keyFile stem⟩ → c' ⟨dir, certFile stem⟩ = none) :
    Matched R dir c' := by
  intro stem certPem keyPem hCertAt hKeyAt
  by_cases hIsCert : path = ⟨dir, certFile stem⟩
  · exact (hCert stem hIsCert).2 certPem keyPem (hIsCert ▸ hCertAt) hKeyAt
  by_cases hIsKey : path = ⟨dir, keyFile stem⟩
  · simp [hKey stem hIsKey] at hCertAt
  obtain ⟨cert, key, hCertRead, hKeyRead, hSame, hIssued⟩ :=
    h stem certPem keyPem (hOther _ (Ne.symm hIsCert) _ hCertAt) (hOther _ (Ne.symm hIsKey) _ hKeyAt)
  refine ⟨cert, key, hCertRead, hKeyRead, hSame, ?_⟩
  intro caPem hCa
  -- The CA's certificate is not the new file.
  have hNotCa : (⟨dir, caCertFile⟩ : HostPath) ≠ path := by
    intro hPath
    exact (hCert "ca" (hPath.symm.trans (by rw [caCertFile_eq]))).1 rfl
  exact hIssued caPem (hOther _ hNotCa _ hCa)

end

-- ---------------------------------------------------------------------------
-- The terms of a call
-- ---------------------------------------------------------------------------

/-- Files were deleted, by name. -/
def Deleted (s s' : Scene) : Prop :=
  ∀ path, (s'.contents path = s.contents path ∧ s'.before.content? path = s.before.content? path) ∨
    (s'.contents path = none ∧ s'.before.content? path = none)

theorem Deleted.refl (s : Scene) : Deleted s s := fun _ => Or.inl ⟨rfl, rfl⟩

theorem Deleted.trans {s s' s'' : Scene} (h : Deleted s s') (h' : Deleted s' s'') :
    Deleted s s'' := by
  intro path
  rcases h' path with ⟨hAt', hBefore'⟩ | hGone
  · rw [hAt', hBefore']
    exact h path
  · exact Or.inr hGone

/-- What is there after deletions was there before. -/
theorem Deleted.within {s s' : Scene} (h : Deleted s s') : Within s.contents s'.contents := by
  intro path bytes hAt
  rcases h path with ⟨hSame, -⟩ | ⟨hGone, -⟩
  · rw [← hSame]
    exact hAt
  · simp [hGone] at hAt

/-- Nor do deletions add to what the call found. -/
theorem Deleted.before {s s' : Scene} (h : Deleted s s') {path : HostPath}
    (hNone : s.before.content? path = none) : s'.before.content? path = none := by
  rcases h path with ⟨-, hSame⟩ | ⟨-, hGone⟩
  · rw [hSame]
    exact hNone
  · exact hGone

/-- Deleting one file is a deletion. -/
theorem Deleted.remove (s : Scene) (path : HostPath) : Deleted s (s.remove path) := by
  intro other
  show ((s.disk.remove path).content? other = _ ∧ (s.before.remove path).content? other = _) ∨ _
  rw [Disk.content?_remove, Disk.content?_remove]
  by_cases hPath : other = path
  · right
    show (s.disk.remove path).content? other = none ∧ (s.before.remove path).content? other = none
    rw [Disk.content?_remove, Disk.content?_remove, hPath, Function.update_self,
      Function.update_self]
    exact ⟨rfl, rfl⟩
  · left
    rw [Function.update_of_ne hPath, Function.update_of_ne hPath]
    exact ⟨rfl, rfl⟩

section

variable {K : Type} {R : Rcgen K} {dir : String}

/-- Deletions keep a directory intact: a file that is gone is promised nothing. -/
theorem Intact.deleted {s s' : Scene} (h : Intact R dir s) (hDeleted : Deleted s s') :
    Intact R dir s' where
  additive path bytes hBefore := by
    rcases hDeleted path with ⟨hSame, hSameBefore⟩ | ⟨-, hGone⟩
    · rw [hSame]
      exact h.additive path bytes (hSameBefore ▸ hBefore)
    · simp [hGone] at hBefore
  matched := h.matched.within hDeleted.within

/-- The call works under a CA it was given. -/
def Verb.UsesCa {K : Type} : Verb K → Prop
  | .ensureLeaf _ _ _ _ => True
  | _ => False

/-- Files may be deleted at any time; steps that are clear keep what was there. -/
def pairTerms (R : Rcgen K) (dir : String) (verb : Verb K) :
    Terms Scene (FileCall String Bytes) where
  rely := Deleted
  pre s c := Intact R dir s ∧ ClearCall R dir s verb c
  guarantee s s' := s'.before = s.before ∧ (Intact R dir s → Intact R dir s') ∧
    (verb.UsesCa → ∀ bytes, s'.contents ⟨dir, caCertFile⟩ = some bytes →
      s.contents ⟨dir, caCertFile⟩ = some bytes)
  rely_refl := Deleted.refl
  rely_trans := Deleted.trans
  guarantee_refl _ := ⟨rfl, fun h => h, fun _ _ h => h⟩

/-- What `write_atomic` leaves when it put `bytes` at `path`. -/
def placed (c : Contents) (path : HostPath) (bytes : Bytes) : Contents :=
  Function.update (Function.update c (tmpPath path) none) path (some bytes)

section

variable {c : Contents} {path other : HostPath} {bytes b : Bytes}

/-- `write_atomic` changes nothing beside its own two files. -/
theorem placed_other (hNe : other ≠ path) (h : placed c path bytes other = some b) :
    c other = some b := by
  rw [placed, Function.update_of_ne hNe, Function.update_apply] at h
  split at h
  · simp at h
  · exact h

theorem placed_self : placed c path bytes path = some bytes := Function.update_self _ _ _

theorem placed_tmp : placed c path bytes (tmpPath path) = none := by
  rw [placed, Function.update_of_ne (tmpPath_ne path), Function.update_self]

/-- A write in progress shows in the temporary alone. -/
theorem update_other (hNe : other ≠ path) (h : Function.update c path (some bytes) other = some b) :
    c other = some b := by
  rw [Function.update_of_ne hNe] at h
  exact h

end

/-- A step answers for itself by what it makes of the directory: what was found and is
there stays, pairs still match, and the CA's certificate is not new. -/
theorem guaranteed {verb : Verb K} {t : Scene} {disk : HostDisk} {c' : Contents}
    (hContents : disk.content? = c')
    (hStays : ∀ other b, t.before.content? other = some b → t.contents other = some b →
      c' other = some b)
    (hMatched : Matched R dir t.contents → Matched R dir c')
    (hCa : verb.UsesCa → ∀ b, c' ⟨dir, caCertFile⟩ = some b →
      t.contents ⟨dir, caCertFile⟩ = some b) :
    (pairTerms R dir verb).guarantee t (mount.set t disk) := by
  subst hContents
  refine ⟨rfl, fun hIntact => ⟨?_, hMatched hIntact.matched⟩, hCa⟩
  intro other b hBefore
  exact hStays other b hBefore (hIntact.additive other b hBefore)

/-- Between its write and its rename a call knows `P'` of the directory, and the
temporary is its own: only `bytes` can be in it, and the call did not find it. -/
structure Writing (P' : Contents → Prop) (path : HostPath) (bytes : Bytes) (t : Scene) : Prop where
  facts : P' t.contents
  own : ∀ b, t.contents (tmpPath path) = some b → b = bytes
  new : t.before.content? (tmpPath path) = none

section

variable {verb : Verb K} {path : HostPath} {bytes : Bytes} {t t' : Scene} {disk : HostDisk}
  {P' : Contents → Prop}

/-- Deletions do not hurt, if they do not hurt what the call knows. -/
theorem Writing.deleted (h : Writing P' path bytes t)
    (hP' : ∀ c c', P' c → Within c c' → P' c') (hDeleted : Deleted t t') :
    Writing P' path bytes t' :=
  ⟨hP' _ _ h.facts hDeleted.within, hDeleted.within.only h.own, hDeleted.before h.new⟩

/-- The write of the temporary: a clear write meets nothing of its name. -/
theorem writing_write (hIntact : Intact R dir t) (hAbsent : t.contents (tmpPath path) = none)
    (hMatched : Matched R dir (Function.update t.contents (tmpPath path) (some bytes)))
    (hFacts : P' (Function.update t.contents (tmpPath path) (some bytes)))
    (hApply : t.disk.apply (.write (tmpPath path) bytes) = .ok disk) :
    (pairTerms R dir verb).guarantee t (mount.set t disk) ∧
      Writing P' path bytes (mount.set t disk) := by
  have hContents : disk.content? = Function.update t.contents (tmpPath path) (some bytes) :=
    Disk.content?_write hApply
  have hNew : t.before.content? (tmpPath path) = none := by
    rcases hBefore : t.before.content? (tmpPath path) with _ | old
    · rfl
    · exact absurd (hAbsent.symm.trans (hIntact.additive _ old hBefore)) (by simp)
  constructor
  · refine guaranteed hContents ?_ (fun _ => hMatched) ?_
    · intro other b hBefore hAt
      rw [Function.update_of_ne]
      · exact hAt
      · rintro rfl
        exact absurd (hNew.symm.trans hBefore) (by simp)
    · -- the temporary is not the CA's certificate
      intro _ b hAt
      refine update_other ?_ hAt
      intro hPath
      exact tmpName_ne_caCertFile path.name (congrArg FilePath.name hPath).symm
  · refine ⟨?_, ?_, hNew⟩
    · show P' disk.content?
      rw [hContents]
      exact hFacts
    · intro b hAt
      change disk.content? (tmpPath path) = some b at hAt
      rw [hContents, Function.update_self] at hAt
      exact (Option.some.inj hAt).symm

/-- Setting the temporary's mode changes no contents. -/
theorem Writing.setMode {mode : Mode} (h : Writing P' path bytes t)
    (hApply : t.disk.apply (.setMode (tmpPath path) mode) = .ok disk) :
    (pairTerms R dir verb).guarantee t (mount.set t disk) ∧
      Writing P' path bytes (mount.set t disk) := by
  have hContents : disk.content? = t.contents := Disk.content?_setMode hApply
  have hSame : (mount.set t disk).contents = t.contents := hContents
  refine ⟨guaranteed hContents (fun _ _ _ h => h) (fun h => h) (fun _ _ h => h), ?_, ?_, h.new⟩
  · rw [hSame]
    exact h.facts
  · rw [hSame]
    exact h.own

/-- The rename: the temporary takes the place of the file, where nothing is. -/
theorem Writing.rename (h : Writing P' path bytes t)
    (hFree : t.contents path = none)
    (hMatched : Matched R dir (placed t.contents path bytes))
    (hNotCa : verb.UsesCa → path ≠ ⟨dir, caCertFile⟩)
    (hApply : t.disk.apply (.rename (tmpPath path) path) = .ok disk) :
    (pairTerms R dir verb).guarantee t (mount.set t disk) ∧
      (mount.set t disk).contents = placed t.contents path bytes := by
  obtain ⟨b, hTmp, hContents⟩ := Disk.content?_rename hApply
  obtain rfl := h.own b hTmp
  have hContents : disk.content? = placed t.contents path b := hContents
  refine ⟨guaranteed hContents ?_ (fun _ => hMatched) ?_, hContents⟩
  · intro other old hBefore hAt
    rw [placed, Function.update_of_ne, Function.update_of_ne]
    · exact hAt
    · rintro rfl
      exact absurd (h.new.symm.trans hBefore) (by simp)
    · rintro rfl
      simp [hFree] at hAt
  · intro hUses old hAt
    exact placed_other (hNotCa hUses).symm hAt

end

/-- **A file put in place.** `P` holds of the directory before and `P'` once the
temporary is written, and deletions do not hurt either; no other file changes. -/
theorem place_sat {verb : Verb K} {path : HostPath} {bytes : Bytes} {mode : Mode} {s : Scene}
    (P P' : Contents → Prop) (hP : ∀ c c', P c → Within c c' → P c')
    (hP' : ∀ c c', P' c → Within c c' → P' c')
    (hWrite : ∀ c, P c → Matched R dir c → ClearWrite dir c verb (tmpPath path) →
      Matched R dir (Function.update c (tmpPath path) (some bytes)) ∧
        P' (Function.update c (tmpPath path) (some bytes)))
    (hRename : ∀ c, P' c → Matched R dir c →
      c path = none ∧ Matched R dir (placed c path bytes))
    (hNotCa : verb.UsesCa → ∀ c, P' c → path ≠ ⟨dir, caCertFile⟩)
    (hStart : P s.contents) :
    Program.Sat mount.exec (pairTerms R dir verb)
      (fun r s' => r = .ok () → ∃ c, P' c ∧ Within (placed c path bytes) s'.contents)
      (writeAtomicMode path bytes mode).run s := by
  -- from the write on the temporary is this call's own
  refine writeAtomicMode_sat (A := Writing P' path bytes) (B := Writing P' path bytes)
    (fun _ _ h => by simp at h) (fun _ _ h hDeleted => h.deleted hP' hDeleted)
    (fun _ _ h hDeleted => h.deleted hP' hDeleted) ?_ ?_ ?_
  · rintro t disk hDeleted ⟨hIntact, hClear, -⟩ hApply
    obtain ⟨hMatched, hFacts⟩ :=
      hWrite t.contents (hP _ _ hStart hDeleted.within) hIntact.matched hClear
    exact writing_write hIntact hClear.1 hMatched hFacts hApply
  · intro t disk hWriting _ hApply
    exact hWriting.setMode hApply
  · rintro t disk hWriting ⟨hIntact, -⟩ hApply
    obtain ⟨hFree, hMatched⟩ := hRename t.contents hWriting.facts hIntact.matched
    obtain ⟨hGuarantee, hContents⟩ :=
      hWriting.rename hFree hMatched (fun hUses => hNotCa hUses _ hWriting.facts) hApply
    refine ⟨hGuarantee, ?_⟩
    intro later hLater _
    refine ⟨t.contents, hWriting.facts, ?_⟩
    rw [← hContents]
    exact hLater.within

-- ---------------------------------------------------------------------------
-- Each file in its place
-- ---------------------------------------------------------------------------

/-- Files of different names in one directory are different files. -/
theorem path_ne {name name' : String} (h : name ≠ name') :
    (⟨dir, name⟩ : HostPath) ≠ ⟨dir, name'⟩ :=
  fun hPath => h (congrArg FilePath.name hPath)

/-- A key's temporary is itself named like a key: that of another stem. -/
theorem tmpPath_key (stem : String) :
    tmpPath ⟨dir, keyFile stem⟩ = ⟨dir, keyFile (tmpName stem)⟩ :=
  congrArg (FilePath.mk dir) (tmpName_keyFile stem)

/-- A certificate's temporary is the certificate of a stem of its own. -/
theorem tmpPath_cert (stem : String) :
    tmpPath ⟨dir, certFile stem⟩ = ⟨dir, certFile (tmpName stem)⟩ :=
  congrArg (FilePath.mk dir) (tmpName_certFile stem)

/-- A request's temporary is the request of a stem of its own. -/
theorem tmpPath_csr (stem : String) :
    tmpPath ⟨dir, csrFile stem⟩ = ⟨dir, csrFile (tmpName stem)⟩ :=
  congrArg (FilePath.mk dir) (tmpName_csrFile stem)

section

variable {c c' : Contents} {stem : String}

/-- A key may be put where no certificate of its stem is. -/
theorem Matched.insertKey (h : Matched R dir c)
    (hOther : ∀ other, other ≠ ⟨dir, keyFile stem⟩ → ∀ b, c' other = some b → c other = some b)
    (hNoCert : c ⟨dir, certFile stem⟩ = none) : Matched R dir c' := by
  refine h.insert hOther ?_ ?_
  · intro stem' hPath
    exact absurd (congrArg FilePath.name hPath) (keyFile_ne_certFile stem stem')
  · intro stem' hPath
    obtain rfl := keyFile_inj (congrArg FilePath.name hPath)
    rcases hAt : c' ⟨dir, certFile stem⟩ with _ | b
    · rfl
    · rw [hOther _ (path_ne (keyFile_ne_certFile stem stem).symm) b hAt] at hNoCert
      simp at hNoCert

/-- A certificate may be put beside a key it certifies. -/
theorem Matched.insertCert (h : Matched R dir c) (hNotCa : stem ≠ "ca")
    (hOther : ∀ other, other ≠ ⟨dir, certFile stem⟩ → ∀ b, c' other = some b → c other = some b)
    (hFits : ∀ certPem keyPem, c' ⟨dir, certFile stem⟩ = some certPem →
      c' ⟨dir, keyFile stem⟩ = some keyPem → Certifies R dir c' certPem keyPem) :
    Matched R dir c' := by
  refine h.insert hOther ?_ ?_
  · intro stem' hPath
    obtain rfl := certFile_inj (congrArg FilePath.name hPath)
    exact ⟨hNotCa, hFits⟩
  · intro stem' hPath
    exact absurd (congrArg FilePath.name hPath).symm (keyFile_ne_certFile stem' stem)

/-- A request is part of no pair. -/
theorem Matched.insertCsr (h : Matched R dir c)
    (hOther : ∀ other, other ≠ ⟨dir, csrFile stem⟩ → ∀ b, c' other = some b → c other = some b) :
    Matched R dir c' := by
  refine h.insert hOther ?_ ?_
  · intro stem' hPath
    exact absurd (congrArg FilePath.name hPath).symm (certFile_ne_csrFile stem' stem)
  · intro stem' hPath
    exact absurd (congrArg FilePath.name hPath).symm (keyFile_ne_csrFile stem' stem)

/-- A leaf just issued is right for its key under the CA that issued it. -/
theorem certifies_issued (hIdeal : R.Ideal) (cert : Cert K) (hCa : CaOf R dir cert.issuer c) :
    Certifies R dir c (R.certPem cert) (R.keyPem cert.subject) := by
  obtain ⟨read, hRead, hSubject, hIssuer⟩ := hIdeal.cert cert
  refine ⟨read, cert.subject, hRead, hIdeal.key _, hSubject, ?_⟩
  intro caPem hAt
  obtain ⟨root, hRoot, hSame⟩ := hCa caPem hAt
  exact ⟨root, hRoot, hIssuer.trans hSame.symm⟩

end

-- ---------------------------------------------------------------------------
-- The key of a pair
-- ---------------------------------------------------------------------------

/-- `F` is about files other than keys, and deletions do not hurt it. -/
def OffKeys (dir : String) (F : Contents → Prop) : Prop :=
  ∀ c c' : Contents, F c → (∀ name, (∀ stem, name ≠ keyFile stem) → ∀ b,
    c' ⟨dir, name⟩ = some b → c ⟨dir, name⟩ = some b) → F c'

/-- Such a fact survives deletions. -/
theorem OffKeys.within {F : Contents → Prop} (h : OffKeys dir F) {c c' : Contents} (hF : F c)
    (hWithin : Within c c') : F c' :=
  h c c' hF fun _ _ b hAt => hWithin _ b hAt

/-- What the key's `write_atomic` leaves of its two files. -/
structure KeyPlaced (dir stem : String) (keyPem : Bytes) (c : Contents) : Prop where
  noTmp : c (tmpPath ⟨dir, keyFile stem⟩) = none
  key : ∀ b, c ⟨dir, keyFile stem⟩ = some b → b = keyPem

/-- Deletions leave of the key what they find. -/
theorem KeyPlaced.within {stem : String} {keyPem : Bytes} {c c' : Contents}
    (h : KeyPlaced dir stem keyPem c) (hWithin : Within c c') : KeyPlaced dir stem keyPem c' :=
  ⟨hWithin.none h.noTmp, hWithin.only h.key⟩

/-- **A fresh key.** It goes where no certificate of its stem is, nor the temporary
of one; what is known of the other files (`F`, and `F'` once the write was clear)
stays. -/
theorem placeKey_sat {verb : Verb K} {stem : String} {keyPem : Bytes} {s : Scene}
    (F F' : Contents → Prop) (hF : OffKeys dir F) (hF' : OffKeys dir F')
    (hClear : ∀ c, F c → ClearWrite dir c verb (tmpPath ⟨dir, keyFile stem⟩) →
      F' c ∧ c ⟨dir, tmpName (certFile stem)⟩ = none)
    (hNoCert : ∀ c, F' c → c ⟨dir, certFile stem⟩ = none)
    (hStart : F s.contents) (hNoKey : s.contents ⟨dir, keyFile stem⟩ = none) :
    Program.Sat mount.exec (pairTerms R dir verb)
      (fun r t => r = .ok () → F' t.contents ∧ KeyPlaced dir stem keyPem t.contents)
      (writeAtomic ⟨dir, keyFile stem⟩ keyPem).run s := by
  refine (place_sat (fun c => F c ∧ c ⟨dir, keyFile stem⟩ = none)
    (fun c => F' c ∧ c ⟨dir, keyFile stem⟩ = none)
    (fun _ _ h hW => ⟨hF.within h.1 hW, hW.none h.2⟩)
    (fun _ _ h hW => ⟨hF'.within h.1 hW, hW.none h.2⟩) ?_ ?_ ?_ ⟨hStart, hNoKey⟩).weaken ?_
  · -- the write of the temporary: a key of the stem `tmpName stem`, so the condition is
    -- asked about the temporary of the certificate
    rintro c ⟨hFacts, hFree⟩ hMatched hMet
    obtain ⟨hFacts', hNoTmpCert⟩ := hClear c hFacts hMet
    rw [tmpName_certFile] at hNoTmpCert
    rw [tmpPath_key]
    refine ⟨hMatched.insertKey (fun _ hNe b hAt => update_other hNe hAt) hNoTmpCert, ?_, ?_⟩
    · refine hF' c _ hFacts' fun name hName b hAt => update_other (path_ne (hName _)) hAt
    · rw [Function.update_of_ne]
      · exact hFree
      · rw [← tmpPath_key]
        exact (tmpPath_ne _).symm
  · -- the rename puts the key where no certificate is
    rintro c ⟨hFacts, hFree⟩ hMatched
    exact ⟨hFree, hMatched.insertKey (fun _ hNe b hAt => placed_other hNe hAt) (hNoCert c hFacts)⟩
  · -- a key is not the CA's certificate
    rintro - c - hPath
    rw [caCertFile_eq] at hPath
    exact keyFile_ne_certFile _ _ (congrArg FilePath.name hPath)
  · -- what holds after the rename survives the deletions since
    intro r t hPlaced hOk
    obtain ⟨c, ⟨hFacts, -⟩, hWithin⟩ := hPlaced hOk
    have hAfter : F' (placed c ⟨dir, keyFile stem⟩ keyPem) :=
      hF' c _ hFacts fun name hName b hAt => placed_other (path_ne (hName stem)) hAt
    refine ⟨hF'.within hAfter hWithin, KeyPlaced.within ⟨placed_tmp, ?_⟩ hWithin⟩
    intro b hAt
    exact (Option.some.inj (placed_self.symm.trans hAt)).symm

/-- A certificate's name is no key's. -/
theorem certFile_ne_keyFile (stem : String) : ∀ stem', certFile stem ≠ keyFile stem' :=
  fun stem' h => keyFile_ne_certFile stem' stem h.symm

/-- The CA certificate's name is no key's. -/
theorem caCertFile_ne_keyFile : ∀ stem, caCertFile ≠ keyFile stem := by
  rw [caCertFile_eq]
  exact certFile_ne_keyFile "ca"

-- ---------------------------------------------------------------------------
-- Leaves
-- ---------------------------------------------------------------------------

/-- A leaf's certificate is missing, and the CA's is that of the CA at hand. -/
structure Unissued (R : Rcgen K) (dir stem : String) (ca : Ca K) (c : Contents) : Prop where
  noCert : c ⟨dir, certFile stem⟩ = none
  caOf : CaOf R dir ca.key c

/-- That a leaf is not issued yet is about certificates alone. -/
theorem Unissued.offKeys {stem : String} {ca : Ca K} : OffKeys dir (Unissued R dir stem ca) := by
  intro c c' h hOther
  refine ⟨?_, fun caPem hAt => h.caOf caPem (hOther _ caCertFile_ne_keyFile _ hAt)⟩
  rcases hAt : c' ⟨dir, certFile stem⟩ with _ | b
  · rfl
  · exact absurd (h.noCert.symm.trans (hOther _ (certFile_ne_keyFile stem) b hAt)) (by simp)

/-- It holds on while files are deleted. -/
theorem Unissued.within {stem : String} {ca : Ca K} {c c' : Contents}
    (h : Unissued R dir stem ca c) (hWithin : Within c c') : Unissued R dir stem ca c' :=
  Unissued.offKeys.within h hWithin

/-- A certificate's temporary stands alone once the key's is gone. -/
theorem Matched.tmpCert {stem : String} {keyPem certPem : Bytes} {c : Contents}
    (h : Matched R dir c) (hPlaced : KeyPlaced dir stem keyPem c) :
    Matched R dir (Function.update c (tmpPath ⟨dir, certFile stem⟩) (some certPem)) := by
  rw [tmpPath_cert]
  refine h.insertCert (tmpName_ne_ca stem) (fun _ hNe b hAt => update_other hNe hAt) ?_
  intro found keyPem' _ hKeyAt
  have hTmp := hPlaced.noTmp
  rw [tmpPath_key, update_other (path_ne (keyFile_ne_certFile _ _)) hKeyAt] at hTmp
  simp at hTmp

/-- Writing the certificate's temporary does not touch the key. -/
theorem KeyPlaced.tmpCert {stem : String} {keyPem certPem : Bytes} {c : Contents}
    (h : KeyPlaced dir stem keyPem c) :
    KeyPlaced dir stem keyPem
      (Function.update c (tmpPath ⟨dir, certFile stem⟩) (some certPem)) where
  noTmp := by
    rw [tmpPath_cert, tmpPath_key, Function.update_of_ne (path_ne (keyFile_ne_certFile _ _)),
      ← tmpPath_key]
    exact h.noTmp
  key b hAt := by
    rw [tmpPath_cert] at hAt
    exact h.key b (update_other (path_ne (keyFile_ne_certFile _ _)) hAt)

/-- **A leaf's certificate**, beside the key it was issued for. -/
theorem placeLeaf_sat (hIdeal : R.Ideal) {verb : Verb K} {stem : String} (cert : Cert K)
    {ca : Ca K} {s : Scene} (hIssuer : cert.issuer = ca.key) (hNotCa : stem ≠ "ca")
    (hStart : Unissued R dir stem ca s.contents)
    (hKey : KeyPlaced dir stem (R.keyPem cert.subject) s.contents) :
    Program.Sat mount.exec (pairTerms R dir verb) (fun _ _ => True)
      (writeAtomicPublic ⟨dir, certFile stem⟩ (R.certPem cert)).run s := by
  have hNotCaCert : (⟨dir, caCertFile⟩ : HostPath) ≠ ⟨dir, certFile stem⟩ := by
    rw [caCertFile_eq]
    exact path_ne fun hName => hNotCa (certFile_inj hName).symm
  refine (place_sat
    (fun c => Unissued R dir stem ca c ∧ KeyPlaced dir stem (R.keyPem cert.subject) c)
    (fun c => Unissued R dir stem ca c ∧ KeyPlaced dir stem (R.keyPem cert.subject) c)
    (fun _ _ h hW => ⟨h.1.within hW, h.2.within hW⟩)
    (fun _ _ h hW => ⟨h.1.within hW, h.2.within hW⟩) ?_ ?_ ?_ ⟨hStart, hKey⟩).weaken
    fun _ _ _ => trivial
  · -- the temporary stands alone: the key's own temporary is gone
    rintro c ⟨hUnissued, hPlaced⟩ hMatched -
    refine ⟨hMatched.tmpCert hPlaced, ⟨?_, ?_⟩, hPlaced.tmpCert⟩
    · rw [Function.update_of_ne (tmpPath_ne _).symm]
      exact hUnissued.noCert
    · intro caPem hAt
      refine hUnissued.caOf caPem (update_other ?_ hAt)
      rw [tmpPath_cert, caCertFile_eq]
      exact path_ne fun hName => tmpName_ne_ca stem (certFile_inj hName).symm
  · -- the rename puts the certificate beside the key it was issued for
    rintro c ⟨hUnissued, hPlaced⟩ hMatched
    refine ⟨hUnissued.noCert,
      hMatched.insertCert hNotCa (fun _ hNe b hAt => placed_other hNe hAt) ?_⟩
    intro certPem keyPem hCertAt hKeyAt
    obtain rfl := Option.some.inj (placed_self.symm.trans hCertAt)
    obtain rfl := hPlaced.key keyPem (placed_other (path_ne (keyFile_ne_certFile _ _)) hKeyAt)
    refine certifies_issued hIdeal cert ?_
    rw [hIssuer]
    intro caPem hAt
    exact hUnissued.caOf caPem (placed_other hNotCaCert hAt)
  · rintro - c -
    exact hNotCaCert.symm

/-- **A new leaf.** Where neither of its files is, the key goes first and the
certificate for it second. -/
theorem mintLeaf_sat (hIdeal : R.Ideal) {stem commonName cn : String} {sans sans' : List String}
    {ca : Ca K} {fresh fresh' : K} {s : Scene} (hStart : Unissued R dir stem ca s.contents)
    (hNoKey : s.contents ⟨dir, keyFile stem⟩ = none) :
    Program.Sat mount.exec (pairTerms R dir (.ensureLeaf stem cn sans' fresh')) (fun _ _ => True)
      (mintLeaf R dir stem commonName sans ca fresh).run s := by
  unfold mintLeaf
  refine Program.Sat.andThen (Q := fun _ t => Unissued R dir stem ca t.contents ∧
    t.contents ⟨dir, keyFile stem⟩ = none) ?_ ?_ (fun _ _ => trivial)
  · -- issuing the certificate takes no file
    exact Program.Sat.liftExcept fun later hDeleted =>
      ⟨hStart.within hDeleted.within, hDeleted.within.none hNoKey⟩
  rintro ⟨⟩ s ⟨hUnissued, hFree⟩
  unfold writePair
  refine Program.Sat.andThen (Q := fun r t => r = .ok () →
    (stem ≠ "ca" ∧ Unissued R dir stem ca t.contents) ∧
      KeyPlaced dir stem (R.keyPem fresh) t.contents) ?_ ?_ (fun _ _ => trivial)
  · -- the key, on the condition of the first write
    refine Program.Sat.adapt ((placeKey_sat (Unissued R dir stem ca)
      (fun c => stem ≠ "ca" ∧ Unissued R dir stem ca c) Unissued.offKeys
      (fun c c' h hOther => ⟨h.1, Unissued.offKeys c c' h.2 hOther⟩) ?_ (fun c h => h.2.noCert)
      hUnissued hFree).weaken ?_)
    · rintro c hC ⟨-, hNotCa, hNoTmpCert⟩
      exact ⟨⟨hNotCa, hC⟩, hNoTmpCert⟩
    · intro r t hPlaced hOk
      exact hPlaced (mapError_eq_ok.mp hOk)
  rintro ⟨⟩ s hKey
  -- and the certificate, on what the key's write left
  obtain ⟨⟨hNotCa, hUnissued⟩, hPlaced⟩ := hKey rfl
  exact Program.Sat.adapt ((placeLeaf_sat hIdeal (leafCert commonName sans ca fresh) rfl
    hNotCa hUnissued hPlaced).weaken fun _ _ _ => trivial)

-- ---------------------------------------------------------------------------
-- Requests
-- ---------------------------------------------------------------------------

/-- That a file other than a key is missing is no fact about keys. -/
theorem offKeys_none {name : String} (hName : ∀ stem, name ≠ keyFile stem) :
    OffKeys dir fun c => c ⟨dir, name⟩ = none := by
  intro c c' hNone hOther
  rcases hAt : c' ⟨dir, name⟩ with _ | b
  · rfl
  · exact absurd (hNone.symm.trans (hOther name hName b hAt)) (by simp)

/-- A request is no key. -/
theorem csrFile_ne_keyFile (stem : String) : ∀ stem', csrFile stem ≠ keyFile stem' :=
  fun stem' h => keyFile_ne_csrFile stem' stem h.symm

/-- **A new request.** Its key goes where the condition says no certificate is; the
request itself is part of no pair. -/
theorem mintCsr_sat {stem commonName cn : String} {sans sans' : List String} {fresh fresh' : K}
    {s : Scene} (hNoCsr : s.contents ⟨dir, csrFile stem⟩ = none)
    (hNoKey : s.contents ⟨dir, keyFile stem⟩ = none) :
    Program.Sat mount.exec (pairTerms R dir (.generateCsr stem cn sans' fresh')) (fun _ _ => True)
      (mintCsr R dir stem commonName sans fresh).run s := by
  unfold mintCsr
  refine Program.Sat.andThen (Q := fun _ t => t.contents ⟨dir, csrFile stem⟩ = none ∧
    t.contents ⟨dir, keyFile stem⟩ = none) ?_ ?_ (fun _ _ => trivial)
  · -- making the request takes no file
    exact Program.Sat.liftExcept fun later hDeleted =>
      ⟨hDeleted.within.none hNoCsr, hDeleted.within.none hNoKey⟩
  rintro ⟨⟩ s ⟨hNoCsr, hNoKey⟩
  unfold writePair
  refine Program.Sat.andThen
    (Q := fun r t => r = .ok () → t.contents ⟨dir, csrFile stem⟩ = none)
    ?_ ?_ (fun _ _ => trivial)
  · -- here the condition is what the code does not check: no certificate of the stem
    refine Program.Sat.adapt ((placeKey_sat (fun c => c ⟨dir, csrFile stem⟩ = none)
      (fun c => c ⟨dir, csrFile stem⟩ = none ∧ c ⟨dir, certFile stem⟩ = none)
      (offKeys_none (csrFile_ne_keyFile stem)) ?_ ?_ (fun c h => h.2) hNoCsr hNoKey).weaken ?_)
    · intro c c' h hOther
      exact ⟨offKeys_none (csrFile_ne_keyFile stem) c c' h.1 hOther,
        offKeys_none (certFile_ne_keyFile stem) c c' h.2 hOther⟩
    · rintro c hC ⟨-, hNoCert, hNoTmpCert⟩
      exact ⟨⟨hC, hNoCert⟩, hNoTmpCert⟩
    · intro r t hPlaced hOk
      exact (hPlaced (mapError_eq_ok.mp hOk)).1.1
  rintro ⟨⟩ s hStill
  -- the request's own write needs only that it is new
  refine Program.Sat.adapt ((place_sat (fun c => c ⟨dir, csrFile stem⟩ = none)
    (fun c => c ⟨dir, csrFile stem⟩ = none) (fun _ _ h hW => hW.none h)
    (fun _ _ h hW => hW.none h) ?_ ?_ ?_ (hStill rfl)).weaken fun _ _ _ => trivial)
  · rintro c hC hMatched -
    refine ⟨?_, ?_⟩
    · rw [tmpPath_csr]
      exact hMatched.insertCsr fun _ hNe b hAt => update_other hNe hAt
    · rw [Function.update_of_ne (tmpPath_ne _).symm]
      exact hC
  · intro c hC hMatched
    exact ⟨hC, hMatched.insertCsr fun _ hNe b hAt => placed_other hNe hAt⟩
  · exact fun hUses => hUses.elim

-- ---------------------------------------------------------------------------
-- The CA
-- ---------------------------------------------------------------------------

/-- There is no certificate in the directory, the CA's included. -/
def NoCerts (dir : String) (c : Contents) : Prop := ∀ stem, c ⟨dir, certFile stem⟩ = none

/-- `NoCerts` is about certificates alone, so it is off the keys. -/
theorem NoCerts.offKeys : OffKeys dir (NoCerts dir) :=
  fun c c' h hOther stem => offKeys_none (certFile_ne_keyFile stem) c c' (h stem) hOther

/-- **The CA's certificate**, where no other is. -/
theorem placeCa_sat (hIdeal : R.Ideal) {verb : Verb K} (hVerb : ¬ verb.UsesCa) {fresh : K}
    {s : Scene} (hNone : NoCerts dir s.contents)
    (hKey : KeyPlaced dir "ca" (R.keyPem fresh) s.contents) :
    Program.Sat mount.exec (pairTerms R dir verb)
      (fun r t => r = .ok () → CaOf R dir fresh t.contents)
      (writeAtomicPublic ⟨dir, certFile "ca"⟩ (R.certPem (selfSigned fresh))).run s := by
  have hIssued : ∀ c, CaOf R dir fresh
      (placed c ⟨dir, certFile "ca"⟩ (R.certPem (selfSigned fresh))) := by
    intro c caPem hAt
    rw [caCertFile_eq] at hAt
    obtain rfl := Option.some.inj (placed_self.symm.trans hAt)
    obtain ⟨read, hRead, hSubject, -⟩ := hIdeal.cert (selfSigned fresh)
    exact ⟨read, hRead, hSubject⟩
  refine (place_sat (fun c => NoCerts dir c ∧ KeyPlaced dir "ca" (R.keyPem fresh) c)
    (fun c => (∀ stem, stem ≠ tmpName "ca" → c ⟨dir, certFile stem⟩ = none) ∧
      KeyPlaced dir "ca" (R.keyPem fresh) c)
    (fun _ _ h hW => ⟨fun stem => hW.none (h.1 stem), h.2.within hW⟩)
    (fun _ _ h hW => ⟨fun stem hNe => hW.none (h.1 stem hNe), h.2.within hW⟩)
    ?_ ?_ ?_ ⟨hNone, hKey⟩).weaken ?_
  · -- from here on the only certificate is the temporary
    rintro c ⟨hNoCerts, hPlaced⟩ hMatched -
    refine ⟨hMatched.tmpCert hPlaced, ?_, hPlaced.tmpCert⟩
    intro stem hNe
    rw [tmpPath_cert, Function.update_of_ne (path_ne fun hName => hNe (certFile_inj hName))]
    exact hNoCerts stem
  · rintro c ⟨hOthers, hPlaced⟩ -
    refine ⟨hOthers "ca" (tmpName_ne_ca "ca").symm, ?_⟩
    -- The only certificate left is the CA's own.
    intro stem certPem keyPem hCertAt hKeyAt
    by_cases hCa : stem = "ca"
    · subst hCa
      obtain rfl := Option.some.inj (placed_self.symm.trans hCertAt)
      obtain rfl := hPlaced.key keyPem (placed_other (path_ne (keyFile_ne_certFile _ _)) hKeyAt)
      exact certifies_issued hIdeal (selfSigned fresh) (hIssued c)
    · exfalso
      by_cases hTmp : stem = tmpName "ca"
      · rw [hTmp, ← tmpPath_cert, placed_tmp] at hCertAt
        simp at hCertAt
      · have hOld := placed_other (path_ne fun hName => hCa (certFile_inj hName)) hCertAt
        simp [hOthers stem hTmp] at hOld
  · exact fun hUses => absurd hUses hVerb
  · intro r t hPlaced hOk
    -- what was issued stays the directory's while it is there
    obtain ⟨c, -, hWithin⟩ := hPlaced hOk
    exact (hIssued c).within hWithin

/-- A listing without a leaf's file: there is no certificate but the CA's. -/
theorem noCerts_of_names {disk : HostDisk} (hNone : (disk.names dir).find? isLeafFile = none)
    (hNoCa : disk.content? ⟨dir, caCertFile⟩ = none) : NoCerts dir disk.content? := by
  intro stem
  by_cases hCa : stem = "ca"
  · rw [hCa, ← caCertFile_eq]
    exact hNoCa
  rw [Disk.content?_eq_none]
  rcases hFile : disk.file? ⟨dir, certFile stem⟩ with _ | file
  · rfl
  · have hMem : certFile stem ∈ disk.names dir := by
      rw [Disk.mem_names, hFile]
      rfl
    exact absurd (isLeafFile_certFile hCa) (List.find?_eq_none.mp hNone _ hMem)

/-- `NoCerts` survives deletions. -/
theorem NoCerts.within {c c' : Contents} (h : NoCerts dir c) (hWithin : Within c c') :
    NoCerts dir c' :=
  fun stem => hWithin.none (h stem)

/-- `any_leaf` finds no file of a leaf: with no certificate of the CA there is none
at all. -/
theorem anyLeaf_sat {verb : Verb K} {s : Scene} (hNoCert : s.contents ⟨dir, caCertFile⟩ = none)
    (hNoKey : s.contents ⟨dir, caKeyFile⟩ = none) :
    Program.Sat mount.exec (pairTerms R dir verb)
      (fun r t => r = .ok none → NoCerts dir t.contents ∧ t.contents ⟨dir, caKeyFile⟩ = none)
      (anyLeaf dir).run s := by
  unfold anyLeaf
  refine Program.Sat.andThen (Q := fun r t => ∀ names, r = .ok names →
    names.find? isLeafFile = none → NoCerts dir t.contents ∧ t.contents ⟨dir, caKeyFile⟩ = none)
    ?_ ?_ (fun _ _ h => by simp at h)
  · refine Program.Sat.readDir (fun _ _ _ h => by simp at h) ?_
    intro before later hBefore _ hLater names hNames hNone
    obtain rfl := Except.ok.inj hNames
    have hNoCerts : NoCerts dir before.contents :=
      noCerts_of_names hNone (hBefore.within.none hNoCert)
    exact ⟨hNoCerts.within hLater.within, hLater.within.none (hBefore.within.none hNoKey)⟩
  intro names s hListed
  refine Program.Sat.done ?_
  intro later hLater hFound
  have hNone : (names.find? isLeafFile).map (fun name => (⟨dir, name⟩ : HostPath)) = none :=
    Except.ok.inj hFound
  obtain ⟨hNoCerts, hNoKey⟩ := hListed names rfl (Option.map_eq_none_iff.mp hNone)
  exact ⟨hNoCerts.within hLater.within, hLater.within.none hNoKey⟩

/-- **A new CA**, in a directory without certificates: it is the directory's. -/
theorem mintCa_sat (hIdeal : R.Ideal) {verb : Verb K} (hVerb : ¬ verb.UsesCa) {fresh : K}
    {s : Scene} (hNoCert : s.contents ⟨dir, caCertFile⟩ = none)
    (hNoKey : s.contents ⟨dir, caKeyFile⟩ = none) :
    Program.Sat mount.exec (pairTerms R dir verb)
      (fun r t => ∀ ca, r = .ok ca → CaOf R dir ca.key t.contents) (mintCa R dir fresh).run s := by
  unfold mintCa
  refine Program.Sat.andThen (anyLeaf_sat hNoCert hNoKey) ?_ (fun _ _ _ h => by simp at h)
  rintro (_ | leaf) s hClean
  · -- no leaf was found: with the CA's own files missing there is no certificate at all
    obtain ⟨hNoCerts, hNoKey⟩ := hClean rfl
    have hPair : Program.Sat mount.exec (pairTerms R dir verb)
        (fun r t => r = .ok () → CaOf R dir fresh t.contents)
        (writePair ⟨dir, caKeyFile⟩ ⟨dir, caCertFile⟩ (R.keyPem fresh)
          (R.certPem (selfSigned fresh))).run s := by
      unfold writePair
      rw [caKeyFile_eq, caCertFile_eq]
      refine Program.Sat.andThen (Q := fun r t => r = .ok () →
        NoCerts dir t.contents ∧ KeyPlaced dir "ca" (R.keyPem fresh) t.contents)
        ?_ ?_ (fun _ _ h => by simp at h)
      · refine Program.Sat.adapt ((placeKey_sat (NoCerts dir) (NoCerts dir)
          NoCerts.offKeys NoCerts.offKeys ?_ (fun c h => h "ca") hNoCerts ?_).weaken ?_)
        · intro c hC _
          rw [tmpName_certFile]
          exact ⟨hC, hC (tmpName "ca")⟩
        · rw [← caKeyFile_eq]
          exact hNoKey
        · intro r t hPlaced hOk
          exact hPlaced (mapError_eq_ok.mp hOk)
      rintro ⟨⟩ s hPlaced
      obtain ⟨hNoCerts, hKey⟩ := hPlaced rfl
      refine Program.Sat.adapt ((placeCa_sat hIdeal hVerb hNoCerts hKey).weaken ?_)
      intro r t hIssued hOk
      exact hIssued (mapError_eq_ok.mp hOk)
    refine Program.Sat.andThen hPair ?_ (fun _ _ _ h => by simp at h)
    rintro ⟨⟩ s hIssued
    refine Program.Sat.done ?_
    intro later hLater ca hCa
    obtain rfl := Except.ok.inj hCa
    exact (hIssued rfl).within hLater.within
  · -- a leaf without a CA is refused
    exact Program.Sat.done fun _ _ _ h => by simp at h

/-- A CA that is loaded is the one whose certificate is there: they were a pair. -/
theorem loadCa_sat {verb : Verb K} {s : Scene} :
    Program.Sat mount.exec (pairTerms R dir verb)
      (fun r t => ∀ ca, r = .ok ca → CaOf R dir ca.key t.contents) (loadCa R dir).run s := by
  unfold loadCa readPem
  refine Program.Sat.andThen (Q := fun r t => ∀ keyPem, r = .ok keyPem →
    ∀ key, R.keyFromPem keyPem = .ok key → CaOf R dir key t.contents)
    ?_ ?_ (fun _ _ _ h => by simp at h)
  · -- the key is read first; at that moment it and the certificate match
    refine Program.Sat.read (fun _ _ _ h => by simp at h) ?_
    rintro before later keyPem - ⟨hIntact, -⟩ hKeyAt hLater found hFound key hKey
    obtain rfl := Except.ok.inj hFound
    refine CaOf.within ?_ hLater.within
    intro caPem hCertAt
    have hMatched := hIntact.matched "ca" caPem keyPem
    rw [← caCertFile_eq, ← caKeyFile_eq] at hMatched
    obtain ⟨cert, key', hRead, hKeyRead, hSame, -⟩ := hMatched hCertAt hKeyAt
    obtain rfl := Except.ok.inj (hKeyRead.symm.trans hKey)
    exact ⟨cert, hRead, hSame⟩
  intro keyPem s hCa
  -- parsing takes no file, and what follows may only delete
  refine Program.Sat.andThen (Q := fun r t => ∀ key, r = .ok key → CaOf R dir key t.contents)
    ?_ ?_ (fun _ _ _ h => by simp at h)
  · refine Program.Sat.liftExcept ?_
    intro later hLater key hKey
    exact (hCa keyPem rfl key (mapError_eq_ok.mp hKey)).within hLater.within
  intro key s hCa
  have hCa : CaOf R dir key s.contents := hCa key rfl
  refine Program.Sat.andThen (Q := fun r t => ∀ certPem, r = .ok certPem → CaOf R dir key t.contents)
    ?_ ?_ (fun _ _ _ h => by simp at h)
  · refine Program.Sat.read (fun _ _ _ h => by simp at h) ?_
    intro before later _ hBefore _ _ hLater _ _
    exact (hCa.within hBefore.within).within hLater.within
  intro certPem s hCa
  have hCa : CaOf R dir key s.contents := hCa certPem rfl
  refine Program.Sat.andThen (Q := fun _ t => CaOf R dir key t.contents)
    (Program.Sat.liftExcept fun later hLater => hCa.within hLater.within) ?_
    (fun _ _ _ h => by simp at h)
  intro cert s hCa
  refine Program.Sat.done ?_
  intro later hLater ca hOk
  obtain rfl := Except.ok.inj hOk
  exact hCa.within hLater.within

-- ---------------------------------------------------------------------------
-- The four calls
-- ---------------------------------------------------------------------------

/-- Looking for a file: one that is not found is not there, nor later. -/
theorem exists_sat {ε : Type} {verb : Verb K} {path : HostPath} {s : Scene} (F : Contents → Prop)
    (hF : ∀ c c', F c → Within c c' → F c') (hStart : F s.contents) :
    Program.Sat mount.exec (pairTerms R dir verb)
      (fun r t => ∀ found, r = .ok found → F t.contents ∧ (found = false → t.contents path = none))
      (Files.exists_ path : Files String Bytes ε Bool).run s := by
  refine Program.Sat.exists_ ?_
  intro before later hBefore _ hLater found hFound
  obtain rfl := Except.ok.inj hFound
  refine ⟨hF _ _ (hF _ _ hStart hBefore.within) hLater.within, ?_⟩
  intro hMissing
  refine hLater.within.none (Disk.content?_eq_none.mpr ?_)
  exact Option.isSome_eq_false_iff.mp hMissing |> Option.isNone_iff_eq_none.mp

/-- Creating the directory touches no file. -/
theorem createDirAll_sat {verb : Verb K} {s : Scene} {f : IoError → CertsError} :
    Program.Sat mount.exec (pairTerms R dir verb) (fun _ _ => True)
      (Files.perform (.createDirAll dir) f).run s := by
  refine Program.Sat.perform (fun _ _ => trivial) ?_
  intro before disk _ _ hApply
  have hSame : disk.content? = before.contents := Disk.content?_createDirAll hApply
  refine ⟨⟨rfl, fun hIntact => ⟨?_, ?_⟩, ?_⟩, fun _ _ => trivial⟩
  · intro path bytes hBefore
    show disk.content? path = some bytes
    rw [hSame]
    exact hIntact.additive path bytes hBefore
  · show Matched R dir disk.content?
    rw [hSame]
    exact hIntact.matched
  · intro _ bytes hAt
    rw [← hSame]
    exact hAt

/-- **`ensure_ca`**: both files are there and are read, neither is and both are
made, or the call is refused. -/
theorem ensureCa_sat (hIdeal : R.Ideal) {verb : Verb K} (hVerb : ¬ verb.UsesCa) {fresh : K}
    {s : Scene} :
    Program.Sat mount.exec (pairTerms R dir verb)
      (fun r t => ∀ ca, r = .ok ca → CaOf R dir ca.key t.contents)
      (ensureCa R dir fresh).run s := by
  unfold ensureCa
  refine Program.Sat.andThen createDirAll_sat ?_ (fun _ _ _ h => by simp at h)
  rintro ⟨⟩ s -
  refine Program.Sat.andThen (exists_sat (fun _ => True) (fun _ _ _ _ => trivial) trivial) ?_
    (fun _ _ _ h => by simp at h)
  intro certThere s hCert
  refine Program.Sat.andThen (exists_sat
    (fun c => certThere = false → c ⟨dir, caCertFile⟩ = none)
    (fun _ _ h hW hMissing => hW.none (h hMissing)) (hCert certThere rfl).2) ?_
    (fun _ _ _ h => by simp at h)
  intro keyThere s hKey
  obtain ⟨hNoCert, hNoKey⟩ := hKey keyThere rfl
  -- the four ways the pair can be found; half of it is refused
  rcases certThere with _ | _ <;> rcases keyThere with _ | _
  · exact mintCa_sat hIdeal hVerb (hNoCert rfl) (hNoKey rfl)
  · exact Program.Sat.done fun _ _ _ h => by simp at h
  · exact Program.Sat.done fun _ _ _ h => by simp at h
  · exact loadCa_sat

/-- **`ensure_leaf`** keeps its terms under the CA of the directory. -/
theorem ensureLeaf_sat (hIdeal : R.Ideal) {stem commonName cn : String} {sans sans' : List String}
    {ca : Ca K} {fresh fresh' : K} {s : Scene} (hCa : CaOf R dir ca.key s.contents) :
    Program.Sat mount.exec (pairTerms R dir (.ensureLeaf stem cn sans' fresh')) (fun _ _ => True)
      (ensureLeaf R dir stem commonName sans ca fresh).run s := by
  unfold ensureLeaf
  refine Program.Sat.andThen (exists_sat (CaOf R dir ca.key) (fun _ _ h hW => h.within hW) hCa) ?_
    (fun _ _ => trivial)
  intro certThere s hCert
  obtain ⟨hCa, hNoCert⟩ := hCert certThere rfl
  refine Program.Sat.andThen (exists_sat
    (fun c => CaOf R dir ca.key c ∧ (certThere = false → c ⟨dir, certFile stem⟩ = none))
    (fun _ _ h hW => ⟨h.1.within hW, fun hMissing => hW.none (h.2 hMissing)⟩) ⟨hCa, hNoCert⟩) ?_
    (fun _ _ => trivial)
  intro keyThere s hKey
  obtain ⟨⟨hCa, hNoCert⟩, hNoKey⟩ := hKey keyThere rfl
  -- only where both files are missing is anything written
  rcases certThere with _ | _ <;> rcases keyThere with _ | _
  · refine Program.Sat.andThen (mintLeaf_sat hIdeal ⟨hNoCert rfl, hCa⟩ (hNoKey rfl)) ?_
      (fun _ _ => trivial)
    exact fun _ _ _ => Program.Sat.done fun _ _ => trivial
  · exact Program.Sat.done fun _ _ => trivial
  · exact Program.Sat.done fun _ _ => trivial
  · exact Program.Sat.done fun _ _ => trivial

/-- **`generate_csr`** keeps them in whatever is left by the condition on its writes. -/
theorem generateCsr_sat {stem commonName cn : String} {sans sans' : List String} {fresh fresh' : K}
    {s : Scene} :
    Program.Sat mount.exec (pairTerms R dir (.generateCsr stem cn sans' fresh')) (fun _ _ => True)
      (generateCsr R dir stem commonName sans fresh).run s := by
  unfold generateCsr
  refine Program.Sat.andThen createDirAll_sat ?_ (fun _ _ => trivial)
  rintro ⟨⟩ s -
  refine Program.Sat.andThen (exists_sat (fun _ => True) (fun _ _ _ _ => trivial) trivial) ?_
    (fun _ _ => trivial)
  intro csrThere s hCsr
  refine Program.Sat.andThen (exists_sat
    (fun c => csrThere = false → c ⟨dir, csrFile stem⟩ = none)
    (fun _ _ h hW hMissing => hW.none (h hMissing)) (hCsr csrThere rfl).2) ?_ (fun _ _ => trivial)
  intro keyThere s hKey
  obtain ⟨hNoCsr, hNoKey⟩ := hKey keyThere rfl
  -- only where both files are missing is anything written; the certificate is not
  -- looked at
  rcases csrThere with _ | _ <;> rcases keyThere with _ | _
  · refine Program.Sat.andThen (mintCsr_sat (hNoCsr rfl) (hNoKey rfl)) ?_ (fun _ _ => trivial)
    exact fun _ _ _ => Program.Sat.done fun _ _ => trivial
  · exact Program.Sat.done fun _ _ => trivial
  · exact Program.Sat.done fun _ _ => trivial
  · exact Program.Sat.done fun _ _ => trivial

/-- What was found and is still there was found by the call, and nobody deleted it. -/
theorem Deleted.found {s s' : Scene} (h : Deleted s s') {path : HostPath} {bytes : Bytes}
    (hFound : s'.before.content? path = some bytes) :
    s.before.content? path = some bytes ∧ s'.contents path = s.contents path := by
  rcases h path with ⟨hSame, hSameBefore⟩ | ⟨-, hGone⟩
  · exact ⟨hSameBefore ▸ hFound, hSame⟩
  · rw [hGone] at hFound
    cases hFound

/-- The CSR file the call found, while it is there, holds this request. -/
def HoldsCsr (csr : HostPath) (csrPem : Bytes) (s : Scene) : Prop :=
  ∀ bytes, s.before.content? csr = some bytes → bytes = csrPem

/-- A CSR that is deleted is found no more. -/
theorem HoldsCsr.deleted {csr : HostPath} {csrPem : Bytes} {s s' : Scene}
    (h : HoldsCsr csr csrPem s) (hDeleted : Deleted s s') : HoldsCsr csr csrPem s' :=
  fun bytes hAt => h bytes (hDeleted.found hAt).1

/-- The last step of `certs sign`: a certificate for the request that was read. -/
theorem signOutput_sat (hIdeal : R.Ideal) {csr : HostPath} {out : Option HostPath} {fresh : K}
    {csrPem : Bytes} {request : Csr K} (hRequest : R.csrFromPem csrPem = .ok request) {ca : Ca K}
    {f : IoError → String} {s : Scene} (hCa : CaOf R dir ca.key s.contents)
    (hHolds : HoldsCsr csr csrPem s) :
    Program.Sat mount.exec (pairTerms R dir (.sign csr out fresh)) (fun _ _ => True)
      (Files.perform (.write (signOut csr out) (R.certPem (signedCert ca request))) f).run s := by
  refine Program.Sat.perform (fun _ _ => trivial) ?_
  rintro before disk hBefore ⟨hIntact, ⟨hAbsent, -⟩, hOutput⟩ hApply
  have hFits : SignFits R dir before csr (signOut csr out) := hOutput rfl
  have hContents : disk.content? = Function.update before.contents (signOut csr out)
      (some (R.certPem (signedCert ca request))) := Disk.content?_write hApply
  refine ⟨guaranteed hContents ?_ ?_ fun hUses => hUses.elim, fun _ _ => trivial⟩
  · -- nothing was there
    intro path bytes _ hAt
    rw [Function.update_of_ne]
    · exact hAt
    · rintro rfl
      exact absurd (hAbsent.symm.trans hAt) (by simp)
  · intro hMatched
    refine hMatched.insert (fun _ hNe b hAt => update_other hNe hAt) ?_ ?_
    · intro stem hPath
      obtain ⟨hNotCa, hKeyFits⟩ := hFits.cert stem hPath
      refine ⟨hNotCa, ?_⟩
      intro certPem keyPem hCertAt hKeyAt
      rw [Function.update_self] at hCertAt
      obtain rfl := Option.some.inj hCertAt
      rw [hPath] at hKeyAt
      -- the CSR file is the one that was read, so the key beside is the request's
      obtain ⟨csrPem', request', hCsr, hRequest', hKeyRead⟩ :=
        hKeyFits keyPem (update_other (path_ne (keyFile_ne_certFile _ _)) hKeyAt)
      obtain rfl := hHolds.deleted hBefore csrPem' hCsr
      obtain rfl := Except.ok.inj (hRequest.symm.trans hRequest')
      obtain ⟨cert, hRead, hSubject, hIssuer⟩ := hIdeal.cert (signedCert ca request)
      refine ⟨cert, request.key, hRead, hKeyRead, hSubject, ?_⟩
      intro caPem hCaAt
      have hNotPath : (⟨dir, caCertFile⟩ : HostPath) ≠ signOut csr out := by
        rw [hPath, caCertFile_eq]
        exact path_ne fun hName => hNotCa (certFile_inj hName).symm
      obtain ⟨root, hRoot, hRootKey⟩ :=
        hCa.within hBefore.within caPem (update_other hNotPath hCaAt)
      exact ⟨root, hRoot, hIssuer.trans hRootKey.symm⟩
    · intro stem hPath
      rw [hPath, Function.update_of_ne (path_ne (keyFile_ne_certFile _ _).symm)]
      exact hFits.key stem hPath

/-- `certs sign` writes where nothing is, and what fits the key there. -/
theorem sign_sat (hIdeal : R.Ideal) {csr : HostPath} {out : Option HostPath} {fresh fresh' : K}
    {s : Scene} (hFound : s.before.content? csr = s.contents csr) :
    Program.Sat mount.exec (pairTerms R dir (.sign csr out fresh')) (fun _ _ => True)
      (sign R dir csr out fresh).run s := by
  unfold sign
  -- what is read is what the call found
  refine Program.Sat.andThen (Q := fun r t => ∀ csrPem, r = .ok csrPem → HoldsCsr csr csrPem t)
    ?_ ?_ (fun _ _ => trivial)
  · refine Program.Sat.read (fun e t csrPem h => by cases h) ?_
    intro before later content hBefore _ hContent hLater csrPem hRead bytes hAt
    obtain rfl := Except.ok.inj hRead
    obtain ⟨hAt, -⟩ := hLater.found hAt
    obtain ⟨hAt, hSame⟩ := hBefore.found hAt
    have hContent : before.contents csr = some content := hContent
    rw [hSame, ← hFound, hAt] at hContent
    exact Option.some.inj hContent
  intro csrPem s hHolds
  refine Program.Sat.andThen (Q := fun _ t => HoldsCsr csr csrPem t) ?_ ?_ (fun _ _ => trivial)
  · exact Program.Sat.liftExcept fun _ hLater => (hHolds csrPem rfl).deleted hLater
  intro _ s hHolds
  refine Program.Sat.andThen (Q := fun r t => (∀ ca, r = .ok ca → CaOf R dir ca.key t.contents) ∧
    HoldsCsr csr csrPem t) ?_ ?_ (fun _ _ => trivial)
  · -- the CA is loaded or made, and the CSR stays as it was
    have hVerb : ¬ (Verb.sign csr out fresh' : Verb K).UsesCa := fun hUses => hUses
    refine (Program.Sat.adapt ((ensureCa_sat hIdeal hVerb).weaken ?_)).frame hHolds ?_ ?_
    · intro r t hCa ca hOk
      exact hCa ca (mapError_eq_ok.mp hOk)
    · exact fun t t' hOwn hDeleted => hOwn.deleted hDeleted
    · rintro t t' hOwn ⟨hBefore, -, -⟩ bytes hAt
      exact hOwn bytes (hBefore ▸ hAt)
  rintro ca s ⟨hCa, hHolds⟩
  have hCa : CaOf R dir ca.key s.contents := hCa ca rfl
  refine Program.Sat.andThen (Q := fun r t => CaOf R dir ca.key t.contents ∧
    HoldsCsr csr csrPem t ∧ ∀ certPem, r = .ok certPem → ∃ request,
      R.csrFromPem csrPem = .ok request ∧ certPem = R.certPem (signedCert ca request))
    ?_ ?_ (fun _ _ => trivial)
  · -- the certificate is for the request that was read
    refine Program.Sat.liftExcept ?_
    intro later hLater
    refine ⟨hCa.within hLater.within, hHolds.deleted hLater, ?_⟩
    intro certPem hSigned
    obtain ⟨request, hRequest, hPem⟩ := bind_eq_ok.mp (mapError_eq_ok.mp hSigned)
    exact ⟨request, mapError_eq_ok.mp hRequest, (pure_eq_ok.mp hPem).symm⟩
  rintro certPem s ⟨hCa, hHolds, hSigned⟩
  obtain ⟨request, hRequest, rfl⟩ := hSigned certPem rfl
  exact signOutput_sat hIdeal hRequest hCa hHolds

-- ---------------------------------------------------------------------------
-- Runs
-- ---------------------------------------------------------------------------

/-- How a call ends: a CA it returns is the directory's. -/
def ReturnsCa (R : Rcgen K) (dir : String) (result : Option (Ca K)) (s : Scene) : Prop :=
  ∀ ca, result = some ca → CaOf R dir ca.key s.contents

/-- A call that returns no CA says nothing about one. -/
theorem ReturnsCa.none {s : Scene} : ReturnsCa R dir none s := by
  intro ca h
  simp at h

/-- Whatever the call, its run keeps the terms and returns the CA of the directory,
if any. -/
theorem runOf_sat (hIdeal : R.Ideal) {verb : Verb K} {ca : Option (Ca K)} {p : Run K} {s : Scene}
    (hFound : ∀ path, s.before.content? path = s.contents path)
    (hCa : ∀ found, ca = some found → CaOf R dir found.key s.contents)
    (hRun : runOf R dir ca verb = some p) :
    p.Sat mount.exec (pairTerms R dir verb) (ReturnsCa R dir) s := by
  cases verb with
  | ensureCa fresh =>
    obtain rfl := Option.some.inj hRun
    have hVerb : ¬ (Verb.ensureCa fresh : Verb K).UsesCa := fun hUses => hUses
    refine Program.Sat.map ((ensureCa_sat hIdeal hVerb).weaken ?_)
    intro r t hReturned found hFound
    rcases r with e | found'
    · simp [Except.toOption] at hFound
    · obtain rfl := Option.some.inj hFound
      exact hReturned found' rfl
  | ensureLeaf stem commonName sans fresh =>
    obtain ⟨found, rfl, rfl⟩ := Option.map_eq_some_iff.mp hRun
    have hCa : CaOf R dir found.key s.contents := hCa found rfl
    -- The leaf's call leaves the CA's certificate alone, however it ends.
    refine Program.Sat.map (((ensureLeaf_sat hIdeal hCa).frame
      (F := fun t => CaOf R dir found.key t.contents) hCa ?_ ?_).weaken ?_)
    · intro t t' hOf hDeleted
      exact hOf.within hDeleted.within
    · rintro t t' hOf ⟨-, -, hKept⟩ caPem hAt
      exact hOf caPem (hKept trivial caPem hAt)
    · rintro r t ⟨-, hOf⟩ ca hSame
      obtain rfl := Option.some.inj hSame
      exact hOf
  | generateCsr stem commonName sans fresh =>
    obtain rfl := Option.some.inj hRun
    exact Program.Sat.map (generateCsr_sat.weaken fun _ _ _ => ReturnsCa.none)
  | sign csr out fresh =>
    obtain rfl := Option.some.inj hRun
    exact Program.Sat.map ((sign_sat hIdeal (hFound csr)).weaken fun _ _ _ => ReturnsCa.none)

/-- What holds in every state: what was found is there, pairs match, the call in
progress keeps its terms, and the CA last returned is the directory's. -/
structure Inv (R : Rcgen K) (dir : String) (w : Session K) : Prop where
  intact : Intact R dir w.scene
  running : ∀ verb p, w.running = some (verb, p) →
    p.Sat mount.exec (pairTerms R dir verb) (ReturnsCa R dir) w.scene
  ca : w.running = none → ReturnsCa R dir w.ca w.scene

/-- **One incident.** A clear step keeps everything in order; a call that starts is
judged by its own terms, which deletions are allowed to interfere with. -/
theorem step_inv (hIdeal : R.Ideal) {w w' : Session K} (h : Inv R dir w) {i : Incident K}
    (hClear : Clear R dir w i) (hStep : (provisioning R dir).step w i = some w') :
    Inv R dir w' := by
  change Session.step R dir w i = some w' at hStep
  cases i with
  | call verb =>
    -- what the call finds is what there is now
    obtain ⟨hIdle, hCall⟩ := Option.ite_none_right_eq_some.mp hStep
    obtain ⟨p, hRun, rfl⟩ := Option.map_eq_some_iff.mp hCall
    have hIdle : w.running = none := Option.isNone_iff_eq_none.mp hIdle
    refine ⟨⟨fun _ _ hAt => hAt, h.intact.matched⟩, ?_, fun hNone => by simp at hNone⟩
    rintro verb' p' hSame
    obtain ⟨rfl, rfl⟩ := Prod.mk.inj (Option.some.inj hSame)
    exact runOf_sat hIdeal (fun _ => rfl) (h.ca hIdle) hRun
  | step =>
    rcases hRunning : w.running with _ | ⟨verb, p⟩
    · simp [Session.step, hRunning] at hStep
    have hSat := h.running verb p hRunning
    cases p with
    | done result =>
      simp only [Session.step, hRunning, Option.some.injEq] at hStep
      subst hStep
      -- the call returns
      exact ⟨h.intact, fun _ _ hSame => by simp at hSame, fun _ => hSat.result⟩
    | call c next =>
      simp only [Session.step, hRunning, Option.some.injEq] at hStep
      subst hStep
      -- one file operation, in the state nobody has touched meanwhile
      obtain ⟨⟨-, hIntact, -⟩, hNext⟩ :=
        hSat w.scene (Deleted.refl _) ⟨h.intact, hClear verb _ c hRunning rfl⟩
      refine ⟨hIntact h.intact, ?_, fun hNone => by simp at hNone⟩
      rintro verb' p' hSame
      obtain ⟨rfl, rfl⟩ := Prod.mk.inj (Option.some.inj hSame)
      exact hNext
  | crash =>
    obtain rfl := Option.some.inj hStep
    -- a call that is cut off returns no CA
    exact ⟨h.intact, fun _ _ hSame => by simp at hSame, fun _ => ReturnsCa.none⟩
  | delete path =>
    obtain rfl := Option.some.inj hStep
    have hDeleted := Deleted.remove w.scene path
    -- the call in progress relies on deletions being all that others do
    refine ⟨h.intact.deleted hDeleted, ?_, ?_⟩
    · intro verb p hRunning
      exact (h.running verb p hRunning).rely hDeleted
    · intro hIdle found hFound
      exact (h.ca hIdle found hFound).within hDeleted.within

/-- **Provisioning is additive and its pairs match.** From any directory whose pairs
match, in every run of calls, crashes and deletions in which every write is clear:
no call changes a file it found, and every certificate beside a key is for that key
and issued by the CA in the directory. -/
theorem provisioning_intact (hIdeal : R.Ideal) {disk : HostDisk} {w : Session K}
    (hMatched : Matched R dir disk.content?)
    (hReach : (provisioning R dir).Reach (Clear R dir) (Session.start disk) w) :
    Intact R dir w.scene := by
  have hInv : Inv R dir w := by
    refine hReach.invariant ⟨⟨fun _ _ hAt => hAt, hMatched⟩, ?_, ?_⟩ ?_
    · intro verb p hSame
      simp [Session.start] at hSame
    · exact fun _ => ReturnsCa.none
    · exact fun v i v' hInv hClear hStep => step_inv hIdeal hInv hClear hStep
  exact hInv.intact

end

-- ---------------------------------------------------------------------------
-- A key beside an old certificate
-- ---------------------------------------------------------------------------

namespace Sample

/-- The example's certificates are read back as they were written. -/
theorem rcgen_ideal : rcgen.Ideal where
  key _ := rfl
  cert _ := ⟨_, rfl, rfl, rfl⟩

/-- An empty directory has no pair to get wrong. -/
theorem empty_matched : Matched rcgen "certs" (Disk.empty : HostDisk).content? := by
  intro stem certPem keyPem hCert
  exact absurd hCert (by simp [Disk.content?, Disk.file?, Disk.empty])

/-- The call goes on. -/
def steps (n : Nat) : List (Incident UInt8) := List.replicate n .step

/-- A CA and a leaf beside it. -/
def minted : List (Incident UInt8) :=
  .call (.ensureCa 1) :: steps 11 ++
    .call (.ensureLeaf "node" "sovra-node" defaultSans 2) :: steps 9

/-- A request made there and signed there, and a file of the leaf deleted. -/
def enrolled : List (Incident UInt8) :=
  minted ++ .call (.generateCsr "edge" "sovra-edge" defaultSans 3) :: steps 10 ++
    [.delete ⟨"certs", certFile "node"⟩, .call (.sign ⟨"certs", "edge.csr.pem"⟩ none 4)] ++ steps 8

/-- The write, if one comes next, is clear; the one of `certs sign` is next to the
key of its request. -/
def clear (w : Session UInt8) : Incident UInt8 → Bool
  | .step =>
    match w.running with
    | some (verb, .call (.perform (.write path _)) _) =>
      (w.scene.contents path).isNone &&
        match verb with
        | .ensureCa _ => true
        | .ensureLeaf stem _ _ _ =>
          stem != "ca" && (w.scene.contents ⟨"certs", tmpName (certFile stem)⟩).isNone
        | .generateCsr stem _ _ _ =>
          (w.scene.contents ⟨"certs", certFile stem⟩).isNone &&
            (w.scene.contents ⟨"certs", tmpName (certFile stem)⟩).isNone
        | .sign csr _ _ =>
          path == ⟨"certs", certFile "edge"⟩ && w.scene.before.content? csr == some [2, 3] &&
            w.scene.contents ⟨"certs", keyFile "edge"⟩ == some [0, 3]
    | _ => true
  | _ => true

/-- The output of the example's `certs sign` fits the key of its request. -/
theorem edge_fits {s : Scene} {csr : HostPath} (hCsr : s.before.content? csr = some [2, 3])
    (h : s.contents ⟨"certs", keyFile "edge"⟩ = some [0, 3]) :
    SignFits rcgen "certs" s csr ⟨"certs", certFile "edge"⟩ where
  cert stem hPath := by
    obtain rfl := certFile_inj (congrArg FilePath.name hPath)
    refine ⟨by decide, ?_⟩
    intro keyPem hKey
    obtain rfl := Option.some.inj (h.symm.trans hKey)
    exact ⟨_, _, hCsr, rfl, rfl⟩
  key stem hPath := absurd (congrArg FilePath.name hPath).symm (keyFile_ne_certFile stem "edge")

/-- The check decides the condition. -/
theorem clear_of_clear (w : Session UInt8) (i : Incident UInt8) (h : clear w i = true) :
    Clear rcgen "certs" w i := by
  cases i with
  | call _ => trivial
  | crash => trivial
  | delete _ => trivial
  | step =>
    intro verb p c hRunning hNext
    rcases p with result | ⟨call, next⟩
    · simp [Program.next?] at hNext
    obtain rfl := Option.some.inj hNext
    rcases call with path | path | dir | step
    · trivial
    · trivial
    · trivial
    rcases step with dir | ⟨dir, mode⟩ | ⟨path, bytes⟩ | ⟨path, mode⟩ | ⟨source, target⟩
    · trivial
    · trivial
    · -- the only call a condition is put on is the write
      simp only [clear, hRunning, Bool.and_eq_true, Option.isNone_iff_eq_none] at h
      cases verb with
      | ensureCa fresh => exact ⟨⟨h.1, trivial⟩, trivial⟩
      | ensureLeaf stem commonName sans fresh => exact ⟨⟨h.1, by simpa using h.2⟩, trivial⟩
      | generateCsr stem commonName sans fresh => exact ⟨⟨h.1, by simpa using h.2⟩, trivial⟩
      | sign csr out fresh =>
        refine ⟨⟨h.1, trivial⟩, fun _ => ?_⟩
        simp only [Bool.and_eq_true, beq_iff_eq] at h
        obtain ⟨-, ⟨rfl, hCsr⟩, hKey⟩ := h
        exact edge_fits hCsr hKey
    · trivial
    · trivial

/-- The example's directory. -/
def provisioned : Machine (Session UInt8) (Incident UInt8) := provisioning rcgen "certs"

theorem enrolled_some : (provisioned.runIf clear (Session.start .empty) enrolled).isSome = true := by
  decide +kernel

/-- The session after the enrolment. -/
def afterEnrolled : Session UInt8 :=
  (provisioned.runIf clear (Session.start .empty) enrolled).get enrolled_some

theorem afterEnrolled_reach :
    provisioned.Reach (Clear rcgen "certs") (Session.start .empty) afterEnrolled :=
  Machine.reach_of_runIf clear_of_clear (Option.some_get enrolled_some).symm

/-- The leaf's key is deleted, and a request made under the same stem. -/
def rekeyed : List (Incident UInt8) :=
  minted ++ .delete ⟨"certs", keyFile "node"⟩ ::
    .call (.generateCsr "node" "sovra-node" defaultSans 3) :: steps 10

/-- It leaves the old certificate beside the new key. -/
theorem rekeyed_run :
    ((provisioned.run (Session.start .empty) rekeyed).map fun w =>
      (w.scene.contents ⟨"certs", certFile "node"⟩, w.scene.contents ⟨"certs", keyFile "node"⟩)) =
      some (some [1, 2, 1], some [0, 3]) := by
  decide +kernel

end Sample

/-- The CA's pair and the enrolled one are there, and match. -/
theorem provisioning_intact_enrolled :
    Sample.afterEnrolled.scene.contents ⟨"certs", certFile "edge"⟩ = some [1, 3, 1] ∧
      Intact Sample.rcgen "certs" Sample.afterEnrolled.scene :=
  ⟨by decide +kernel,
    provisioning_intact Sample.rcgen_ideal Sample.empty_matched Sample.afterEnrolled_reach⟩

/-- **A key beside an old certificate.** `generate_csr` does not look at the
certificate: where one is left without its key, it makes a new key for it. -/
theorem leftover_certificate :
    ¬ ∀ (K : Type) (R : Rcgen K) (dir : String) (disk : HostDisk) (w : Session K),
      R.Ideal → Matched R dir disk.content? →
      (provisioning R dir).Reach (fun _ _ => True) (Session.start disk) w →
      Intact R dir w.scene := by
  intro h
  obtain ⟨w, hRun, hSeen⟩ := Option.map_eq_some_iff.mp Sample.rekeyed_run
  obtain ⟨hCert, hKey⟩ := Prod.mk.inj hSeen
  have hIntact := h UInt8 Sample.rcgen "certs" .empty w Sample.rcgen_ideal Sample.empty_matched
    (Machine.reach_of_run hRun)
  obtain ⟨cert, key, hRead, hKeyRead, hSame, -⟩ := hIntact.matched "node" _ _ hCert hKey
  obtain rfl := Except.ok.inj hRead
  obtain rfl := Except.ok.inj hKeyRead
  exact absurd hSame (by decide)

end Sovra.Certs
