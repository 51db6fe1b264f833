import Sovra.State.Atomic

/-!
# Sovra — certificate provisioning

`sovra-certs`: one private CA and one leaf a process, as PEM files in one
directory. A leaf is minted beside the CA (`ensure_leaf`), or its key and a CSR
are made on the node (`generate_csr`) and the CSR is signed on the CA's machine
(`sign_csr`, and the CLI's `certs sign`). Existing material is loaded, absent
material is made, half a pair is refused; each function looks at the two files
it would write. rcgen is a parameter; keys are what it draws.
-/

namespace Sovra.Certs

open Lib State

/-- `CA_CERT_FILE`. -/
def caCertFile : String := "ca.cert.pem"

/-- `CA_KEY_FILE`. -/
def caKeyFile : String := "ca.key.pem"

/-- The certificate of a stem. -/
def certFile (stem : String) : String := stem ++ ".cert.pem"

/-- The key of a stem. -/
def keyFile (stem : String) : String := stem ++ ".key.pem"

/-- The request of a stem. -/
def csrFile (stem : String) : String := stem ++ ".csr.pem"

/-- `default_sans`. -/
def defaultSans : List String := ["127.0.0.1", "localhost"]

/-- A certificate for the key pair `subject`, signed with `issuer`. -/
structure Cert (K : Type) where
  subject : K
  issuer : K
  commonName : String
  issuerName : String
  sans : List String
  isCa : Bool
deriving DecidableEq

/-- A certificate request, as `sign_csr` reads it. -/
structure Csr (K : Type) where
  key : K
  commonName : String
  sans : List String
deriving DecidableEq

/-- What the code uses of rcgen; `K` are key pairs. A text that is not UTF-8 is
none of its PEMs. -/
structure Rcgen (K : Type) where
  keyPem : K → Bytes
  certPem : Cert K → Bytes
  csrPem : Csr K → Bytes
  keyFromPem : Bytes → Except String K
  certFromPem : Bytes → Except String (Cert K)
  csrFromPem : Bytes → Except String (Csr K)
  /-- `CertificateParams::new` refuses names that are neither DNS names nor addresses. -/
  checkSans : List String → Except String Unit

/-- `CertsError`. -/
inductive CertsError
  | HalfPresent (dir found missing : String)
  | StaleLeaf (path : String)
  | Io (path source : String)
  | Rcgen (msg : String)
  | State (e : StateError)
deriving DecidableEq

/-- Its `Display`. -/
def CertsError.display : CertsError → String
  | .HalfPresent dir found missing => "half-present pair in " ++ dir ++ ": found " ++ found ++
      " but not " ++ missing ++ " — restore the missing file, or delete the survivor (and, " ++
      "for a CA, every leaf it issued) and re-provision"
  | .StaleLeaf path => "stale leaf " ++ path ++ ": it predates the freshly minted CA and no " ++
      "longer chains to the trust root — delete every leftover leaf pair and re-run provisioning"
  | .Io path source => path ++ ": " ++ source
  | .Rcgen msg => msg
  | .State e => e.display

/-- `Ca`: the issuer's name and key. -/
structure Ca (K : Type) where
  commonName : String
  key : K
deriving DecidableEq

/-- `LeafPaths`. -/
structure LeafPaths where
  cert : HostPath
  key : HostPath

/-- `CsrPaths`. -/
structure CsrPaths where
  csr : HostPath
  key : HostPath

/-- Programs of this crate. -/
abbrev Provisioning : Type → Type := Files String Bytes CertsError

/-- An I/O error under the path it happened at. -/
def certsIo (path : String) (e : IoError) : CertsError := .Io path (ioText e)

/-- One file of a pair without the other. -/
def halfPresent (dir found missing : String) : CertsError := .HalfPresent dir found missing

/-- `read_pem`. -/
def readPem (path : HostPath) : Provisioning Bytes := Files.read path (certsIo (hostPath path))

/-- `name.ends_with(".pem")`, and not one of the CA's two files. -/
def isLeafFile (name : String) : Bool :=
  ".pem".toList.isSuffixOf name.toList && name != caCertFile && name != caKeyFile

/-- `any_leaf`: the first file in the directory that is a leaf's. -/
def anyLeaf (dir : String) : Provisioning (Option HostPath) := do
  let names ← Files.readDir dir (certsIo dir)
  return (names.find? isLeafFile).map fun name => ⟨dir, name⟩

/-- A fresh key and what is public of it, the key first. -/
def writePair (keyPath publicPath : HostPath) (keyPem publicPem : Bytes) : Provisioning Unit := do
  ExceptT.adapt .State (writeAtomic keyPath keyPem)
  ExceptT.adapt .State (writeAtomicPublic publicPath publicPem)

section

variable {K : Type} (R : Rcgen K) (dir : String)

-- ---------------------------------------------------------------------------
-- The CA
-- ---------------------------------------------------------------------------

/-- `ensure_ca` with both files there. -/
def loadCa : Provisioning (Ca K) := do
  let keyPem ← readPem ⟨dir, caKeyFile⟩
  let key ← Files.liftExcept ((R.keyFromPem keyPem).mapError .Rcgen)
  let certPem ← readPem ⟨dir, caCertFile⟩
  let cert ← Files.liftExcept ((R.certFromPem certPem).mapError .Rcgen)
  return ⟨cert.commonName, key⟩

/-- The CA's own certificate. -/
def selfSigned (key : K) : Cert K := ⟨key, key, "sovra-ca", "sovra-ca", [], true⟩

/-- `ensure_ca` with neither file there. -/
def mintCa (fresh : K) : Provisioning (Ca K) := do
  if let some leaf ← anyLeaf dir then
    throw (.StaleLeaf (hostPath leaf))
  writePair ⟨dir, caKeyFile⟩ ⟨dir, caCertFile⟩ (R.keyPem fresh) (R.certPem (selfSigned fresh))
  return ⟨"sovra-ca", fresh⟩

/-- `ensure_ca`: load the pair, make it, or refuse half of one. -/
def ensureCa (fresh : K) : Provisioning (Ca K) := do
  Files.perform (.createDirAll dir) (certsIo dir)
  let certThere ← Files.exists_ ⟨dir, caCertFile⟩
  let keyThere ← Files.exists_ ⟨dir, caKeyFile⟩
  match certThere, keyThere with
  | true, true => loadCa R dir
  | false, false => mintCa R dir fresh
  | true, false => throw (halfPresent dir caCertFile caKeyFile)
  | false, true => throw (halfPresent dir caKeyFile caCertFile)

-- ---------------------------------------------------------------------------
-- Leaves
-- ---------------------------------------------------------------------------

variable (stem commonName : String) (sans : List String)

/-- A leaf's certificate, issued by the CA. -/
def leafCert (ca : Ca K) (key : K) : Cert K := ⟨key, ca.key, commonName, ca.commonName, sans, false⟩

/-- `ensure_leaf` with neither file there. -/
def mintLeaf (ca : Ca K) (fresh : K) : Provisioning Unit := do
  Files.liftExcept ((R.checkSans sans).mapError .Rcgen)
  writePair ⟨dir, keyFile stem⟩ ⟨dir, certFile stem⟩ (R.keyPem fresh)
    (R.certPem (leafCert commonName sans ca fresh))

/-- `ensure_leaf`: keep the pair, make it, or refuse half of one. -/
def ensureLeaf (ca : Ca K) (fresh : K) : Provisioning LeafPaths := do
  let certThere ← Files.exists_ ⟨dir, certFile stem⟩
  let keyThere ← Files.exists_ ⟨dir, keyFile stem⟩
  match certThere, keyThere with
  | true, true => pure ()
  | false, false => mintLeaf R dir stem commonName sans ca fresh
  | true, false => throw (halfPresent dir (certFile stem) (keyFile stem))
  | false, true => throw (halfPresent dir (keyFile stem) (certFile stem))
  return ⟨⟨dir, certFile stem⟩, ⟨dir, keyFile stem⟩⟩

/-- `generate_csr` with neither the CSR nor the key there. -/
def mintCsr (fresh : K) : Provisioning Unit := do
  Files.liftExcept ((R.checkSans sans).mapError .Rcgen)
  writePair ⟨dir, keyFile stem⟩ ⟨dir, csrFile stem⟩ (R.keyPem fresh)
    (R.csrPem ⟨fresh, commonName, sans⟩)

/-- `generate_csr`: the same for a request and its key. The certificate is not
looked at. -/
def generateCsr (fresh : K) : Provisioning CsrPaths := do
  Files.perform (.createDirAll dir) (certsIo dir)
  let csrThere ← Files.exists_ ⟨dir, csrFile stem⟩
  let keyThere ← Files.exists_ ⟨dir, keyFile stem⟩
  match csrThere, keyThere with
  | true, true => pure ()
  | false, false => mintCsr R dir stem commonName sans fresh
  | true, false => throw (halfPresent dir (csrFile stem) (keyFile stem))
  | false, true => throw (halfPresent dir (keyFile stem) (csrFile stem))
  return ⟨⟨dir, csrFile stem⟩, ⟨dir, keyFile stem⟩⟩

-- ---------------------------------------------------------------------------
-- Signing
-- ---------------------------------------------------------------------------

/-- The leaf a CSR asks for: its name and SANs, the rest is the CA's policy. -/
def signedCert (ca : Ca K) (csr : Csr K) : Cert K :=
  leafCert csr.commonName csr.sans ca csr.key

/-- `sign_csr`: a certificate for the key of the request. -/
def signCsr (ca : Ca K) (csrPem : Bytes) : Except CertsError Bytes := do
  let csr ← (R.csrFromPem csrPem).mapError .Rcgen
  return R.certPem (signedCert ca csr)

/-- `describe_csr`, for the operator's eyes. -/
def describeCsr (csrPem : Bytes) : Except CertsError String := do
  let csr ← (R.csrFromPem csrPem).mapError .Rcgen
  return "CN " ++ csr.commonName ++ ", SANs [" ++ ", ".intercalate csr.sans ++ "]"

end

/-- Drop `ending` from the end as often as it is there, `fuel` times at most. -/
def dropEndings (ending : List Char) : Nat → List Char → List Char
  | 0, s => s
  | fuel + 1, s =>
    if ending.isSuffixOf s then dropEndings ending fuel (s.take (s.length - ending.length)) else s

/-- `str::trim_end_matches`. -/
def trimEndMatches (s ending : String) : String :=
  String.ofList (dropEndings ending.toList s.length s.toList)

/-- Where `certs sign` writes: next to the CSR, unless told otherwise. -/
def signOut (csr : HostPath) (out : Option HostPath) : HostPath :=
  out.getD { csr with name := certFile (trimEndMatches csr.name ".csr.pem") }

variable {K : Type} (R : Rcgen K) in
/-- The CLI's `certs sign`; its output is a plain `std::fs::write`. -/
def sign (dir : String) (csr : HostPath) (out : Option HostPath) (fresh : K) :
    Files String Bytes String Unit := do
  let csrPem ← Files.read csr fun e => hostPath csr ++ ": " ++ ioText e
  let _ ← Files.liftExcept ((describeCsr R csrPem).mapError CertsError.display)
  let ca ← ExceptT.adapt CertsError.display (ensureCa R dir fresh)
  let certPem ← Files.liftExcept ((signCsr R ca csrPem).mapError CertsError.display)
  let out := signOut csr out
  Files.perform (.write out certPem) fun e => hostPath out ++ ": " ++ ioText e

example : signOut ⟨"certs", "node.csr.pem"⟩ none = ⟨"certs", "node.cert.pem"⟩ := by decide

namespace Sample

/-- Keys are one byte, and a PEM is a tag with the keys it is about. -/
def rcgen : Rcgen UInt8 where
  keyPem key := [0, key]
  certPem cert := [1, cert.subject, cert.issuer]
  csrPem csr := [2, csr.key]
  keyFromPem
    | [0, key] => .ok key
    | _ => .error "no key"
  certFromPem
    | [1, subject, issuer] => .ok ⟨subject, issuer, "", "", [], false⟩
    | _ => .error "no certificate"
  csrFromPem
    | [2, key] => .ok ⟨key, "", []⟩
    | _ => .error "no request"
  checkSans _ := .ok ()

end Sample

-- ---------------------------------------------------------------------------
-- Names
-- ---------------------------------------------------------------------------

/-- `str::ends_with`. -/
def endsWith (name ending : String) : Prop := ending.toList <:+ name.toList

/-- A name ends with what was appended to it. -/
theorem endsWith_append (stem ending : String) : endsWith (stem ++ ending) ending := by
  rw [endsWith, String.toList_append]
  exact List.suffix_append _ _

/-- Two endings of one name: the shorter ends the longer. -/
theorem endsWith_shorter {name ending ending' : String} (h : endsWith name ending)
    (h' : endsWith name ending') (hLength : ending.toList.length ≤ ending'.toList.length) :
    endsWith ending' ending :=
  List.suffix_of_suffix_length_le h h' hLength

instance (name ending : String) : Decidable (endsWith name ending) :=
  inferInstanceAs (Decidable (_ <:+ _))

/-- The names public material goes by, temporaries included. -/
def PublicName (name : String) : Prop := endsWith name ".cert.pem" ∨ endsWith name ".csr.pem"

instance (name : String) : Decidable (PublicName name) := inferInstanceAs (Decidable (_ ∨ _))

/-- Certificates have public names. -/
theorem publicName_certFile (stem : String) : PublicName (certFile stem) :=
  Or.inl (endsWith_append stem ".cert.pem")

theorem publicName_csrFile (stem : String) : PublicName (csrFile stem) :=
  Or.inr (endsWith_append stem ".csr.pem")

/-- Keys have no public names. -/
theorem not_publicName_keyFile (stem : String) : ¬ PublicName (keyFile stem) := by
  have hKey : endsWith (keyFile stem) ".key.pem" := endsWith_append stem ".key.pem"
  rintro (hCert | hCsr)
  · exact absurd (endsWith_shorter hKey hCert (by decide)) (by decide)
  · exact absurd (endsWith_shorter hKey hCsr (by decide)) (by decide)

/-- The name of the temporary is made in front: the ending stays. -/
theorem tmpName_append (stem ending : String) : tmpName (stem ++ ending) = tmpName stem ++ ending := by
  rw [tmpName, tmpName, String.append_assoc]

/-- A certificate's temporary ends like a certificate. -/
theorem tmpName_certFile (stem : String) : tmpName (certFile stem) = certFile (tmpName stem) :=
  tmpName_append stem ".cert.pem"

theorem tmpName_keyFile (stem : String) : tmpName (keyFile stem) = keyFile (tmpName stem) :=
  tmpName_append stem ".key.pem"

theorem tmpName_csrFile (stem : String) : tmpName (csrFile stem) = csrFile (tmpName stem) :=
  tmpName_append stem ".csr.pem"

/-- The temporary of a public file is public. -/
theorem PublicName.tmp {name : String} (h : PublicName name) : PublicName (tmpName name) := by
  have hSuffix : name.toList <:+ (tmpName name).toList := by
    rw [tmpName, String.toList_append]
    exact List.suffix_append _ _
  exact h.imp (fun hCert => hCert.trans hSuffix) (fun hCsr => hCsr.trans hSuffix)

theorem caCertFile_eq : caCertFile = certFile "ca" := by decide

theorem caKeyFile_eq : caKeyFile = keyFile "ca" := by decide

/-- No key has a certificate's name, whatever the stems. -/
theorem keyFile_ne_certFile (stem stem' : String) : keyFile stem ≠ certFile stem' :=
  fun h => not_publicName_keyFile stem (h ▸ publicName_certFile stem')

theorem keyFile_ne_csrFile (stem stem' : String) : keyFile stem ≠ csrFile stem' :=
  fun h => not_publicName_keyFile stem (h ▸ publicName_csrFile stem')

theorem certFile_ne_csrFile (stem stem' : String) : certFile stem ≠ csrFile stem' := by
  intro h
  have hCert : endsWith (certFile stem) ".cert.pem" := endsWith_append stem ".cert.pem"
  have hCsr : endsWith (certFile stem) ".csr.pem" := h ▸ endsWith_append stem' ".csr.pem"
  exact absurd (endsWith_shorter hCsr hCert (by decide)) (by decide)

/-- The ending can be cancelled. -/
theorem append_ending_inj {stem stem' ending : String} (h : stem ++ ending = stem' ++ ending) :
    stem = stem' := by
  have hList := congrArg String.toList h
  rw [String.toList_append, String.toList_append] at hList
  exact String.toList_inj.mp (List.append_cancel_right hList)

theorem certFile_inj {stem stem' : String} (h : certFile stem = certFile stem') : stem = stem' :=
  append_ending_inj h

theorem keyFile_inj {stem stem' : String} (h : keyFile stem = keyFile stem') : stem = stem' :=
  append_ending_inj h

/-- No temporary belongs to the stem `ca`. -/
theorem tmpName_ne_ca (stem : String) : tmpName stem ≠ "ca" := by
  intro h
  have hLength := congrArg String.length h
  rw [tmpName, String.length_append] at hLength
  have hTmp : ".tmp-".length = 5 := by decide
  have hCa : "ca".length = 2 := by decide
  omega

/-- No temporary has the name of the CA's certificate. -/
theorem tmpName_ne_caCertFile (name : String) : tmpName name ≠ caCertFile := by
  intro h
  have hHead := congrArg (fun s => s.toList.head?) h
  simp only [tmpName, String.toList_append] at hHead
  exact absurd hHead (by simp [caCertFile])

/-- What ends in `.pem` is some leaf's, unless it is the CA's. -/
theorem isLeafFile_of_endsWith {name : String} (h : endsWith name ".pem") (hCert : name ≠ caCertFile)
    (hKey : name ≠ caKeyFile) : isLeafFile name = true := by
  simp only [isLeafFile, Bool.and_eq_true, bne_iff_ne, List.isSuffixOf_iff_suffix]
  exact ⟨⟨h, hCert⟩, hKey⟩

/-- `any_leaf` sees every certificate but the CA's. -/
theorem isLeafFile_certFile {stem : String} (h : stem ≠ "ca") : isLeafFile (certFile stem) = true := by
  have hEnding : endsWith ".cert.pem" ".pem" := by decide
  refine isLeafFile_of_endsWith (hEnding.trans (endsWith_append stem ".cert.pem")) ?_ ?_
  · intro hSame
    rw [caCertFile_eq] at hSame
    exact h (certFile_inj hSame)
  · intro hSame
    rw [caKeyFile_eq] at hSame
    exact keyFile_ne_certFile "ca" stem hSame.symm

end Sovra.Certs
