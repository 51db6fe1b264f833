import Sovra.Ipc.Remote

/-!
# Sovra — what the orchestrator asks before a ceremony

The rest of `remote.rs`: the roster pre-flight of DKG and refresh, the public-key
agreement of refresh, and the startup probe `fetch_signer`. Both pre-flights need
an answer from all n and compare the answers, nothing else.

* `agree_ok`           — the comparison passes only if all answers are equal.
* `preflightRoster_ok` — what a passed roster pre-flight established.
-/

namespace Sovra.Ipc

open Lib Mpc

section

variable (W : Web) {T : Type}

/-- `get_json`: one authenticated GET with the per-party error framing. -/
def getJson (party : UInt8) (base : W.Url) (path : String) (sent : Sent T) : Except MpcError T :=
  let name := "cosigner" ++ displayParty party ++ " " ++ path ++ ": "
  match W.join base path with
  | .error e => .error (.transport ("cosigner" ++ displayParty party ++ " url: " ++ e))
  | .ok _ =>
    match sent with
    | .error e => .error (.transport (name ++ e))
    | .ok resp =>
      if !isSuccess resp.status then
        .error (.transport (name ++ W.displayStatus resp.status ++ ": " ++ resp.text.getD ""))
      else resp.json.mapError fun e => .transport (name ++ "bad response: " ++ e)

/-- `fetch_signer`: 200 is the active key, 404 no shard, anything else an
error. -/
def fetchSigner (url : W.Url) (sent : Sent PublicKeyInfo) : Except IpcError (Option PubkeySec1) :=
  match W.join url "signer" with
  | .error e => .error (.Http ("bad url: " ++ e))
  | .ok _ =>
    match sent with
    | .error e => .error (.Http e)
    | .ok resp =>
      if resp.status = 404 then .ok none
      else if isSuccess resp.status then
        (resp.json.map fun info => some info.publicKey).mapError .Http
      else .error (.Http ("GET /signer returned " ++ W.displayStatus resp.status))

variable {W}

/-- What is read was answered, with a success. -/
theorem getJson_ok {party : UInt8} {base : W.Url} {path : String} {sent : Sent T} {value : T}
    (h : getJson W party base path sent = .ok value) :
    ∃ resp, sent = .ok resp ∧ isSuccess resp.status = true ∧ resp.json = .ok value := by
  unfold getJson at h
  simp only at h
  split at h
  · simp at h
  split at h
  · simp at h
  rename_i resp
  split at h
  · simp at h
  rename_i hSuccess
  exact ⟨resp, rfl, by simpa using hSuccess, mapError_eq_ok.mp h⟩

end

-- ---------------------------------------------------------------------------
-- Agreement
-- ---------------------------------------------------------------------------

section

variable {T : Type} [DecidableEq T]

/-- Every answer is compared with the first; `mismatch` words the error. The
source indexes the first, so an empty list would panic: there is none. -/
def agree (mismatch : UInt8 × T → UInt8 × T → MpcError) :
    List (UInt8 × T) → Except MpcError Unit
  | [] => .ok ()
  | first :: rest =>
    match rest.find? fun info => info.2 ≠ first.2 with
    | some info => .error (mismatch first info)
    | none => .ok ()

/-- Where `agree` passes all answers are one. -/
theorem agree_ok {mismatch : UInt8 × T → UInt8 × T → MpcError} {infos : List (UInt8 × T)} {u : Unit}
    (h : agree mismatch infos = .ok u) : ∀ i ∈ infos, ∀ j ∈ infos, i.2 = j.2 := by
  rcases infos with _ | ⟨first, rest⟩
  · simp
  simp only [agree] at h
  split at h
  · simp at h
  rename_i hNone
  have hFirst : ∀ i ∈ first :: rest, i.2 = first.2 := by
    intro i hi
    rcases List.mem_cons.mp hi with rfl | hi
    · rfl
    · simpa using List.find?_eq_none.mp hNone i hi
  intro i hi j hj
  rw [hFirst i hi, hFirst j hj]

end

-- ---------------------------------------------------------------------------
-- The pre-flights
-- ---------------------------------------------------------------------------

section

variable {W : Web} (b : RemoteBackend W)

/-- A transport failure of the roster probe says that everybody is needed. -/
def RemoteBackend.allOnline : MpcError → MpcError
  | .transport msg => .transport (msg ++ " — all " ++ toString b.cosigners.length ++
      " parties must be online for this ceremony")
  | e => e

/-- One cosigner's roster answer, checked against this process's own config. -/
def RemoteBackend.checkRoster (answer : UInt8 → Sent RosterInfo) (c : UInt8 × W.Url) :
    Except MpcError (UInt8 × RosterInfo) := do
  let info ← (getJson W c.1 c.2 "roster" (answer c.1)).mapError b.allOnline
  ensure (info.n.toNat = b.cosigners.length ∧ info.threshold.toNat = b.threshold)
    (.partyMismatch ("cosigner" ++ displayParty c.1 ++ " is configured " ++
      toString info.threshold.toNat ++ "-of-" ++ toString info.n.toNat ++
      ", orchestrator expects " ++ toString b.threshold ++ "-of-" ++
      toString b.cosigners.length))
  return (c.1, info)

/-- `preflight_roster`: all n answer the same (n, threshold, roster hash). -/
def RemoteBackend.preflightRoster (answer : UInt8 → Sent RosterInfo) : Except MpcError Unit := do
  let infos ← b.cosigners.mapM (b.checkRoster answer)
  agree (fun first info => .partyMismatch ("roster mismatch: cosigner" ++
      displayParty first.1 ++ " reports " ++ first.2.debug ++ ", cosigner" ++
      displayParty info.1 ++ " reports " ++ info.2.debug ++
      " — the participant lists diverge")) infos

/-- The refresh's anchor: all n answer the same wallet key, and the first one's
is returned. -/
def RemoteBackend.anchor (answer : UInt8 → Sent PublicKeyInfo) :
    Except MpcError (Option PublicKeyInfo) := do
  let infos ← b.cosigners.mapM fun c => do
    return (c.1, ← getJson W c.1 c.2 "pubkey" (answer c.1))
  agree (fun first info => .partyMismatch ("cosigners disagree on the wallet public key: " ++
      "cosigner" ++ displayParty first.1 ++ " vs cosigner" ++ displayParty info.1)) infos
  return infos.head?.map Prod.snd

/-- `RemoteBackend::refresh`: what it posted and how it ended; `none` where the
source panics on an empty cosigner set. -/
def RemoteBackend.refresh (debug : PublicKeyInfo → String) (roster : UInt8 → Sent RosterInfo)
    (pubkey : UInt8 → Sent PublicKeyInfo) (inst : B256) (answer : UInt8 → Sent PublicKeyInfo) :
    List (Post W StartRefreshRequest) × Option (Except MpcError PubkeySec1) :=
  match b.preflightRoster roster with
  | .error e => ([], some (.error e))
  | .ok () =>
    match b.anchor pubkey with
    | .error e => ([], some (.error e))
    | .ok none => ([], none)
    | .ok (some first) =>
      let (posts, result) := broadcast W debug b.cosigners "refresh"
        (⟨inst, .ofNat b.cosigners.length, .ofNat b.threshold, first.publicKey⟩ :
          StartRefreshRequest) answer
      (posts, result.map fun r => r.map PublicKeyInfo.publicKey)

/-- `RemoteBackend::dkg`. -/
def RemoteBackend.dkg (debug : PublicKeyInfo → String) (roster : UInt8 → Sent RosterInfo)
    (inst : B256) (answer : UInt8 → Sent PublicKeyInfo) :
    List (Post W StartDkgRequest) × Option (Except MpcError PubkeySec1) :=
  match b.preflightRoster roster with
  | .error e => ([], some (.error e))
  | .ok () =>
    let (posts, result) := broadcast W debug b.cosigners "dkg"
      (⟨inst, .ofNat b.cosigners.length, .ofNat b.threshold⟩ : StartDkgRequest) answer
    (posts, result.map fun r => r.map PublicKeyInfo.publicKey)

end

section

variable {W : Web} {b : RemoteBackend W}

/-- Every cosigner answered, with this process's (n, threshold), and all the
same. -/
theorem preflightRoster_ok {answer : UInt8 → Sent RosterInfo} {u : Unit}
    (h : b.preflightRoster answer = .ok u) :
    ∃ info : RosterInfo, info.n.toNat = b.cosigners.length ∧
      info.threshold.toNat = b.threshold ∧
      ∀ c ∈ b.cosigners, ∃ resp, answer c.1 = .ok resp ∧ isSuccess resp.status = true ∧
        resp.json = .ok info := by
  simp only [RemoteBackend.preflightRoster, bind_eq_ok] at h
  obtain ⟨infos, hInfos, hAgree⟩ := h
  -- all were checked, and no two answers differ
  have hSame := agree_ok hAgree
  have hOne : ∀ c ∈ b.cosigners, ∃ i ∈ infos, b.checkRoster answer c = .ok i :=
    fun c hc => mapM_mem hInfos hc
  have hRead : ∀ c i, b.checkRoster answer c = .ok i →
      i.2.n.toNat = b.cosigners.length ∧ i.2.threshold.toNat = b.threshold ∧
        ∃ resp, answer c.1 = .ok resp ∧ isSuccess resp.status = true ∧ resp.json = .ok i.2 := by
    intro c i hCheck
    simp only [RemoteBackend.checkRoster, bind_eq_ok, mapError_eq_ok, ensure_eq_ok,
      pure_eq_ok] at hCheck
    obtain ⟨info, hGet, -, ⟨hN, hT⟩, rfl⟩ := hCheck
    exact ⟨hN, hT, getJson_ok hGet⟩
  have hTwo := b.two_le
  have hLe := b.le_length
  -- there is a first cosigner, whose answer stands for all
  obtain ⟨c₀, hc₀⟩ := List.exists_mem_of_length_pos (l := b.cosigners) (by omega)
  obtain ⟨i₀, hi₀, hCheck₀⟩ := hOne c₀ hc₀
  obtain ⟨hN, hT, -⟩ := hRead c₀ i₀ hCheck₀
  refine ⟨i₀.2, hN, hT, ?_⟩
  intro c hc
  obtain ⟨i, hi, hCheck⟩ := hOne c hc
  rw [hSame i₀ hi₀ i hi]
  exact (hRead c i hCheck).2.2

end

end Sovra.Ipc
