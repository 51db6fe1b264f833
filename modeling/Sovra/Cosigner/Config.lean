import Sovra.Cosigner.Types
import Sovra.Lib.Guard

/-!
# Sovra — how a cosigner comes up

What `Config::load` checks of a parsed configuration, the roster part of
`run.rs` and the `GET /roster` payload. A cosigner without participants comes
up in bootstrap mode; one with participants has a place among them.

* `start_ok`        — what holds of every cosigner that came up with a roster.
* `roster_agreed`   — equal `GET /roster` payloads mean rosters of one length.
-/

namespace Sovra.Cosigner

open Lib Mpc State Ipc

/-- The keys of the configuration that this crate checks against each other. -/
structure Config where
  partyId : UInt8
  threshold : UInt8
  /-- Hex verifying keys, index = party id; `None` = bootstrap mode. -/
  participants : Option (List String)

/-- `Config::load`, past the file and the environment. -/
def Config.validate (config : Config) : Except String Unit :=
  match config.participants with
  | none => .ok ()
  | some participants => do
    let n := participants.length
    ensure (2 ≤ n) ("participants must list at least 2 parties, got " ++ toString n)
    ensure (config.partyId.toNat < n) ("party_id " ++ toString config.partyId.toNat ++
      " out of range for " ++ toString n ++ " participants")
    ensure (2 ≤ config.threshold.toNat ∧ config.threshold.toNat ≤ n) ("threshold " ++
      toString config.threshold.toNat ++ " out of bounds for " ++ toString n ++ " participants")

section

variable {C : Crypto}

/-- The roster of `run.rs`: every key parsed, and this party's own slot holding
its own key. -/
def pinRoster [DecidableEq C.VerifyingKey] (parseVk : String → Except String C.VerifyingKey)
    (config : Config) (signingKey : C.SigningKey) :
    Except String (Option (List C.VerifyingKey)) :=
  match config.participants with
  | none => .ok none
  | some hexes => do
    let roster ← hexes.mapM parseVk
    ensure (roster[config.partyId.toNat]? = some (C.verifyingKey signingKey))
      ("config participants[" ++ toString config.partyId.toNat ++
        "] does not match this cosigner's identity key")
    return some roster

/-- `run`, up to serving; identity, sealer and policy are loaded by then. -/
def start [DecidableEq C.VerifyingKey] (parseVk : String → Except String C.VerifyingKey)
    (config : Config) (signingKey : C.SigningKey) (sealer : ShardSealer) (policy : Policy) :
    Except String (CosignerState C) := do
  config.validate
  let roster ← pinRoster parseVk config signingKey
  return { partyId := config.partyId, signingKey, roster, threshold := config.threshold
           sealer, policy }

/-- What `roster_info` hashes: (n, t, every key in id order). -/
def rosterPreimage (vkBytes : C.VerifyingKey → B256) (threshold : UInt8)
    (roster : List C.VerifyingKey) : Bytes :=
  UInt8.ofNat roster.length :: threshold :: roster.flatMap fun vk => (vkBytes vk).bytes

/-- `roster_info`: the `GET /roster` payload. -/
def CosignerState.rosterInfo (keccak256 : Bytes → B256) (vkBytes : C.VerifyingKey → B256)
    (st : CosignerState C) : Except CosignerError RosterInfo := do
  let roster ← st.rosterOrUnset
  return ⟨.ofNat roster.length, st.threshold,
    keccak256 (rosterPreimage vkBytes st.threshold roster)⟩

-- ---------------------------------------------------------------------------
-- What a cosigner that came up has
-- ---------------------------------------------------------------------------

/-- A place in the roster and a threshold the roster can meet. -/
structure Seated (st : CosignerState C) (roster : List C.VerifyingKey) : Prop where
  own : roster[st.partyId.toNat]? = some (C.verifyingKey st.signingKey)
  two_le : 2 ≤ st.threshold.toNat
  le_length : st.threshold.toNat ≤ roster.length

/-- A cosigner's own id is one of the roster's. -/
theorem Seated.partyId_lt {st : CosignerState C} {roster : List C.VerifyingKey}
    (h : Seated st roster) : st.partyId.toNat < roster.length :=
  (List.getElem?_eq_some_iff.mp h.own).1

/-- A cosigner that starts with a roster has its own key in its own place. -/
theorem start_ok [DecidableEq C.VerifyingKey] {parseVk : String → Except String C.VerifyingKey}
    {config : Config} {signingKey : C.SigningKey} {sealer : ShardSealer} {policy : Policy}
    {st : CosignerState C} (h : start parseVk config signingKey sealer policy = .ok st)
    {roster : List C.VerifyingKey} (hRoster : st.roster = some roster) : Seated st roster := by
  simp only [start, bind_eq_ok, pure_eq_ok] at h
  obtain ⟨u, hValid, pinned, hPinned, rfl⟩ := h
  have hSome : pinned = some roster := hRoster
  subst hSome
  unfold pinRoster at hPinned
  unfold Config.validate at hValid
  split at hPinned
  · simp at hPinned
  rename_i hexes hHexes
  simp only [hHexes, bind_eq_ok, ensure_eq_ok, pure_eq_ok, Option.some.injEq] at hValid hPinned
  obtain ⟨-, -, -, -, hTwo, hLe⟩ := hValid
  obtain ⟨parsed, hParsed, -, hOwn, rfl⟩ := hPinned
  have hLength : parsed.length = hexes.length := mapM_length hParsed
  exact ⟨hOwn, hTwo, by rw [hLength]; exact hLe⟩

-- ---------------------------------------------------------------------------
-- What the roster payload commits to
-- ---------------------------------------------------------------------------

/-- The preimage frames nothing: two bytes and a key each. -/
theorem rosterPreimage_length (vkBytes : C.VerifyingKey → B256) (threshold : UInt8)
    (roster : List C.VerifyingKey) :
    (rosterPreimage vkBytes threshold roster).length = 2 + 32 * roster.length := by
  have hKeys : (roster.flatMap fun vk => (vkBytes vk).bytes).length = 32 * roster.length := by
    induction roster with
    | nil => rfl
    | cons vk roster ih =>
      rw [List.flatMap_cons, List.length_append, ih, (vkBytes vk).length_eq, List.length_cons]
      omega
  rw [rosterPreimage, List.length_cons, List.length_cons, hKeys]
  omega

/-- What `/roster` says: the roster's size in one byte, and its hash. -/
theorem rosterInfo_ok {keccak256 : Bytes → B256} {vkBytes : C.VerifyingKey → B256}
    {st : CosignerState C} {info : RosterInfo} (h : st.rosterInfo keccak256 vkBytes = .ok info) :
    ∃ roster, st.roster = some roster ∧ info.threshold = st.threshold ∧
      info.n = .ofNat roster.length ∧
      info.rosterHash = keccak256 (rosterPreimage vkBytes st.threshold roster) := by
  simp only [CosignerState.rosterInfo, bind_eq_ok, rosterOrUnset_eq_ok, pure_eq_ok] at h
  obtain ⟨roster, hRoster, rfl⟩ := h
  exact ⟨roster, hRoster, rfl, rfl, rfl⟩

/-- Where keccak256 has no collision on the two rosters, one payload means one
length. -/
theorem roster_agreed {keccak256 : Bytes → B256} {vkBytes : C.VerifyingKey → B256}
    {st st' : CosignerState C} {info : RosterInfo} {roster roster' : List C.VerifyingKey}
    (h : st.rosterInfo keccak256 vkBytes = .ok info)
    (h' : st'.rosterInfo keccak256 vkBytes = .ok info)
    (hRoster : st.roster = some roster) (hRoster' : st'.roster = some roster')
    (hKeccak : keccak256 (rosterPreimage vkBytes st.threshold roster) =
        keccak256 (rosterPreimage vkBytes st'.threshold roster') →
      rosterPreimage vkBytes st.threshold roster = rosterPreimage vkBytes st'.threshold roster') :
    roster.length = roster'.length := by
  obtain ⟨r, hr, -, -, hHash⟩ := rosterInfo_ok h
  obtain ⟨r', hr', -, -, hHash'⟩ := rosterInfo_ok h'
  obtain rfl : roster = r := Option.some.inj (hRoster.symm.trans hr)
  obtain rfl : roster' = r' := Option.some.inj (hRoster'.symm.trans hr')
  have hLength := congrArg List.length (hKeccak (hHash.symm.trans hHash'))
  rw [rosterPreimage_length, rosterPreimage_length] at hLength
  omega

end

end Sovra.Cosigner
