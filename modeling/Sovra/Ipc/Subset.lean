import Sovra.Cosigner.Config
import Sovra.Ipc.Fleet
import Sovra.Ipc.Veto

/-!
# Sovra — signing subsets and the pre-flight

The orchestrator forms a subset out of the labels of its own configuration; a
cosigner checks it against its own id and roster. The roster pre-flight compares
(n, t, roster hash) and no party id, so it settles the size and the order of
every subset, and leaves range and membership to the labels.

* `subset_accepted`  — with every cosigner listed under its own id, a fleet that
  passed the pre-flight accepts every subset.
* `subset_mislabelled` — two swapped urls pass the pre-flight and are refused.
-/

namespace Sovra.Ipc

open Lib Mpc State Cosigner

/-- Cosigners that came up, each answering its own `GET /roster`, and a
pre-flight over them that passed. -/
structure PassedFleet {W : Web} (b : RemoteBackend W) (A : Eth.Alloy) {C : Crypto}
    [DecidableEq C.VerifyingKey] (vkBytes : C.VerifyingKey → B256)
    (parseVk : String → Except String C.VerifyingKey) (render : ErrorBody → String)
    (st : UInt8 → CosignerState C) (rosters : UInt8 → Sent RosterInfo) : Prop where
  started : ∀ c ∈ b.cosigners, ∃ config signingKey sealer policy,
    start parseVk config signingKey sealer policy = .ok (st c.1)
  answers : ∀ c ∈ b.cosigners, ∀ resp, rosters c.1 = .ok resp →
    resp = respond A render ((st c.1).rosterInfo A.keccak256 vkBytes)
  passed : b.preflightRoster rosters = .ok ()

/-- Every cosigner is listed under its own party id. -/
def Labelled {W : Web} (b : RemoteBackend W) {C : Crypto} (st : UInt8 → CosignerState C) : Prop :=
  ∀ c ∈ b.cosigners, (st c.1).partyId = c.1

/-- keccak256 has no collision among the rosters the cosigners hash. -/
def RosterHash {W : Web} (b : RemoteBackend W) (A : Eth.Alloy) {C : Crypto}
    (vkBytes : C.VerifyingKey → B256) (st : UInt8 → CosignerState C) : Prop :=
  ∀ c ∈ b.cosigners, ∀ c' ∈ b.cosigners, ∀ roster roster',
    (st c.1).roster = some roster → (st c'.1).roster = some roster' →
    let preimage := rosterPreimage vkBytes (st c.1).threshold roster
    let preimage' := rosterPreimage vkBytes (st c'.1).threshold roster'
    A.keccak256 preimage = A.keccak256 preimage' → preimage = preimage'

-- ---------------------------------------------------------------------------
-- The subset of a call
-- ---------------------------------------------------------------------------

section

variable {W : Web} {signers : List (UInt8 × W.Url)} {inst : B256} {network : NetworkId}
  {unsignedTx : Bytes}

/-- The subset posted is the labels of the selected. -/
theorem participants_mem {party : UInt8} :
    party ∈ (signRequest inst network unsignedTx signers).participants ↔
      ∃ c ∈ signers, c.1 = party := by
  simp [signRequest]

/-- The subset posted has an entry for each of the selected. -/
theorem participants_length :
    (signRequest inst network unsignedTx signers).participants.length = signers.length := by
  simp [signRequest]

/-- Distinct labels are sorted strictly. -/
theorem participants_ascending (h : (signers.map Prod.fst).Nodup) :
    (signRequest inst network unsignedTx signers).participants.Pairwise (· < ·) := by
  have hSorted : ((signers.map Prod.fst).mergeSort (· ≤ ·)).Pairwise
      fun p q => decide (p ≤ q) = true := by
    refine List.pairwise_mergeSort ?_ ?_ _
    · intro p q r hpq hqr
      rw [decide_eq_true_eq] at *
      exact UInt8.le_trans hpq hqr
    · intro p q
      rw [Bool.or_eq_true, decide_eq_true_eq, decide_eq_true_eq]
      exact UInt8.le_total p q
  have hDistinct := ((List.mergeSort_perm (signers.map Prod.fst) (· ≤ ·)).nodup_iff).mpr h
  refine hSorted.imp₂ ?_ hDistinct
  intro p q hLe hNe
  exact UInt8.lt_of_le_of_ne (of_decide_eq_true hLe) hNe

end

-- ---------------------------------------------------------------------------
-- What the pre-flight settles
-- ---------------------------------------------------------------------------

section

variable {W : Web} {b : RemoteBackend W} {A : Eth.Alloy} {C : Crypto} [DecidableEq C.VerifyingKey]
  {vkBytes : C.VerifyingKey → B256} {parseVk : String → Except String C.VerifyingKey}
  {render : ErrorBody → String} {st : UInt8 → CosignerState C} {rosters : UInt8 → Sent RosterInfo}

/-- Every cosigner has a roster it is seated in, the orchestrator's threshold,
and the one payload all of them answered, of the orchestrator's n. -/
theorem PassedFleet.seated (h : PassedFleet b A vkBytes parseVk render st rosters) :
    ∃ info : RosterInfo, info.n.toNat = b.cosigners.length ∧
      ∀ c ∈ b.cosigners, ∃ roster, (st c.1).roster = some roster ∧
        Seated (st c.1) roster ∧ (st c.1).threshold.toNat = b.threshold ∧
        (st c.1).rosterInfo A.keccak256 vkBytes = .ok info := by
  obtain ⟨info, hN, hThreshold, hAnswers⟩ := preflightRoster_ok h.passed
  refine ⟨info, hN, ?_⟩
  intro c hc
  obtain ⟨resp, hResp, hSuccess, hJson⟩ := hAnswers c hc
  have hInfo : (st c.1).rosterInfo A.keccak256 vkBytes = .ok info := by
    rw [h.answers c hc resp hResp] at hSuccess hJson
    exact respond_ok hSuccess hJson
  obtain ⟨roster, hRoster, hOwn, -⟩ := rosterInfo_ok hInfo
  obtain ⟨config, signingKey, sealer, policy, hStart⟩ := h.started c hc
  refine ⟨roster, hRoster, start_ok hStart hRoster, ?_, hInfo⟩
  rw [← hOwn]
  exact hThreshold

/-- One size of roster throughout, so every cosigner's id is in everybody's
range. -/
theorem PassedFleet.inRange (h : PassedFleet b A vkBytes parseVk render st rosters)
    (hHash : RosterHash b A vkBytes st) {c c' : UInt8 × W.Url} (hc : c ∈ b.cosigners)
    (hc' : c' ∈ b.cosigners) {roster : List C.VerifyingKey}
    (hRoster : (st c.1).roster = some roster) : (st c'.1).partyId.toNat < roster.length := by
  obtain ⟨info, -, hSeated⟩ := h.seated
  obtain ⟨r, hr, -, -, hInfo⟩ := hSeated c hc
  obtain ⟨r', hr', hPlace, -, hInfo'⟩ := hSeated c' hc'
  obtain rfl : roster = r := Option.some.inj (hRoster.symm.trans hr)
  have hLength := roster_agreed hInfo hInfo' hRoster hr' (hHash c hc c' hc' _ _ hRoster hr')
  have hPartyId := hPlace.partyId_lt
  omega

/-- Whom a post goes to, and with which subset. -/
theorem sign_post_of_mem (hW : W.Bases) {debug : SignaturesInfo → String}
    {probe : UInt8 → Except String Nat} {inst : B256} {network : NetworkId} {unsignedTx : Bytes}
    {answer : UInt8 → Sent SignaturesInfo} {p : Post W StartSignRequest}
    (hp : p ∈ (b.sign debug probe inst network unsignedTx answer).1) :
    ∃ c ∈ b.selected probe, c.1 = p.party ∧
      p.body = signRequest inst network unsignedTx (b.selected probe) := by
  have hMem := List.mem_map_of_mem (f := fun p : Post W StartSignRequest =>
    (p.party, (Except.ok p.url : Except String W.Url), p.body)) hp
  rw [sign_posts hW] at hMem
  obtain ⟨c, hc, hEq⟩ := List.mem_map.mp hMem
  obtain ⟨hParty, hSent⟩ := Prod.mk.inj hEq
  exact ⟨c, hc, hParty, (Prod.mk.inj hSent).2.symm⟩

-- ---------------------------------------------------------------------------
-- Agreement of the two sides
-- ---------------------------------------------------------------------------

/-- Once the pre-flight over a fleet has passed, whatever the readiness: every
subset posted has the size and the order the cosigner asks for; and where every
cosigner is listed under its own party id, each of them accepts it. -/
theorem subset_accepted (hW : W.Bases) (h : PassedFleet b A vkBytes parseVk render st rosters)
    (debug : SignaturesInfo → String) (probe : UInt8 → Except String Nat) (inst : B256)
    (network : NetworkId) (unsignedTx : Bytes) (answer : UInt8 → Sent SignaturesInfo) :
    ∀ p ∈ (b.sign debug probe inst network unsignedTx answer).1,
      p.body.participants.length = (st p.party).threshold.toNat ∧
      p.body.participants.IsChain (· < ·) ∧
      (Labelled b st → RosterHash b A vkBytes st → ∃ roster, (st p.party).roster = some roster ∧
        checkSubset (st p.party) roster.length p.body.participants = .ok ()) := by
  intro p hp
  obtain ⟨c, hc, hParty, hBody⟩ := sign_post_of_mem hW hp
  have hListed : ∀ s ∈ b.selected probe, s ∈ b.cosigners := fun s hs => selected_sublist.subset hs
  obtain ⟨info, -, hSeated⟩ := h.seated
  obtain ⟨roster, hRoster, hPlace, hThreshold, -⟩ := hSeated c (hListed c hc)
  -- a post is only made when `threshold` many were ready
  have hSize : (b.selected probe).length = b.threshold := by
    obtain ⟨hNone, -⟩ | ⟨hSize, -⟩ := sign_eq b probe debug inst network unsignedTx answer
    · simp [hNone] at hc
    · exact hSize
  have hLength : p.body.participants.length = (st c.1).threshold.toNat := by
    rw [hBody, participants_length, hSize, hThreshold]
  have hChain : p.body.participants.IsChain (· < ·) := by
    rw [hBody]
    exact List.isChain_iff_pairwise.mpr (participants_ascending selected_nodup)
  rw [← hParty]
  refine ⟨hLength, hChain, ?_⟩
  intro hLabelled hHash
  -- labels are party ids here, and an id is in the range of the one roster
  have hRange : ∀ q ∈ p.body.participants, q.toNat < roster.length := by
    intro q hq
    rw [hBody, participants_mem] at hq
    obtain ⟨c', hc', rfl⟩ := hq
    rw [← hLabelled c' (hListed c' hc')]
    exact h.inRange hHash (hListed c hc) (hListed c' hc') hRoster
  -- the addressee is one of the selected, under its own id
  have hMember : (st c.1).partyId ∈ p.body.participants := by
    rw [hBody, participants_mem, hLabelled c (hListed c hc)]
    exact ⟨c, hc, rfl⟩
  refine ⟨roster, hRoster, ?_⟩
  simp only [checkSubset, bind_eq_ok, ensure_eq_ok]
  exact ⟨(), ⟨hLength, hChain, hRange⟩, hMember⟩

end

namespace Sample

/-- The verifying keys of the toy primitives are one byte, written in hex. -/
def parseVk (hex : String) : Except String UInt8 :=
  if hex = "0a" then .ok 10
  else if hex = "0b" then .ok 11
  else if hex = "0c" then .ok 12
  else .error "Odd number of digits"

/-- A cosigner of the example's 2-of-3. -/
def config (partyId : UInt8) : Config := ⟨partyId, 2, some ["0a", "0b", "0c"]⟩

/-- Party `partyId` of a 2-of-3, up and running. -/
def party (partyId : UInt8) : CosignerState Symbolic.crypto :=
  { Cosigner.Sample.state with partyId, signingKey := (10 + partyId : UInt8) }

/-- Every cosigner answers its own roster. -/
def rosters (st : UInt8 → CosignerState Symbolic.crypto) (label : UInt8) : Sent RosterInfo :=
  .ok (respond Eth.Sample.alloy (fun body => body.error)
    ((st label).rosterInfo Eth.Sample.alloy.keccak256 (FixedBytes.repeatByte 32)))

/-- The urls of cosigners 0 and 1 are swapped. -/
def swapped (label : UInt8) : CosignerState Symbolic.crypto :=
  party (if label = 0 then 1 else if label = 1 then 0 else label)

/-- Any listing of the three parties passes the pre-flight. -/
theorem passed (listing : UInt8 → UInt8) (hListing : ∀ c ∈ backend.cosigners, listing c.1 < 3)
    (hPassed : backend.preflightRoster (rosters fun label => party (listing label)) = .ok ()) :
    PassedFleet backend Eth.Sample.alloy (FixedBytes.repeatByte 32) parseVk
      (fun body => body.error) (fun label => party (listing label))
      (rosters fun label => party (listing label)) where
  started c hc := by
    have hStarts : ∀ i : UInt8, i < 3 → (start parseVk (config i) (10 + i : UInt8) passthrough
        Cosigner.Sample.policy : Except String (CosignerState Symbolic.crypto)) =
          .ok (party i) := by
      intro i hi
      have hCases : i = 0 ∨ i = 1 ∨ i = 2 := by
        have hNat : i.toNat < 3 := hi
        rcases Nat.lt_or_ge i.toNat 1 with h0 | h0
        · exact Or.inl (UInt8.toNat_inj.mp (by show i.toNat = 0; omega))
        rcases Nat.lt_or_ge i.toNat 2 with h1 | h1
        · exact Or.inr (Or.inl (UInt8.toNat_inj.mp (by show i.toNat = 1; omega)))
        · exact Or.inr (Or.inr (UInt8.toNat_inj.mp (by show i.toNat = 2; omega)))
      rcases hCases with rfl | rfl | rfl <;> rfl
    exact ⟨_, _, _, _, hStarts _ (hListing c hc)⟩
  answers c _ resp hResp := (Except.ok.inj hResp).symm
  passed := hPassed

end Sample

/-- The fleet of the example, listed as it is: the post to cosigner 2 is
accepted. -/
theorem subset_accepted_listed :
    ∃ p ∈ (Sample.backend.sign (fun _ => "") Sample.probe (.repeatByte 32 7) .Ethereum []
        Sample.answer).1, ∃ roster, (Sample.party p.party).roster = some roster ∧
      checkSubset (Sample.party p.party) roster.length p.body.participants = .ok () := by
  have hPassed := Sample.passed id (by decide) (by rfl)
  have hAccepted := subset_accepted Sample.web_bases hPassed (fun _ => "") Sample.probe
    (.repeatByte 32 7) .Ethereum [] Sample.answer
  refine ⟨⟨2, ("https", "c2/sign"), signRequest (.repeatByte 32 7) .Ethereum []
    (Sample.backend.selected Sample.probe)⟩, List.mem_cons_self, ?_⟩
  obtain ⟨-, -, hSubset⟩ := hAccepted _ List.mem_cons_self
  refine hSubset (fun c _ => rfl) ?_
  intro c _ c' _ roster roster' hRoster hRoster' preimage preimage' _
  obtain rfl : _ = roster := Option.some.inj hRoster
  obtain rfl : _ = roster' := Option.some.inj hRoster'
  rfl

/-- Two swapped urls pass the pre-flight, as nothing in it names a party, and the
cosigner behind the first of them refuses the subset it is posted. -/
theorem subset_mislabelled :
    PassedFleet Sample.backend Eth.Sample.alloy (FixedBytes.repeatByte 32) Sample.parseVk
        (fun body => body.error) Sample.swapped (Sample.rosters Sample.swapped) ∧
      ∃ p ∈ (Sample.backend.sign (fun _ => "") Sample.probe (.repeatByte 32 7) .Ethereum []
          Sample.answer).1, ∃ roster, (Sample.swapped p.party).roster = some roster ∧
        checkSubset (Sample.swapped p.party) roster.length p.body.participants =
          .error (.InvalidSubset "party 0 is not in [1, 2]") := by
  have hPassed := Sample.passed
    (fun label => if label = 0 then 1 else if label = 1 then 0 else label) (by decide) (by rfl)
  refine ⟨hPassed, ?_⟩
  refine ⟨⟨1, ("https", "c1/sign"), signRequest (.repeatByte 32 7) .Ethereum []
    (Sample.backend.selected Sample.probe)⟩, List.mem_cons_of_mem _ List.mem_cons_self, ?_⟩
  refine ⟨_, rfl, ?_⟩
  have hSorted : (signRequest (.repeatByte 32 7) .Ethereum []
      (Sample.backend.selected Sample.probe)).participants = [1, 2] := by
    show ([2, 1] : List UInt8).mergeSort (· ≤ ·) = [1, 2]
    simp [List.mergeSort, List.MergeSort.Internal.splitInTwo]
  simp only [hSorted]
  decide +kernel

end Sovra.Ipc
