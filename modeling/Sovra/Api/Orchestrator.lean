import Sovra.Ipc.Fleet
import Sovra.Ipc.Veto

/-!
# Sovra — startup recovery

`sovra-api`'s `orchestrator.rs`: `recover_active` rebuilds the active public key
from what the reachable cosigners report. It wants `threshold` reports, and
`threshold` of them agreeing if any holds a key. A boot is one set of answers;
two boots of one fleet differ in who was reachable.

* `recoverActive_ok`   — when recovery succeeds, in terms of the reports.
* `boot_reports`       — the reports of a boot are the reachable stores.
* `recover_one_answer` — two quorums that overlap recover the same value.
-/

namespace Sovra.Api

open Lib Mpc State Ipc Cosigner

/-- `RecoverError`. -/
inductive RecoverError
  | Inconsistent (reports : List (UInt8 × Option PubkeySec1))
  | Transport (reachable required : Nat) (detail : String)
deriving DecidableEq

-- ---------------------------------------------------------------------------
-- Recovery
-- ---------------------------------------------------------------------------

section

variable (W : Web) (answer : UInt8 → Sent PublicKeyInfo)

/-- One probe: a report, if the cosigner answered. -/
def report (c : UInt8 × W.Url) : Option (UInt8 × Option PubkeySec1) :=
  match fetchSigner W c.2 (answer c.1) with
  | .ok held => some (c.1, held)
  | .error _ => none

/-- The line on a cosigner that did not. -/
def silence (c : UInt8 × W.Url) : Option String :=
  match fetchSigner W c.2 (answer c.1) with
  | .ok _ => none
  | .error (.Http msg) => some ("cosigner" ++ displayParty c.1 ++
      ": cosigner http request failed: " ++ msg)
  | .error (.Config msg) => some ("cosigner" ++ displayParty c.1 ++
      ": cosigner set misconfigured: " ++ msg)
  | .error (.PlainScheme url expected) => some ("cosigner" ++ displayParty c.1 ++ ": " ++ url ++
      ": internal peers must be reached over " ++ expected ++ " — plaintext is refused")

/-- The reports that hold a key. -/
def somes (reports : List (UInt8 × Option PubkeySec1)) : List (UInt8 × PubkeySec1) :=
  reports.filterMap fun r => r.2.map (r.1, ·)

/-- `recover_active`: it probes everybody, wants `threshold` reports, and, if any
names a key, `threshold` of them naming the same. -/
def recoverActive (cosigners : List (UInt8 × W.Url)) (threshold : Nat) :
    Except RecoverError (Option PubkeySec1) :=
  let reports := cosigners.filterMap (report W answer)
  if reports.length < threshold then
    .error (.Transport reports.length threshold
      ("; ".intercalate (cosigners.filterMap (silence W answer))))
  else
    match somes reports with
    | [] => .ok none
    | (party, consensus) :: rest =>
      if ((party, consensus) :: rest).length < threshold ∨
          ∃ r ∈ (party, consensus) :: rest, r.2 ≠ consensus then
        .error (.Inconsistent reports)
      else .ok (some consensus)

end

-- ---------------------------------------------------------------------------
-- When recovery succeeds
-- ---------------------------------------------------------------------------

/-- `somes` keeps the reports that name a key. -/
theorem mem_somes {reports : List (UInt8 × Option PubkeySec1)} {party : UInt8} {pk : PubkeySec1} :
    (party, pk) ∈ somes reports ↔ (party, some pk) ∈ reports := by
  simp only [somes, List.mem_filterMap, Option.map_eq_some_iff, Prod.mk.injEq]
  constructor
  · rintro ⟨⟨p, held⟩, hr, pk', hHeld, rfl, rfl⟩
    rwa [← show held = some pk' from hHeld]
  · intro h
    exact ⟨(party, some pk), h, pk, rfl, rfl, rfl⟩

/-- `somes` has an entry for each report that names a key. -/
theorem somes_length (reports : List (UInt8 × Option PubkeySec1)) :
    (somes reports).length = reports.countP fun r => r.2.isSome := by
  induction reports with
  | nil => rfl
  | cons r rest ih =>
    obtain ⟨party, _ | pk⟩ := r
    · simpa [somes] using ih
    · simpa [somes] using ih

section

variable {W : Web} {answer : UInt8 → Sent PublicKeyInfo} {cosigners : List (UInt8 × W.Url)}
  {threshold : Nat}

/-- Nothing comes back exactly where enough cosigners report and none reports a key. -/
theorem recoverActive_none :
    recoverActive W answer cosigners threshold = .ok none ↔
      threshold ≤ (cosigners.filterMap (report W answer)).length ∧
        ∀ r ∈ cosigners.filterMap (report W answer), r.2 = none := by
  have hNil : somes (cosigners.filterMap (report W answer)) = [] ↔
      ∀ r ∈ cosigners.filterMap (report W answer), r.2 = none := by
    rw [List.eq_nil_iff_forall_not_mem]
    constructor
    · rintro h ⟨party, _ | pk⟩ hr
      · rfl
      · exact absurd (mem_somes.mpr hr) (h (party, pk))
    · rintro h ⟨party, pk⟩ hr
      simpa using h _ (mem_somes.mp hr)
  unfold recoverActive
  simp only
  split
  · -- too few reports: an error, and the condition fails
    rename_i hFew
    simp only [reduceCtorEq, false_iff, not_and]
    omega
  rename_i hEnough
  split
  · -- nobody reports a key
    rename_i hSomes
    simp only [true_iff]
    exact ⟨by omega, hNil.mp hSomes⟩
  · -- somebody does: no end of this branch is `none`
    rename_i party consensus rest hSomes
    have hNot : ¬ ∀ r ∈ cosigners.filterMap (report W answer), r.2 = none := by
      intro h
      rw [hNil.mpr h] at hSomes
      cases hSomes
    refine ⟨fun h => ?_, fun h => absurd h.2 hNot⟩
    split at h <;> simp at h

/-- A key comes back exactly where enough cosigners report one, and all who do
report that one. -/
theorem recoverActive_some {pk : PubkeySec1} (hPos : 0 < threshold) :
    recoverActive W answer cosigners threshold = .ok (some pk) ↔
      threshold ≤ (cosigners.filterMap (report W answer)).countP (fun r => r.2.isSome) ∧
        ∀ r ∈ cosigners.filterMap (report W answer), ∀ held, r.2 = some held → held = pk := by
  have hCount := somes_length (cosigners.filterMap (report W answer))
  have hLe : (cosigners.filterMap (report W answer)).countP (fun r => r.2.isSome) ≤
      (cosigners.filterMap (report W answer)).length := List.countP_le_length
  unfold recoverActive
  simp only
  split
  · -- too few reports, so too few that name a key
    rename_i hFew
    simp only [reduceCtorEq, false_iff, not_and]
    omega
  split
  · -- enough, but nobody names a key
    rename_i hSomes
    rw [hSomes, List.length_nil] at hCount
    simp only [Except.ok.injEq, reduceCtorEq, false_iff, not_and]
    omega
  · rename_i party consensus rest hSomes
    rw [hSomes] at hCount
    have hHead : (party, some consensus) ∈ cosigners.filterMap (report W answer) :=
      mem_somes.mp (hSomes ▸ List.mem_cons_self)
    split
    · -- too few name one, or one of them names another than the first
      rename_i hBad
      simp only [reduceCtorEq, false_iff, not_and]
      intro hEnough hAll
      rcases hBad with hFew | ⟨⟨p, held⟩, hr, hNe⟩
      · omega
      · have hHeld := hAll _ (mem_somes.mp (hSomes ▸ hr)) held rfl
        have hConsensus := hAll _ hHead consensus rfl
        exact hNe (hHeld.trans hConsensus.symm)
    · -- enough do, and all of them what the first does
      rename_i hGood
      rw [not_or] at hGood
      push Not at hGood
      obtain ⟨hEnough, hSame⟩ := hGood
      simp only [Except.ok.injEq, Option.some.injEq]
      constructor
      · rintro rfl
        refine ⟨by omega, ?_⟩
        rintro ⟨p, held⟩ hr held' rfl
        exact hSame (p, held') (hSomes ▸ mem_somes.mpr hr)
      · rintro ⟨-, hAll⟩
        exact hAll _ hHead consensus rfl

end

-- ---------------------------------------------------------------------------
-- Boots of one fleet
-- ---------------------------------------------------------------------------

/-- A boot of the fleet whose stores hold `held`: the cosigners in `up` answer
`GET /signer` from their stores, every other probe fails. -/
structure Boot (W : Web) (A : Eth.Alloy) (render : Cosigner.ErrorBody → String)
    (held : UInt8 → Option PubkeySec1) (cosigners : List (UInt8 × W.Url)) (up : UInt8 → Bool)
    (answer : UInt8 → Sent PublicKeyInfo) : Prop where
  reached : ∀ c ∈ cosigners, up c.1 = true →
    answer c.1 = .ok (respond A render (signerOf (.ok (held c.1))))
  cut : ∀ c ∈ cosigners, up c.1 = false → ∃ e, fetchSigner W c.2 (answer c.1) = .error e

/-- Such a boot's answers. -/
def bootAnswer (A : Eth.Alloy) (render : Cosigner.ErrorBody → String)
    (held : UInt8 → Option PubkeySec1) (up : UInt8 → Bool) (party : UInt8) : Sent PublicKeyInfo :=
  if up party then .ok (respond A render (signerOf (.ok (held party))))
  else .error "connection refused"

/-- They are a boot: whoever is up answers, whoever is not cannot be reached. -/
theorem boot_bootAnswer {W : Web} (A : Eth.Alloy) (render : Cosigner.ErrorBody → String)
    (held : UInt8 → Option PubkeySec1) {cosigners : List (UInt8 × W.Url)} (up : UInt8 → Bool)
    (hBases : ∀ c ∈ cosigners, ∃ joined, W.join c.2 "signer" = .ok joined) :
    Boot W A render held cosigners up (bootAnswer A render held up) := by
  refine ⟨fun c _ hUp => if_pos hUp, ?_⟩
  intro c hc hDown
  obtain ⟨joined, hJoin⟩ := hBases c hc
  refine ⟨.Http "connection refused", ?_⟩
  simp [fetchSigner, hJoin, bootAnswer, hDown]

/-- The same result, but for the order in which cosigners are listed in it. -/
inductive SameOutcome : Except RecoverError (Option PubkeySec1) →
    Except RecoverError (Option PubkeySec1) → Prop
  | ok (value : Option PubkeySec1) : SameOutcome (.ok value) (.ok value)
  | inconsistent {reports reports' : List (UInt8 × Option PubkeySec1)}
      (hPerm : reports.Perm reports') :
      SameOutcome (.error (.Inconsistent reports)) (.error (.Inconsistent reports'))
  | transport (reachable required : Nat) (detail detail' : String) :
      SameOutcome (.error (.Transport reachable required detail))
        (.error (.Transport reachable required detail'))

section

variable {W : Web} {A : Eth.Alloy} {render : Cosigner.ErrorBody → String}
  {held : UInt8 → Option PubkeySec1} {cosigners : List (UInt8 × W.Url)} {up : UInt8 → Bool}
  {answer : UInt8 → Sent PublicKeyInfo} {threshold : Nat}

/-- The reports of a boot are the stores of those that are up, in the configured
order. -/
theorem boot_reports (hBases : ∀ c ∈ cosigners, ∃ joined, W.join c.2 "signer" = .ok joined)
    (hBoot : Boot W A render held cosigners up answer) :
    cosigners.filterMap (report W answer) =
      (cosigners.filter fun c => up c.1).map fun c => (c.1, held c.1) := by
  -- cosigner by cosigner: who is down reports nothing, who is up his store
  induction cosigners with
  | nil => rfl
  | cons c rest ih =>
    have hRest := ih (fun c hc => hBases c (List.mem_cons_of_mem _ hc))
      ⟨fun c hc => hBoot.reached c (List.mem_cons_of_mem _ hc),
        fun c hc => hBoot.cut c (List.mem_cons_of_mem _ hc)⟩
    have hBase := hBases c List.mem_cons_self
    rcases hUp : up c.1 with _ | _
    · obtain ⟨e, hFetch⟩ := hBoot.cut c List.mem_cons_self hUp
      have hReport : report W answer c = none := by simp [report, hFetch]
      rw [List.filterMap_cons_none hReport, List.filter_cons_of_neg (by simp [hUp]), hRest]
    · have hAnswer := hBoot.reached c List.mem_cons_self hUp
      have hReport : report W answer c = some (c.1, held c.1) := by
        simp only [report, hAnswer, fetchSigner_respond hBase]
      rw [List.filterMap_cons_some hReport, List.filter_cons_of_pos (by simp [hUp]),
        List.map_cons, hRest]

/-- Who is up and holds a key, in numbers. -/
theorem boot_counts (held : UInt8 → Option PubkeySec1) (cosigners : List (UInt8 × W.Url))
    (up : UInt8 → Bool) :
    ((cosigners.filter fun c => up c.1).map fun c => (c.1, held c.1)).length =
        cosigners.countP (fun c => up c.1) ∧
      ((cosigners.filter fun c => up c.1).map fun c => (c.1, held c.1)).countP
          (fun r => r.2.isSome) =
        cosigners.countP (fun c => up c.1 && (held c.1).isSome) := by
  constructor
  · rw [List.length_map, List.countP_eq_length_filter]
  · rw [List.countP_map, List.countP_filter]
    refine List.countP_congr fun c _ => ?_
    simp [and_comm]

/-- **Recovery, over a boot**: a key comes back if at least `threshold` of those
up hold one and all of these hold that one; nothing, if at least `threshold`
are up and none holds a key. -/
theorem recoverActive_boot (hPos : 0 < threshold)
    (hBases : ∀ c ∈ cosigners, ∃ joined, W.join c.2 "signer" = .ok joined)
    (hBoot : Boot W A render held cosigners up answer) :
    (∀ pk, recoverActive W answer cosigners threshold = .ok (some pk) ↔
      threshold ≤ cosigners.countP (fun c => up c.1 && (held c.1).isSome) ∧
        ∀ c ∈ cosigners, up c.1 = true → ∀ pk', held c.1 = some pk' → pk' = pk) ∧
    (recoverActive W answer cosigners threshold = .ok none ↔
      threshold ≤ cosigners.countP (fun c => up c.1) ∧
        ∀ c ∈ cosigners, up c.1 = true → held c.1 = none) := by
  obtain ⟨hLength, hSome⟩ := boot_counts held cosigners up
  constructor
  · -- what the reports say, in terms of the stores of those that are up
    intro pk
    rw [recoverActive_some hPos, boot_reports hBases hBoot, hSome]
    refine and_congr_right fun _ => ?_
    simp only [List.mem_map, List.mem_filter, forall_exists_index, and_imp]
    constructor
    · intro h c hc hUp
      exact h _ c hc hUp rfl
    · rintro h _ c hc hUp rfl
      exact h c hc hUp
  · rw [recoverActive_none, boot_reports hBases hBoot, hLength]
    refine and_congr_right fun _ => ?_
    simp only [List.mem_map, List.mem_filter, forall_exists_index, and_imp]
    constructor
    · intro h c hc hUp
      exact h _ c hc hUp rfl
    · rintro h _ c hc hUp rfl
      exact h c hc hUp

/-- The three ways recovery can end, and on what. -/
theorem recoverActive_cases (W : Web) (answer : UInt8 → Sent PublicKeyInfo)
    (cosigners : List (UInt8 × W.Url)) (threshold : Nat) :
    let reports := cosigners.filterMap (report W answer)
    let result := recoverActive W answer cosigners threshold
    (reports.length < threshold ∧
        ∃ detail, result = .error (.Transport reports.length threshold detail)) ∨
      (threshold ≤ reports.length ∧
        (result = .error (.Inconsistent reports) ∨ ∃ value, result = .ok value)) := by
  intro reports result
  by_cases hFew : reports.length < threshold
  · exact Or.inl ⟨hFew, _, if_pos hFew⟩
  refine Or.inr ⟨by omega, ?_⟩
  show recoverActive W answer cosigners threshold = _ ∨
    ∃ value, recoverActive W answer cosigners threshold = .ok value
  unfold recoverActive
  simp only
  split
  · rename_i hShort
    exact absurd hShort hFew
  split
  · exact Or.inr ⟨_, rfl⟩
  · split
    · exact Or.inl rfl
    · exact Or.inr ⟨_, rfl⟩

/-- The order in which cosigners are configured decides nothing. -/
theorem recoverActive_perm {cosigners' : List (UInt8 × W.Url)} (hPos : 0 < threshold)
    (hPerm : cosigners'.Perm cosigners) :
    SameOutcome (recoverActive W answer cosigners' threshold)
      (recoverActive W answer cosigners threshold) := by
  have hReports : (cosigners'.filterMap (report W answer)).Perm
      (cosigners.filterMap (report W answer)) := hPerm.filterMap _
  -- that it succeeds, and with what, is told by counting and membership
  have hOk : ∀ value, recoverActive W answer cosigners' threshold = .ok value ↔
      recoverActive W answer cosigners threshold = .ok value := by
    intro value
    rcases value with _ | pk
    · simp only [recoverActive_none, hReports.length_eq, hReports.mem_iff]
    · simp only [recoverActive_some hPos, hReports.countP_eq, hReports.mem_iff]
  have hLength := hReports.length_eq
  rcases recoverActive_cases W answer cosigners' threshold with
    ⟨hFew', detail', hEq'⟩ | ⟨hEnough', hEnd'⟩
  · rcases recoverActive_cases W answer cosigners threshold with
      ⟨-, detail, hEq⟩ | ⟨hEnough, -⟩
    · rw [hEq', hEq, hLength]
      exact .transport _ _ detail' detail
    · omega
  · rcases recoverActive_cases W answer cosigners threshold with ⟨hFew, -⟩ | ⟨-, hEnd⟩
    · omega
    rcases hEnd' with hEq' | ⟨value, hEq'⟩
    · rcases hEnd with hEq | ⟨value, hEq⟩
      · rw [hEq', hEq]
        exact .inconsistent hReports
      · rw [(hOk value).mpr hEq] at hEq'
        cases hEq'
    · rw [hEq', (hOk value).mp hEq']
      exact .ok value

/-- Two disjoint conditions do not both hold of more than half of a list. -/
theorem countP_add_countP_le {α : Type} {p q : α → Bool} {l : List α}
    (h : ∀ a ∈ l, p a = true → q a = false) : l.countP p + l.countP q ≤ l.length := by
  have hSplit := List.length_eq_countP_add_countP q (l := l)
  have hLe : l.countP p ≤ l.countP (fun a => ¬ q a) := by
    refine List.countP_mono_left fun a ha hp => ?_
    simp [h a ha hp]
  omega

/-- Where any two quorums overlap, two boots recover the same. -/
theorem recover_agree {up' : UInt8 → Bool} {answer' : UInt8 → Sent PublicKeyInfo}
    (hPos : 0 < threshold) (hMajority : cosigners.length < 2 * threshold)
    (hBases : ∀ c ∈ cosigners, ∃ joined, W.join c.2 "signer" = .ok joined)
    (hBoot : Boot W A render held cosigners up answer)
    (hBoot' : Boot W A render held cosigners up' answer') {value value' : Option PubkeySec1}
    (h : recoverActive W answer cosigners threshold = .ok value)
    (h' : recoverActive W answer' cosigners threshold = .ok value') : value = value' := by
  obtain ⟨hSome, hNone⟩ := recoverActive_boot hPos hBases hBoot
  obtain ⟨hSome', hNone'⟩ := recoverActive_boot hPos hBases hBoot'
  have hClash : ∀ p q : UInt8 × W.Url → Bool, (∀ c ∈ cosigners, p c = true → q c = false) →
      threshold ≤ cosigners.countP p → ¬ threshold ≤ cosigners.countP q := by
    intro p q hDisjoint hp hq
    have hSum := countP_add_countP_le hDisjoint
    omega
  rcases value with _ | pk <;> rcases value' with _ | pk'
  · rfl
  · -- the key's holders and the empty stores of the other boot are disjoint
    obtain ⟨hCount, hEmpty⟩ := hNone.mp h
    obtain ⟨hCount', -⟩ := (hSome' pk').mp h'
    refine absurd hCount' (hClash _ _ ?_ hCount)
    intro c hc hUp
    simp [hEmpty c hc hUp]
  · obtain ⟨hCount, -⟩ := (hSome pk).mp h
    obtain ⟨hCount', hEmpty'⟩ := hNone'.mp h'
    refine absurd hCount (hClash _ _ ?_ hCount')
    intro c hc hUp
    simp [hEmpty' c hc hUp]
  · obtain ⟨hCount, hKey⟩ := (hSome pk).mp h
    obtain ⟨hCount', hKey'⟩ := (hSome' pk').mp h'
    by_contra hNe
    refine absurd hCount' (hClash _ _ ?_ hCount)
    intro c hc hHolds
    obtain ⟨hUp, hHeld⟩ := Bool.and_eq_true_iff.mp hHolds
    obtain ⟨k, hk⟩ := Option.isSome_iff_exists.mp hHeld
    rcases hUp' : up' c.1 with _ | _
    · rfl
    · exact absurd (by rw [← hKey c hc hUp k hk, ← hKey' c hc hUp' k hk]) hNe

end

/-- **Startup recovery.** A boot recovers a key exactly if at least `threshold`
of the reachable cosigners hold one and every reachable key is that key, and
nothing exactly if at least `threshold` are reachable and none holds a key; the
configured order decides nothing; and where more than half of the cosigners
are needed, any two boots of one fleet that recover at all recover the same. -/
theorem recover_one_answer {W : Web} (hW : W.Bases) (A : Eth.Alloy)
    (render : Cosigner.ErrorBody → String) (b : RemoteBackend W) (held : UInt8 → Option PubkeySec1) :
    (∀ up up' answer answer', Boot W A render held b.cosigners up answer →
      Boot W A render held b.cosigners up' answer' → b.cosigners.length < 2 * b.threshold →
      ∀ value value', recoverActive W answer b.cosigners b.threshold = .ok value →
        recoverActive W answer' b.cosigners b.threshold = .ok value' → value = value') ∧
    (∀ answer cosigners', cosigners'.Perm b.cosigners →
      SameOutcome (recoverActive W answer cosigners' b.threshold)
        (recoverActive W answer b.cosigners b.threshold)) ∧
    (∀ up answer, Boot W A render held b.cosigners up answer →
      (∀ pk, recoverActive W answer b.cosigners b.threshold = .ok (some pk) ↔
        b.threshold ≤ b.cosigners.countP (fun c => up c.1 && (held c.1).isSome) ∧
          ∀ c ∈ b.cosigners, up c.1 = true → ∀ pk', held c.1 = some pk' → pk' = pk) ∧
      (recoverActive W answer b.cosigners b.threshold = .ok none ↔
        b.threshold ≤ b.cosigners.countP (fun c => up c.1) ∧
          ∀ c ∈ b.cosigners, up c.1 = true → held c.1 = none)) := by
  have hTwo := b.two_le
  have hPos : 0 < b.threshold := by omega
  -- cosigner urls are https, so `signer` can be joined to them
  have hBases : ∀ c ∈ b.cosigners, ∃ joined, W.join c.2 "signer" = .ok joined :=
    fun c hc => hW c.2 "signer" (b.https c hc) (by simp)
  refine ⟨?_, fun answer cosigners' hPerm => recoverActive_perm hPos hPerm,
    fun up answer hBoot => recoverActive_boot hPos hBases hBoot⟩
  intro up up' answer answer' hBoot hBoot' hMajority value value' h h'
  exact recover_agree hPos hMajority hBases hBoot hBoot' h h'

namespace Sample

/-- A 2-of-4. -/
def fleet : RemoteBackend Ipc.Sample.web where
  cosigners := [(0, ("https", "c0/")), (1, ("https", "c1/")), (2, ("https", "c2/")),
    (3, ("https", "c3/"))]
  threshold := 2
  nodup := by decide
  https := by decide
  two_le := Ipc.Sample.two_le
  le_length := by decide

/-- The stores of a fleet half of which has been provisioned. -/
def held (party : UInt8) : Option PubkeySec1 := if party < 2 then some Eth.Sample.pubkey else none

/-- A boot with these cosigners reachable. -/
def boot (up : UInt8 → Bool) : Except RecoverError (Option PubkeySec1) :=
  recoverActive Ipc.Sample.web (bootAnswer Eth.Sample.alloy (fun _ => "") held up) fleet.cosigners
    fleet.threshold

end Sample

theorem Sample.boot_boot (up : UInt8 → Bool) : Boot Ipc.Sample.web Eth.Sample.alloy (fun _ => "")
    Sample.held Sample.fleet.cosigners up
    (bootAnswer Eth.Sample.alloy (fun _ => "") Sample.held up) :=
  boot_bootAnswer _ _ _ _ fun _ _ => ⟨_, rfl⟩

/-- With cosigners 0 and 1 reachable the 2-of-4 recovers its key, with 2 and 3
reachable it starts as a fresh install. -/
theorem recover_two_answers :
    RemoteBackend.new Ipc.Sample.web Sample.fleet.cosigners 2 = .ok Sample.fleet ∧
      Sample.boot (· < 2) = .ok (some Eth.Sample.pubkey) ∧ Sample.boot (2 ≤ ·) = .ok none ∧
      ¬ ∀ up up' answer answer',
        Boot Ipc.Sample.web Eth.Sample.alloy (fun _ => "") Sample.held Sample.fleet.cosigners up
          answer →
        Boot Ipc.Sample.web Eth.Sample.alloy (fun _ => "") Sample.held Sample.fleet.cosigners up'
          answer' →
        ∀ value value',
          recoverActive Ipc.Sample.web answer Sample.fleet.cosigners 2 = .ok value →
          recoverActive Ipc.Sample.web answer' Sample.fleet.cosigners 2 = .ok value' →
          value = value' := by
  have hKey : Sample.boot (· < 2) = .ok (some Eth.Sample.pubkey) := by decide +kernel
  have hFresh : Sample.boot (2 ≤ ·) = .ok none := by decide +kernel
  refine ⟨rfl, hKey, hFresh, ?_⟩
  intro hOne
  have hSame := hOne _ _ _ _ (Sample.boot_boot (· < 2)) (Sample.boot_boot (2 ≤ ·)) _ _ hKey hFresh
  cases hSame

/-- A boot of the 2-of-3, of which only cosigners 0 and 1 hold the key. -/
def Sample.restart (up : UInt8 → Bool) : Except RecoverError (Option PubkeySec1) :=
  recoverActive Ipc.Sample.web (bootAnswer Eth.Sample.alloy (fun _ => "") Sample.held up)
    Ipc.Sample.backend.cosigners Ipc.Sample.backend.threshold

theorem Sample.restart_boot (up : UInt8 → Bool) : Boot Ipc.Sample.web Eth.Sample.alloy
    (fun _ => "") Sample.held Ipc.Sample.backend.cosigners up
    (bootAnswer Eth.Sample.alloy (fun _ => "") Sample.held up) :=
  boot_bootAnswer _ _ _ _ fun _ _ => ⟨_, rfl⟩

/-- The 2-of-3 recovers its key without cosigner 2, so it can recover nothing else
with it; it does recover, in either order of the cosigners, and not without
cosigner 1. -/
theorem recover_one_answer_twice :
    Sample.restart (· ≠ 2) = .ok (some Eth.Sample.pubkey) ∧
      Sample.restart (fun _ => true) = .ok (some Eth.Sample.pubkey) ∧
      SameOutcome (recoverActive Ipc.Sample.web
          (bootAnswer Eth.Sample.alloy (fun _ => "") Sample.held fun _ => true)
          Ipc.Sample.backend.cosigners.reverse 2) (.ok (some Eth.Sample.pubkey)) ∧
      Sample.restart (· ≠ 1) ≠ .ok (some Eth.Sample.pubkey) := by
  obtain ⟨hOne, hOrder, hExact⟩ := recover_one_answer Ipc.Sample.web_bases Eth.Sample.alloy
    (fun _ => "") Ipc.Sample.backend Sample.held
  have hFirst : Sample.restart (· ≠ 2) = .ok (some Eth.Sample.pubkey) := by decide +kernel
  obtain ⟨value, hSecond⟩ : ∃ value, Sample.restart (fun _ => true) = .ok value := ⟨_, rfl⟩
  obtain rfl := hOne _ _ _ _ (Sample.restart_boot (· ≠ 2)) (Sample.restart_boot fun _ => true)
    (by decide) _ _ hFirst hSecond
  refine ⟨hFirst, hSecond, ?_, fun hRecovered => ?_⟩
  · rw [← hSecond]
    exact hOrder _ _ (List.reverse_perm _)
  · -- only cosigner 0 is reachable with a key
    obtain ⟨hCount, -⟩ :=
      ((hExact _ _ (Sample.restart_boot (· ≠ 1))).1 Eth.Sample.pubkey).mp hRecovered
    exact absurd hCount (by decide +kernel)

end Sovra.Api
