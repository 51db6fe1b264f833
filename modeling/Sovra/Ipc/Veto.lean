import Sovra.Api.Handlers
import Sovra.Cosigner.Service
import Sovra.Ipc.Remote

/-!
# Sovra — vetoes are final

From selection to the API's answer: who is asked to sign depends on readiness
alone, one veto among the asked decides the outcome, and a signature means that
every asked cosigner answered it. With cosigners that answer as
`Cosigner.Service` does, a signed transaction is one all their policies permit.

* `broadcast_vetoes` — the vetoes of a broadcast, one for each vetoing target.
* `veto_final` — selection, veto and agreement for one `sign` call.
-/

namespace Sovra.Ipc

open Lib Mpc

variable {W : Web}

/-- The cosigners a `sign` call asks: the first `threshold` ready ones, nobody
when fewer are ready. -/
def RemoteBackend.selected (b : RemoteBackend W) (probe : UInt8 → Except String Nat) :
    List (UInt8 × W.Url) :=
  let ready := b.cosigners.filter (isReady W probe)
  if ready.length < b.threshold then [] else ready.take b.threshold

/-- The reason of an answer that is a 403. -/
def vetoReason {T : Type} (W : Web) : Sent T → Option String
  | .error _ => none
  | .ok resp =>
    if resp.status = 403 then some ((W.jsonReason (resp.text.getD "")).getD (resp.text.getD ""))
    else none

/-- The backend reports its cosigner's own service: a success only for a request
that service answered with signatures. -/
def Honest (A : Eth.Alloy) {C : Crypto} (st : Cosigner.CosignerState C)
    (publicKeyOf : KeyShare → Except MpcError PubkeySec1) (req : StartSignRequest)
    (sent : Sent SignaturesInfo) : Prop :=
  ∀ resp, sent = .ok resp → isSuccess resp.status = true →
    ∃ dir w id reply, (Cosigner.service A st publicKeyOf).Reach (World.init ⟨dir, false⟩) w ∧
      w.requests id = some (.sign req) ∧ w.answers id = some (.ok reply)

-- ---------------------------------------------------------------------------
-- One answer
-- ---------------------------------------------------------------------------

/-- A veto is read as a rejection by that cosigner. -/
theorem readAnswer_veto {T : Type} {party : UInt8} {path : String} {sent : Sent T}
    {reason : String} (h : vetoReason W sent = some reason) :
    readAnswer W party path sent = .error (.rejected [⟨party, reason⟩]) := by
  rcases sent with e | resp
  · simp [vetoReason] at h
  · simp only [vetoReason] at h
    split at h
    · rename_i hStatus
      rw [Option.some.injEq] at h
      simp [readAnswer, hStatus, h]
    · simp at h

/-- Nothing but a veto is read as a rejection. -/
theorem readAnswer_other {T : Type} {party : UInt8} {path : String} {sent : Sent T}
    (h : vetoReason W sent = none) : ∀ vetoes, readAnswer W party path sent ≠
      .error (.rejected vetoes) := by
  intro vetoes
  rcases sent with e | resp
  · simp [readAnswer]
  · simp only [vetoReason] at h
    split at h
    · simp at h
    -- not the veto's status: a success, or an error that is no rejection
    rename_i hStatus
    simp only [readAnswer, if_neg hStatus]
    split
    · simp
    · intro hEq
      obtain ⟨e, -, hError⟩ := mapError_eq_error.mp hEq
      simp at hError

/-- A value was answered with a success. -/
theorem readAnswer_ok {T : Type} {party : UInt8} {path : String} {sent : Sent T} {value : T}
    (h : readAnswer W party path sent = .ok value) :
    ∃ resp, sent = .ok resp ∧ isSuccess resp.status = true ∧ resp.json = .ok value := by
  rcases sent with e | resp
  · simp [readAnswer] at h
  · simp only [readAnswer] at h
    split at h
    · simp at h
    split at h
    · simp at h
    rename_i hSuccess
    exact ⟨resp, rfl, by simpa using hSuccess, mapError_eq_ok.mp h⟩

/-- So the vetoes of an answer are those the cosigner gave. -/
theorem vetoesOf_readAnswer {T : Type} (party : UInt8) (path : String) (sent : Sent T) :
    vetoesOf (party, readAnswer W party path sent) =
      ((vetoReason W sent).map (Veto.mk party)).toList := by
  rcases hVeto : vetoReason W sent with _ | reason
  · have hOther : ∀ vetoes, readAnswer W party path sent ≠ .error (.rejected vetoes) :=
      readAnswer_other hVeto
    rcases hAnswer : readAnswer W party path sent with e | value
    · rcases e with _ | _ | _ | _ | _ | _ | vetoes
      all_goals first
        | rfl
        | exact absurd hAnswer (hOther vetoes)
    · rfl
  · rw [readAnswer_veto hVeto]
    rfl

/-- A rejection names the cosigner that answered it. -/
theorem vetoesNamed_answers {T : Type} {targets : List (UInt8 × W.Url)} {path : String}
    {answer : UInt8 → Sent T} :
    VetoesNamed (targets.map fun t => (t.1, readAnswer W t.1 path (answer t.1))) := by
  intro r hr vetoes hRejected
  obtain ⟨t, -, rfl⟩ := List.mem_map.mp hr
  rcases hVeto : vetoReason W (answer t.1) with _ | reason
  · exact absurd hRejected (readAnswer_other hVeto vetoes)
  · simp only [readAnswer_veto hVeto, Except.error.injEq, MpcError.rejected.injEq] at hRejected
    simp [← hRejected]

-- ---------------------------------------------------------------------------
-- Sorting vetoes
-- ---------------------------------------------------------------------------

/-- Sorting loses no veto. -/
theorem mem_sortByParty {vetoes : List Veto} {v : Veto} : v ∈ sortByParty vetoes ↔ v ∈ vetoes :=
  List.mem_mergeSort

/-- Vetoes of distinct parties are sorted strictly. -/
theorem sortByParty_pairwise {vetoes : List Veto} (h : (vetoes.map Veto.party).Nodup) :
    (sortByParty vetoes).Pairwise fun v w => v.party < w.party := by
  have hSorted : (sortByParty vetoes).Pairwise fun v w => decide (v.party ≤ w.party) = true := by
    refine List.pairwise_mergeSort ?_ ?_ vetoes
    · intro a b c hab hbc
      rw [decide_eq_true_eq] at *
      exact UInt8.le_trans hab hbc
    · intro a b
      rw [Bool.or_eq_true, decide_eq_true_eq, decide_eq_true_eq]
      exact UInt8.le_total a.party b.party
  have hDistinct : (sortByParty vetoes).Pairwise fun v w => v.party ≠ w.party := by
    have hPerm := (List.mergeSort_perm vetoes fun a b => decide (a.party ≤ b.party)).map Veto.party
    exact List.pairwise_map.mp (hPerm.nodup_iff.mpr h)
  refine hSorted.imp₂ ?_ hDistinct
  intro v w hLe hNe
  exact UInt8.lt_of_le_of_ne (of_decide_eq_true hLe) hNe

/-- One veto for each vetoing target, in target order. -/
theorem broadcast_vetoes {T : Type} {targets : List (UInt8 × W.Url)} {path : String}
    {answer : UInt8 → Sent T} :
    (targets.map fun t => (t.1, readAnswer W t.1 path (answer t.1))).flatMap vetoesOf =
      targets.filterMap fun t => (vetoReason W (answer t.1)).map (Veto.mk t.1) := by
  -- on the targets, one answer each
  induction targets with
  | nil => rfl
  | cons t rest ih =>
    rw [List.map_cons, List.flatMap_cons, ih, vetoesOf_readAnswer, List.filterMap_cons]
    rcases vetoReason W (answer t.1) with _ | reason <;> rfl

/-- Each party vetoes once at most. -/
theorem vetoes_nodup {T : Type} {targets : List (UInt8 × W.Url)} {answer : UInt8 → Sent T}
    (h : (targets.map Prod.fst).Nodup) :
    ((targets.filterMap fun t => (vetoReason W (answer t.1)).map (Veto.mk t.1)).map
      Veto.party).Nodup := by
  refine List.Nodup.sublist ?_ h
  rw [List.map_filterMap]
  -- on the targets: each adds at most the veto of its own party
  induction targets with
  | nil => exact List.Sublist.refl _
  | cons t rest ih =>
    have hRest := ih (List.nodup_cons.mp h).2
    rw [List.filterMap_cons, List.map_cons]
    rcases vetoReason W (answer t.1) with _ | reason
    · exact hRest.cons t.1
    · exact hRest.cons_cons t.1

-- ---------------------------------------------------------------------------
-- Selection
-- ---------------------------------------------------------------------------

section

variable {b : RemoteBackend W} {probe : UInt8 → Except String Nat}

/-- The selected are some of the cosigners, in preference order. -/
theorem selected_sublist : (b.selected probe).Sublist b.cosigners := by
  unfold RemoteBackend.selected
  simp only
  split
  · exact List.nil_sublist _
  · exact (List.take_sublist _ _).trans List.filter_sublist

/-- Nobody is selected twice. -/
theorem selected_nodup : ((b.selected probe).map Prod.fst).Nodup :=
  b.nodup.sublist (selected_sublist.map Prod.fst)

/-- The urls of the selected can be joined. -/
theorem selected_bases (hW : W.Bases) :
    ∀ t ∈ b.selected probe, ∃ joined, W.join t.2 "sign" = .ok joined := by
  intro t ht
  exact hW t.2 "sign" (b.https t (selected_sublist.subset ht)) (by simp)

/-- One call in terms of the selected: nobody and an error, or a broadcast. -/
theorem sign_eq (b : RemoteBackend W) (probe : UInt8 → Except String Nat)
    (debug : SignaturesInfo → String) (inst : B256) (network : NetworkId) (unsignedTx : Bytes)
    (answer : UInt8 → Sent SignaturesInfo) :
    (b.selected probe = [] ∧ ∃ e, b.sign debug probe inst network unsignedTx answer =
        ([], some (.error (.transport e)))) ∨
      ((b.selected probe).length = b.threshold ∧
        b.sign debug probe inst network unsignedTx answer =
          ((broadcast W debug (b.selected probe) "sign"
              (signRequest inst network unsignedTx (b.selected probe)) answer).1,
            (broadcast W debug (b.selected probe) "sign"
              (signRequest inst network unsignedTx (b.selected probe)) answer).2.map fun r =>
                r.map fun info => info.signatures.map SignParts.toEcdsa)) := by
  unfold RemoteBackend.sign RemoteBackend.selectSigners RemoteBackend.selected
  simp only
  by_cases hFew : (b.cosigners.filter (isReady W probe)).length < b.threshold
  · left
    simp only [if_pos hFew]
    exact ⟨trivial, _, rfl⟩
  · right
    simp only [if_neg hFew]
    refine ⟨?_, trivial⟩
    rw [List.length_take]
    exact min_eq_left (not_lt.mp hFew)

end

-- ---------------------------------------------------------------------------
-- One sign call
-- ---------------------------------------------------------------------------

/-- What the API does with a backend's rejection: 403 with the vetoes, nothing
cached. -/
theorem api_rejected (A : Eth.Alloy) (s : Api.SignerCell) (job : Api.SignJob)
    (vetoes : List Veto) :
    ∃ t e, Api.resume A s (.signBackend job) (.parts (.error (.rejected vetoes))) = some t ∧
      t.next = .inl (.error e) ∧ e.intoResponse = (403, ⟨"policy denied", some vetoes⟩) ∧
      t.shared.signed = s.signed ∧ t.effects = [] :=
  ⟨_, _, rfl, rfl, rfl, rfl, rfl⟩

section

variable {b : RemoteBackend W} {probe : UInt8 → Except String Nat}
  {debug : SignaturesInfo → String} {inst : B256} {network : NetworkId} {unsignedTx : Bytes}
  {answer : UInt8 → Sent SignaturesInfo}

/-- Everybody selected is posted to once, at its own `/sign`, nobody else. -/
theorem sign_posts (hW : W.Bases) :
    (b.sign debug probe inst network unsignedTx answer).1.map
        (fun p => (p.party, (Except.ok p.url : Except String W.Url), p.body)) =
      (b.selected probe).map fun c =>
        (c.1, W.join c.2 "sign", signRequest inst network unsignedTx (b.selected probe)) := by
  obtain ⟨hNone, e, hSign⟩ | ⟨-, hSign⟩ := sign_eq b probe debug inst network unsignedTx answer
  · rw [hSign, hNone]
    rfl
  · rw [hSign]
    exact broadcast_posts debug (selected_bases hW)

/-- A call always returns: nobody merges an empty broadcast. -/
theorem sign_returns (hW : W.Bases) :
    ∃ result, (b.sign debug probe inst network unsignedTx answer).2 = some result := by
  obtain ⟨-, e, hSign⟩ | ⟨hLength, hSign⟩ :=
    sign_eq b probe debug inst network unsignedTx answer
  · exact ⟨_, by rw [hSign]⟩
  have hTwo := b.two_le
  have hSomebody : (b.selected probe).map (fun t =>
      (t.1, readAnswer W t.1 "sign" (answer t.1))) ≠ [] := by
    rw [Ne, List.map_eq_nil_iff, ← List.length_eq_zero_iff]
    omega
  obtain ⟨result, hCombined⟩ := combine_isSome debug hSomebody vetoesNamed_answers
  refine ⟨result.map fun info => info.signatures.map SignParts.toEcdsa, ?_⟩
  rw [hSign]
  simp only
  rw [broadcast_result (selected_bases hW), hCombined]
  rfl

/-- A veto among the selected decides the call. -/
theorem sign_rejected (hW : W.Bases)
    (hVeto : ∃ c ∈ b.selected probe, (vetoReason W (answer c.1)).isSome = true) :
    ∃ vetoes, (b.sign debug probe inst network unsignedTx answer).2 =
        some (.error (.rejected vetoes)) ∧
      (vetoes.Pairwise fun v w => v.party < w.party) ∧
      ∀ v, v ∈ vetoes ↔ ∃ c ∈ b.selected probe, c.1 = v.party ∧
        vetoReason W (answer c.1) = some v.reason := by
  obtain ⟨c, hc, hSome⟩ := hVeto
  obtain ⟨reason, hReason⟩ := Option.isSome_iff_exists.mp hSome
  obtain ⟨hNone, -⟩ | ⟨-, hSign⟩ := sign_eq b probe debug inst network unsignedTx answer
  · simp [hNone] at hc
  -- the vetoes among the answers
  have hMem : ∀ v : Veto, v ∈ ((b.selected probe).filterMap fun t =>
      (vetoReason W (answer t.1)).map (Veto.mk t.1)) ↔
      ∃ c ∈ b.selected probe, c.1 = v.party ∧ vetoReason W (answer c.1) = some v.reason := by
    intro v
    obtain ⟨party, text⟩ := v
    simp only [List.mem_filterMap, Option.map_eq_some_iff, Veto.mk.injEq]
    constructor
    · rintro ⟨t, ht, r, hr, hParty, rfl⟩
      exact ⟨t, ht, hParty, hr⟩
    · rintro ⟨t, ht, hParty, hr⟩
      exact ⟨t, ht, text, hr, hParty, rfl⟩
  -- at least one of them is read as such, and that decides the call
  have hSomebody : ((b.selected probe).map fun t =>
      (t.1, readAnswer W t.1 "sign" (answer t.1))).flatMap vetoesOf ≠ [] := by
    rw [broadcast_vetoes]
    exact List.ne_nil_of_mem ((hMem ⟨c.1, reason⟩).mpr ⟨c, hc, rfl, hReason⟩)
  refine ⟨_, ?_, sortByParty_pairwise ?_, fun v => mem_sortByParty.trans (hMem v)⟩
  · rw [hSign]
    simp only
    rw [broadcast_result (selected_bases hW), combine_rejected hSomebody, broadcast_vetoes]
    rfl
  · exact vetoes_nodup selected_nodup

/-- Signatures come out only if all `threshold` selected answered them. -/
theorem sign_agreed (hW : W.Bases) {parts : List EcdsaParts}
    (h : (b.sign debug probe inst network unsignedTx answer).2 = some (.ok parts)) :
    (b.selected probe).length = b.threshold ∧
      ∃ info : SignaturesInfo, parts = info.signatures.map SignParts.toEcdsa ∧
        ∀ c ∈ b.selected probe, ∃ resp, answer c.1 = .ok resp ∧ isSuccess resp.status = true ∧
          resp.json = .ok info := by
  obtain ⟨-, e, hSign⟩ | ⟨hLength, hSign⟩ :=
    sign_eq b probe debug inst network unsignedTx answer
  · rw [hSign] at h
    simp at h
  refine ⟨hLength, ?_⟩
  rw [hSign] at h
  simp only at h
  rw [broadcast_result (selected_bases hW), Option.map_eq_some_iff] at h
  obtain ⟨result, hCombined, hParts⟩ := h
  obtain ⟨info, rfl, rfl⟩ := map_eq_ok.mp hParts
  refine ⟨info, rfl, ?_⟩
  intro c hc
  exact readAnswer_ok (combine_ok vetoesNamed_answers hCombined _
    (List.mem_map.mpr ⟨c, hc, rfl⟩))

/-- With honest cosigners every selected policy permits what was signed. -/
theorem sign_permitted (hW : W.Bases) {A : Eth.Alloy} {C : Crypto}
    {st : UInt8 → Cosigner.CosignerState C} {publicKeyOf : KeyShare → Except MpcError PubkeySec1}
    {parts : List EcdsaParts}
    (hHonest : ∀ c ∈ b.selected probe, Honest A (st c.1) publicKeyOf
      (signRequest inst network unsignedTx (b.selected probe)) (answer c.1))
    (h : (b.sign debug probe inst network unsignedTx answer).2 = some (.ok parts)) :
    ∃ tx, (∃ prepared, Eth.decodeUnsigned A unsignedTx = .ok prepared ∧ prepared.tx = tx) ∧
      ∀ c ∈ b.selected probe, (st c.1).policy.Permits tx := by
  obtain ⟨hLength, info, -, hAnswers⟩ := sign_agreed hW h
  have hSignable : ∀ c ∈ b.selected probe, ∃ tx, Cosigner.Signable A (st c.1)
      (signRequest inst network unsignedTx (b.selected probe)) tx := by
    intro c hc
    obtain ⟨resp, hAnswer, hSuccess, -⟩ := hAnswers c hc
    obtain ⟨dir, w, id, reply, hReach, hReq, hReply⟩ := hHonest c hc resp hAnswer hSuccess
    exact Cosigner.sign_answer hReach hReq hReply
  have hTwo := b.two_le
  obtain ⟨c₀, hc₀⟩ := List.exists_mem_of_length_pos (l := b.selected probe) (by omega)
  obtain ⟨tx, hSignable₀⟩ := hSignable c₀ hc₀
  refine ⟨tx, hSignable₀.decoded, ?_⟩
  intro c hc
  obtain ⟨tx', hSignable'⟩ := hSignable c hc
  -- all of them decoded the same bytes
  obtain ⟨p, hDecode, rfl⟩ := hSignable₀.decoded
  obtain ⟨p', hDecode', hTx'⟩ := hSignable'.decoded
  rw [hDecode, Except.ok.injEq] at hDecode'
  rw [hDecode', hTx']
  exact hSignable'.permitted

end

/-- **A veto is final and selection never depends on outcomes.** One `sign` call
of a backend posts to the `/sign` of the selected cosigners once each and to
nobody else, whatever they answer. If a selected one vetoes, the call is rejected with one
veto for each that does, ordered by id, and the API answers 403 with these and
caches nothing. It yields signatures only if all `threshold` selected answered
them, so with honest cosigners only if all their policies permit the
transaction. -/
theorem veto_final (hW : W.Bases) (b : RemoteBackend W) (debug : SignaturesInfo → String)
    (probe : UInt8 → Except String Nat) (inst : B256) (network : NetworkId) (unsignedTx : Bytes) :
    ((b.selected probe).map Prod.fst).Nodup ∧
    (∀ answer, (b.sign debug probe inst network unsignedTx answer).1.map
        (fun p => (p.party, (Except.ok p.url : Except String W.Url), p.body)) =
          (b.selected probe).map fun c =>
            (c.1, W.join c.2 "sign", signRequest inst network unsignedTx (b.selected probe))) ∧
    (∀ answer, ∃ result, (b.sign debug probe inst network unsignedTx answer).2 = some result) ∧
    (∀ answer, (∃ c ∈ b.selected probe, (vetoReason W (answer c.1)).isSome = true) →
      ∃ vetoes, (b.sign debug probe inst network unsignedTx answer).2 =
          some (.error (.rejected vetoes)) ∧
        (vetoes.Pairwise fun v w => v.party < w.party) ∧
        (∀ v, v ∈ vetoes ↔ ∃ c ∈ b.selected probe, c.1 = v.party ∧
          vetoReason W (answer c.1) = some v.reason) ∧
        ∀ A s job, ∃ t e,
          Api.resume A s (.signBackend job) (.parts (.error (.rejected vetoes))) = some t ∧
          t.next = .inl (.error e) ∧ e.intoResponse = (403, ⟨"policy denied", some vetoes⟩) ∧
          t.shared.signed = s.signed ∧ t.effects = []) ∧
    (∀ answer parts, (b.sign debug probe inst network unsignedTx answer).2 = some (.ok parts) →
      (b.selected probe).length = b.threshold ∧
      (∃ info : SignaturesInfo, parts = info.signatures.map SignParts.toEcdsa ∧
        ∀ c ∈ b.selected probe, ∃ resp, answer c.1 = .ok resp ∧ isSuccess resp.status = true ∧
          resp.json = .ok info) ∧
      ∀ (A : Eth.Alloy) (C : Crypto) (st : UInt8 → Cosigner.CosignerState C) publicKeyOf,
        (∀ c ∈ b.selected probe, Honest A (st c.1) publicKeyOf
          (signRequest inst network unsignedTx (b.selected probe)) (answer c.1)) →
        ∃ tx, (∃ prepared, Eth.decodeUnsigned A unsignedTx = .ok prepared ∧ prepared.tx = tx) ∧
          ∀ c ∈ b.selected probe, (st c.1).policy.Permits tx) := by
  refine ⟨selected_nodup, fun answer => sign_posts hW, fun answer => sign_returns hW, ?_, ?_⟩
  · -- one veto is enough, and what the API does with a rejection depends on nothing
    -- else
    intro answer hVeto
    obtain ⟨vetoes, hResult, hSorted, hMem⟩ := sign_rejected hW hVeto
    exact ⟨vetoes, hResult, hSorted, hMem, fun A s job => api_rejected A s job vetoes⟩
  · -- a value comes out only of `threshold` equal answers
    intro answer parts hOk
    obtain ⟨hLength, hAgreed⟩ := sign_agreed hW hOk
    exact ⟨hLength, hAgreed, fun A C st publicKeyOf hHonest => sign_permitted hW hHonest hOk⟩

namespace Sample

/-- URLs as scheme and rest, bases ending in a slash. -/
def web : Web where
  Url := String × String
  scheme := Prod.fst
  join url path := .ok (url.1, url.2 ++ path)
  displayUrl url := url.1 ++ "://" ++ url.2
  displayStatus := toString
  jsonReason text :=
    if text = "\x7b\"error\":\"policy denied\",\"reason\":\"calldata not allowed\"\x7d" then
      some "calldata not allowed"
    else none

/-- The example's urls can be joined. -/
theorem web_bases : web.Bases := fun url path _ _ => ⟨(url.1, url.2 ++ path), rfl⟩

/-- A threshold of two is a legal one. -/
theorem two_le : 2 ≤ 2 := le_rfl

/-- A 2-of-3 that prefers cosigner 2. -/
def backend : RemoteBackend web where
  cosigners := [(2, ("https", "c2/")), (0, ("https", "c0/")), (1, ("https", "c1/"))]
  threshold := 2
  nodup := by decide
  https := by decide
  two_le := two_le
  le_length := by decide

/-- Cosigner 0 is down. -/
def probe (party : UInt8) : Except String Nat :=
  if party = 0 then .error "connection refused" else .ok 200

/-- Cosigner 1 vetoes, the others time out. -/
def answer (party : UInt8) : Sent SignaturesInfo :=
  if party = 1 then .ok
    { status := 403
      text := some "\x7b\"error\":\"policy denied\",\"reason\":\"calldata not allowed\"\x7d"
      json := .error "missing field" }
  else .error "operation timed out"

end Sample

/-- The veto of cosigner 1 outranks the timeout of cosigner 2; both were posted to
their own URLs, the third was not. -/
theorem veto_final_timeout :
    (Sample.backend.sign (fun _ => "") Sample.probe (.repeatByte 32 7) .Ethereum []
        Sample.answer).1.map (fun p => (p.party, (Except.ok p.url : Except String _))) =
      [(2, .ok ("https", "c2/sign")), (1, .ok ("https", "c1/sign"))] ∧
    ∃ vetoes, (Sample.backend.sign (fun _ => "") Sample.probe (.repeatByte 32 7) .Ethereum []
        Sample.answer).2 = some (.error (.rejected vetoes)) ∧
      ⟨1, "calldata not allowed"⟩ ∈ vetoes := by
  obtain ⟨-, hPosts, -, hVeto, -⟩ := veto_final Sample.web_bases Sample.backend (fun _ => "")
    Sample.probe (.repeatByte 32 7) .Ethereum []
  have hSelected : Sample.backend.selected Sample.probe =
      [(2, ("https", "c2/")), (1, ("https", "c1/"))] := rfl
  have hMember : (1, ("https", "c1/")) ∈ Sample.backend.selected Sample.probe :=
    hSelected ▸ List.mem_cons_of_mem _ List.mem_cons_self
  have hReason : vetoReason Sample.web (Sample.answer 1) = some "calldata not allowed" := rfl
  obtain ⟨vetoes, hResult, -, hMem, -⟩ := hVeto Sample.answer ⟨_, hMember, by rw [hReason]; rfl⟩
  refine ⟨?_, vetoes, hResult, (hMem _).mpr ⟨_, hMember, rfl, hReason⟩⟩
  have hPairs := congrArg (List.map fun q => (q.1, q.2.1)) (hPosts Sample.answer)
  rw [List.map_map, List.map_map, hSelected] at hPairs
  exact hPairs

end Sovra.Ipc
