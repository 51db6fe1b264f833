import Sovra.Ipc.Control
import Sovra.Lib.Guard
import Sovra.Mpc.Types

/-!
# Sovra — the orchestrator's side of the control plane

`sovra-ipc`'s `remote.rs`. `RemoteBackend` sends each operation to a set of
cosigners in parallel and merges the answers. What a cosigner answers is an
input, one for each cosigner; the URL, JSON and status texts are third-party
code (`Web`). Signing goes to a subset selected once by liveness, before any
`/sign` is posted.

* `merge_eq` — the merge's three accumulators are three filters of the answers.
* `combine_rejected`, `combine_ok` — any veto outranks all else; a value comes
  out only if every answer is that value.
* `broadcast_posts` — who is posted to does not depend on the answers.
-/

namespace Sovra.Ipc

open Lib Mpc

/-- What `remote.rs` calls from url, reqwest and serde_json. -/
structure Web where
  Url : Type
  scheme : Url → String
  join : Url → String → Except String Url
  displayUrl : Url → String
  displayStatus : Nat → String
  /-- The string at `reason` of a JSON text. -/
  jsonReason : String → Option String

/-- A https URL is a base: joining one of the control plane's paths succeeds. -/
def Web.Bases (W : Web) : Prop :=
  ∀ url path, W.scheme url = "https" →
    path ∈ ["dkg", "sign", "refresh", "signer", "roster", "pubkey"] →
    ∃ joined, W.join url path = .ok joined

/-- A response: its status, its body as text and its body as a `T`. -/
structure Response (T : Type) where
  status : Nat
  text : Option String
  json : Except String T

/-- What sending a request comes back with. Where reqwest follows a redirect, this
is what the last response says; the hops inside `send` are outside the model. -/
abbrev Sent (T : Type) := Except String (Response T)

/-- `StatusCode::is_success`. -/
def isSuccess (status : Nat) : Bool := 200 ≤ status && status < 300

/-- `IpcError`, less the connection errors of the relay client. -/
inductive IpcError
  | Http (msg : String)
  | Config (msg : String)
  | PlainScheme (url expected : String)
deriving DecidableEq

/-- How a party is named in texts. -/
def displayParty (party : UInt8) : String := toString party.toNat

-- ---------------------------------------------------------------------------
-- The cosigner set
-- ---------------------------------------------------------------------------

/-- The checks of `RemoteBackend::new`, one cosigner after the other. -/
def checkCosigners (W : Web) (seen : List UInt8) : List (UInt8 × W.Url) → Except IpcError Unit
  | [] => .ok ()
  | (id, url) :: rest => do
    ensure (W.scheme url = "https") (.PlainScheme (W.displayUrl url) "https")
    ensure (id ∉ seen) (.Config ("duplicate party id " ++ displayParty id))
    checkCosigners W (id :: seen) rest

/-- No cosigner is listed twice, and all are behind https. -/
theorem checkCosigners_ok {W : Web} {seen : List UInt8} {cosigners : List (UInt8 × W.Url)}
    (h : checkCosigners W seen cosigners = .ok ()) :
    (cosigners.map Prod.fst).Nodup ∧ (∀ c ∈ cosigners, c.1 ∉ seen ∧ W.scheme c.2 = "https") := by
  induction cosigners generalizing seen with
  | nil => simp
  | cons c rest ih =>
    obtain ⟨id, url⟩ := c
    simp only [checkCosigners, bind_eq_ok, ensure_eq_ok] at h
    obtain ⟨-, hScheme, -, hFresh, hRest⟩ := h
    obtain ⟨hNodup, hAll⟩ := ih hRest
    constructor
    · rw [List.map_cons, List.nodup_cons]
      refine ⟨?_, hNodup⟩
      intro hMem
      obtain ⟨c, hc, hEq⟩ := List.mem_map.mp hMem
      exact (hAll c hc).1 (hEq ▸ List.mem_cons_self)
    · intro c hc
      rcases List.mem_cons.mp hc with rfl | hc
      · exact ⟨hFresh, hScheme⟩
      · exact ⟨fun hSeen => (hAll c hc).1 (List.mem_cons_of_mem id hSeen), (hAll c hc).2⟩

/-- Cosigners in preference order, each once, all behind https. -/
structure RemoteBackend (W : Web) where
  cosigners : List (UInt8 × W.Url)
  threshold : Nat
  nodup : (cosigners.map Prod.fst).Nodup
  https : ∀ c ∈ cosigners, W.scheme c.2 = "https"
  two_le : 2 ≤ threshold
  le_length : threshold ≤ cosigners.length

/-- `RemoteBackend::new`. -/
def RemoteBackend.new (W : Web) (cosigners : List (UInt8 × W.Url)) (threshold : Nat) :
    Except IpcError (RemoteBackend W) :=
  match hCheck : checkCosigners W [] cosigners with
  | .error e => .error e
  | .ok () =>
    if hBounds : 2 ≤ threshold ∧ threshold ≤ cosigners.length then
      .ok ⟨cosigners, threshold, (checkCosigners_ok hCheck).1,
        fun c hc => ((checkCosigners_ok hCheck).2 c hc).2, hBounds.1, hBounds.2⟩
    else
      .error (.Config ("threshold " ++ toString threshold ++ " out of bounds for " ++
        toString cosigners.length ++ " cosigners"))

-- ---------------------------------------------------------------------------
-- Merging answers
-- ---------------------------------------------------------------------------

section

variable {Resp : Type}

/-- The accumulators of `combine`. -/
structure Merged (Resp : Type) where
  vetoes : List Veto
  firstError : Option MpcError
  oks : List (UInt8 × Resp)

/-- One answer: a veto is collected, another error kept if it is the first. -/
def Merged.push (m : Merged Resp) : UInt8 × Except MpcError Resp → Merged Resp
  | (party, .ok value) => { m with oks := m.oks ++ [(party, value)] }
  | (_, .error (.rejected vetoes)) => { m with vetoes := m.vetoes ++ vetoes }
  | (_, .error e) => { m with firstError := m.firstError.or (some e) }

/-- The loop of `combine` over the answers. -/
def merge (results : List (UInt8 × Except MpcError Resp)) : Merged Resp :=
  results.foldl Merged.push ⟨[], none, []⟩

/-- `vetoes.sort_by_key(|v| v.party)`: a stable sort. -/
def sortByParty (vetoes : List Veto) : List Veto := vetoes.mergeSort fun a b => a.party ≤ b.party

/-- `combine`; `none` is its panic on an empty broadcast. -/
def combine [DecidableEq Resp] (debug : Resp → String)
    (results : List (UInt8 × Except MpcError Resp)) : Option (Except MpcError Resp) :=
  let m := merge results
  if m.vetoes ≠ [] then some (.error (.rejected (sortByParty m.vetoes)))
  else
    match m.firstError with
    | some e => some (.error e)
    | none =>
      match m.oks with
      | [] => none
      | (firstParty, firstValue) :: oks =>
        match oks.find? fun ok => ok.2 ≠ firstValue with
        | some (party, value) => some (.error (.partyMismatch ("cosigner" ++
            displayParty firstParty ++ " returned " ++ debug firstValue ++ ", cosigner" ++
            displayParty party ++ " returned " ++ debug value)))
        | none => some (.ok firstValue)

/-- The vetoes one answer carries. -/
def vetoesOf : UInt8 × Except MpcError Resp → List Veto
  | (_, .error (.rejected vetoes)) => vetoes
  | _ => []

/-- The error one answer is, if it is one and no veto. -/
def errorOf : UInt8 × Except MpcError Resp → Option MpcError
  | (_, .ok _) | (_, .error (.rejected _)) => none
  | (_, .error e) => some e

/-- The value one answer is, if it is one. -/
def okOf : UInt8 × Except MpcError Resp → Option (UInt8 × Resp)
  | (party, .ok value) => some (party, value)
  | _ => none

/-- Every rejection names somebody: what `post` returns, see `readAnswer`. -/
def VetoesNamed (results : List (UInt8 × Except MpcError Resp)) : Prop :=
  ∀ r ∈ results, ∀ vetoes, r.2 = .error (.rejected vetoes) → vetoes ≠ []

/-- One answer adds to one of the three accumulators. -/
theorem push_eq (m : Merged Resp) (r : UInt8 × Except MpcError Resp) :
    m.push r = ⟨m.vetoes ++ vetoesOf r, m.firstError.or (errorOf r), m.oks ++ (okOf r).toList⟩ := by
  obtain ⟨party, result⟩ := r
  rcases result with e | value
  · rcases e <;> simp [Merged.push, vetoesOf, errorOf, okOf]
  · simp [Merged.push, vetoesOf, errorOf, okOf]

/-- Each accumulator is a pass over the answers of its own kind. -/
theorem merge_eq (results : List (UInt8 × Except MpcError Resp)) :
    merge results = ⟨results.flatMap vetoesOf, results.findSome? errorOf,
      results.filterMap okOf⟩ := by
  have hFold : ∀ m : Merged Resp, results.foldl Merged.push m =
      ⟨m.vetoes ++ results.flatMap vetoesOf, m.firstError.or (results.findSome? errorOf),
        m.oks ++ results.filterMap okOf⟩ := by
    -- on the answers, from any accumulators
    induction results with
    | nil => simp
    | cons r rest ih =>
      intro m
      rw [List.foldl_cons, ih, push_eq]
      simp only [List.flatMap_cons, List.append_assoc, List.findSome?_cons, List.filterMap_cons,
        Option.or_assoc, Merged.mk.injEq, true_and]
      constructor
      · rcases errorOf r <;> simp
      · rcases okOf r <;> simp
  rw [merge, hFold]
  simp

/-- Any veto decides, whatever the others answered. -/
theorem combine_rejected [DecidableEq Resp] {debug : Resp → String}
    {results : List (UInt8 × Except MpcError Resp)} (h : results.flatMap vetoesOf ≠ []) :
    combine debug results =
      some (.error (.rejected (sortByParty (results.flatMap vetoesOf)))) := by
  unfold combine
  rw [merge_eq]
  exact if_pos h

/-- A value comes out only if everyone answered that value. -/
theorem combine_ok [DecidableEq Resp] {debug : Resp → String}
    {results : List (UInt8 × Except MpcError Resp)} {value : Resp} (hNamed : VetoesNamed results)
    (h : combine debug results = some (.ok value)) : ∀ r ∈ results, r.2 = .ok value := by
  unfold combine at h
  rw [merge_eq] at h
  simp only at h
  split at h
  · simp at h
  -- nobody vetoed,
  rename_i hVetoes
  rw [not_not, List.flatMap_eq_nil_iff] at hVetoes
  split at h
  · simp at h
  -- nobody failed,
  rename_i hErrors
  rw [List.findSome?_eq_none_iff] at hErrors
  -- neither a veto nor an error: every answer is one of the collected values
  have hOks : ∀ r ∈ results, ∃ v, r.2 = .ok v ∧ (r.1, v) ∈ results.filterMap okOf := by
    intro r hr
    obtain ⟨party, result⟩ := r
    rcases result with e | v
    · have hEmpty := hVetoes _ hr
      have hError := hErrors _ hr
      rcases e with _ | _ | _ | _ | _ | _ | vetoes <;> simp [vetoesOf, errorOf] at hEmpty hError
      exact absurd hEmpty (hNamed _ hr vetoes rfl)
    · exact ⟨v, rfl, List.mem_filterMap.mpr ⟨_, hr, rfl⟩⟩
  split at h
  · simp at h
  rename_i firstParty firstValue oks hList
  split at h
  · simp at h
  -- and no value differs from the first
  rename_i hSame
  rw [Option.some.injEq, Except.ok.injEq] at h
  subst h
  intro r hr
  obtain ⟨v, hOk, hMem⟩ := hOks r hr
  rw [hList] at hMem
  rcases List.mem_cons.mp hMem with hHead | hTail
  · rw [hOk, (Prod.mk.inj hHead).2]
  · have hEq : v = firstValue := by
      simpa using List.find?_eq_none.mp hSame _ hTail
    rw [hOk, hEq]

/-- A broadcast to somebody has a result. -/
theorem combine_isSome [DecidableEq Resp] (debug : Resp → String)
    {results : List (UInt8 × Except MpcError Resp)} (h : results ≠ [])
    (hNamed : VetoesNamed results) : ∃ result, combine debug results = some result := by
  unfold combine
  rw [merge_eq]
  simp only
  split
  · exact ⟨_, rfl⟩
  -- past the vetoes and the errors only values are left
  rename_i hVetoes
  rw [not_not, List.flatMap_eq_nil_iff] at hVetoes
  split
  · exact ⟨_, rfl⟩
  rename_i hErrors
  rw [List.findSome?_eq_none_iff] at hErrors
  split
  · -- and there is one, since there was an answer
    rename_i hNone
    exfalso
    obtain ⟨r, rest, rfl⟩ := List.exists_cons_of_ne_nil h
    obtain ⟨party, result⟩ := r
    have hMem : (party, result) ∈ (party, result) :: rest := List.mem_cons_self
    rcases result with e | v
    · have hEmpty := hVetoes _ hMem
      have hError := hErrors _ hMem
      rcases e with _ | _ | _ | _ | _ | _ | vetoes <;> simp [vetoesOf, errorOf] at hEmpty hError
      exact hNamed _ hMem vetoes rfl hEmpty
    · simp [okOf] at hNone
  · split
    · exact ⟨_, rfl⟩
    · exact ⟨_, rfl⟩

end

-- ---------------------------------------------------------------------------
-- Posting
-- ---------------------------------------------------------------------------

/-- A request as `send` is given it: for whom, to which URL, with which body.
Redirects reqwest may follow inside `send` are outside the model. -/
structure Post (W : Web) (Req : Type) where
  party : UInt8
  url : W.Url
  body : Req

section

variable (W : Web) {Req Resp : Type}

/-- The answer to a post: a 403 is a veto, any other failure a transport
error. -/
def readAnswer (party : UInt8) (path : String) (sent : Sent Resp) : Except MpcError Resp :=
  let name := "cosigner" ++ displayParty party ++ " " ++ path ++ ": "
  match sent with
  | .error e => .error (.transport (name ++ e))
  | .ok resp =>
    if resp.status = 403 then
      let text := resp.text.getD ""
      .error (.rejected [⟨party, (W.jsonReason text).getD text⟩])
    else if !isSuccess resp.status then
      .error (.transport (name ++ W.displayStatus resp.status ++ ": " ++ resp.text.getD ""))
    else resp.json.mapError fun e => .transport (name ++ "bad response: " ++ e)

/-- `post`: what left, and the cosigner's answer. -/
def post (party : UInt8) (base : W.Url) (path : String) (body : Req) (sent : Sent Resp) :
    List (Post W Req) × Except MpcError Resp :=
  match W.join base path with
  | .error e => ([], .error (.transport ("cosigner" ++ displayParty party ++ " url: " ++ e)))
  | .ok url => ([⟨party, url, body⟩], readAnswer W party path sent)

/-- `broadcast`: the same request to every target, all at once. -/
def broadcast [DecidableEq Resp] (debug : Resp → String) (targets : List (UInt8 × W.Url))
    (path : String) (body : Req) (answer : UInt8 → Sent Resp) :
    List (Post W Req) × Option (Except MpcError Resp) :=
  let results := targets.map fun (party, url) => (party, post W party url path body (answer party))
  (results.flatMap fun r => r.2.1, combine debug (results.map fun r => (r.1, r.2.2)))

variable {W}

/-- Every target is posted to once, under its own base, and nobody else is. -/
theorem broadcast_posts [DecidableEq Resp] (debug : Resp → String)
    {targets : List (UInt8 × W.Url)} {path : String} {body : Req} {answer : UInt8 → Sent Resp}
    (hBases : ∀ t ∈ targets, ∃ joined, W.join t.2 path = .ok joined) :
    (broadcast W debug targets path body answer).1.map
        (fun p => (p.party, (Except.ok p.url : Except String W.Url), p.body)) =
      targets.map fun t => (t.1, W.join t.2 path, body) := by
  unfold broadcast
  simp only
  induction targets with
  | nil => rfl
  | cons t rest ih =>
    obtain ⟨joined, hJoin⟩ := hBases t List.mem_cons_self
    rw [List.map_cons, List.flatMap_cons, List.map_append, List.map_cons,
      ih fun t ht => hBases t (List.mem_cons_of_mem _ ht)]
    simp only [post, hJoin]
    rfl

/-- The targets' answers are what is merged. -/
theorem broadcast_result [DecidableEq Resp] {debug : Resp → String}
    {targets : List (UInt8 × W.Url)} {path : String} {body : Req} {answer : UInt8 → Sent Resp}
    (hBases : ∀ t ∈ targets, ∃ joined, W.join t.2 path = .ok joined) :
    (broadcast W debug targets path body answer).2 =
      combine debug (targets.map fun t => (t.1, readAnswer W t.1 path (answer t.1))) := by
  unfold broadcast
  simp only [List.map_map]
  congr 1
  refine List.map_congr_left ?_
  intro t ht
  obtain ⟨joined, hJoin⟩ := hBases t ht
  simp only [Function.comp_apply, post, hJoin]

end

-- ---------------------------------------------------------------------------
-- Signing
-- ---------------------------------------------------------------------------

section

variable {W : Web} (b : RemoteBackend W)

/-- `GET /signer` answers with a success within the probe's timeout. -/
def isReady (W : Web) (probe : UInt8 → Except String Nat) (c : UInt8 × W.Url) : Bool :=
  match W.join c.2 "signer" with
  | .error _ => false
  | .ok _ =>
    match probe c.1 with
    | .error _ => false
    | .ok status => isSuccess status

/-- `select_signers`: readiness is the only selection input. -/
def RemoteBackend.selectSigners (probe : UInt8 → Except String Nat) :
    Except MpcError (List (UInt8 × W.Url)) :=
  let ready := b.cosigners.filter (isReady W probe)
  if ready.length < b.threshold then
    .error (.transport ("only " ++ toString ready.length ++ " of " ++
      toString b.cosigners.length ++ " cosigners ready; need " ++ toString b.threshold))
  else .ok (ready.take b.threshold)

/-- The body posted to every selected cosigner. -/
def signRequest (inst : B256) (network : NetworkId) (unsignedTx : Bytes)
    (signers : List (UInt8 × W.Url)) : StartSignRequest where
  inst
  network
  unsignedTransaction := unsignedTx
  participants := (signers.map Prod.fst).mergeSort (· ≤ ·)

/-- One `RemoteBackend::sign` call: what it posted and how it ended. -/
def RemoteBackend.sign (debug : SignaturesInfo → String) (probe : UInt8 → Except String Nat)
    (inst : B256) (network : NetworkId) (unsignedTx : Bytes)
    (answer : UInt8 → Sent SignaturesInfo) :
    List (Post W StartSignRequest) × Option (Except MpcError (List EcdsaParts)) :=
  match b.selectSigners probe with
  | .error e => ([], some (.error e))
  | .ok signers =>
    let (posts, result) := broadcast W debug signers "sign"
      (signRequest inst network unsignedTx signers) answer
    (posts, result.map fun r => r.map fun info => info.signatures.map SignParts.toEcdsa)

end

end Sovra.Ipc
