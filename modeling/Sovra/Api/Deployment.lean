import Sovra.Api.Orchestrator
import Sovra.Api.Sign
import Sovra.Cosigner.Answers
import Sovra.Cosigner.Generations
import Sovra.Ipc.Subset

/-!
# Sovra — the whole deployment

The fleet of `Cosigner.Generations` and, in front of it, the API process over its
`RemoteBackend`. The API keeps nothing on disk: it may be killed at any time, and
a new one starts with what `recover_with_retry` makes of the cosigners' answers.
A response is what axum makes of an answer that the cosigner gave to that very
request; any response may be lost, and anybody may send a cosigner requests. The
URLs lead to the parties they are configured for.

* `one_wallet`       — every key ever announced is one key, held by a quorum.
* `signed_permitted` — every signature ever returned is under that key and was
  permitted by `threshold` policies.
* `boot_recovers`    — once all hold the key, `threshold` of them bring it back.
-/

namespace Sovra.Api

open Lib Mpc State Ipc Carbon Cosigner

-- ---------------------------------------------------------------------------
-- Starting up
-- ---------------------------------------------------------------------------

/-- The loop of `recover_with_retry`, `k` tries before the last: it goes on while
too few cosigners answer. -/
def recoverAgain (W : Web) (cosigners : List (UInt8 × W.Url)) (threshold : Nat) :
    Nat → (Nat → UInt8 → Sent PublicKeyInfo) → Except RecoverError (Option PubkeySec1)
  | 0, rounds => recoverActive W (rounds 0) cosigners threshold
  | k + 1, rounds =>
    match recoverActive W (rounds 0) cosigners threshold with
    | .error (.Transport _ _ _) => recoverAgain W cosigners threshold k fun i => rounds (i + 1)
    | other => other

/-- `recover_with_retry`; `rounds` is what each of its probes comes back with. -/
def recoverWithRetry (W : Web) (rounds : Nat → UInt8 → Sent PublicKeyInfo)
    (cosigners : List (UInt8 × W.Url)) (threshold : Nat) :
    Except RecoverError (Option PubkeySec1) :=
  recoverAgain W cosigners threshold 9 rounds

/-- What the loop comes back with is what one of its rounds did. -/
theorem recoverAgain_ok {W : Web} {cosigners : List (UInt8 × W.Url)} {threshold k : Nat}
    {rounds : Nat → UInt8 → Sent PublicKeyInfo} {value : Option PubkeySec1}
    (h : recoverAgain W cosigners threshold k rounds = .ok value) :
    ∃ i, i ≤ k ∧ recoverActive W (rounds i) cosigners threshold = .ok value := by
  induction k generalizing rounds with
  | zero => exact ⟨0, le_rfl, h⟩
  | succ k ih =>
    rw [recoverAgain] at h
    split at h
    · obtain ⟨i, hi, hRound⟩ := ih h
      exact ⟨i + 1, by omega, hRound⟩
    · exact ⟨0, by omega, h⟩

-- ---------------------------------------------------------------------------
-- Responses
-- ---------------------------------------------------------------------------

/-- The response to a cosigner's answer, its body read as a `T`. -/
def rendered {T : Type} (A : Eth.Alloy) (render : Cosigner.ErrorBody → String)
    (read : Cosigner.Reply → Except String T) : Cosigner.Answer → Response T
  | .ok reply => ⟨200, none, read reply⟩
  | .error e => respond A render (.error e)

/-- A response body read as a key. -/
def readKey : Cosigner.Reply → Except String PublicKeyInfo
  | .publicKey info => .ok info
  | .signatures _ => .error "not a key"

/-- A response body read as signatures. -/
def readSignatures : Cosigner.Reply → Except String SignaturesInfo
  | .signatures info => .ok info
  | .publicKey _ => .error "not signatures"

-- ---------------------------------------------------------------------------
-- The deployment
-- ---------------------------------------------------------------------------

/-- The cosigners; the API process, if one is up; what each cosigner answered to
which request; and what API processes answered. -/
structure Deployment (C : Crypto) where
  fleet : Fleet C
  api : Option ApiWorld
  answered : List (UInt8 × Cosigner.Request × Cosigner.Answer)
  told : List Answer

/-- A move of the fleet, a step of the API process, its start, its end. -/
inductive Move
  | fleet (m : FleetMove)
  | api (e : Event Request Unit Outcome)
  | boot (rounds : Nat → UInt8 → Sent PublicKeyInfo)
  | kill

/-- The request of this number and its answer, if it has one. -/
def settled {σ ρ π α ε : Type} (w : World σ ρ π α ε) (id : Nat) : Option (ρ × α) :=
  (w.requests id).bind fun req => (w.answers id).map fun a => (req, a)

/-- The request a step of a service is about. -/
def eventId {ρ ι ω : Type} : Event ρ ι ω → Nat
  | .receive id _ _ | .resume id _ | .cancel id => id

/-- The answer a fleet's move made a cosigner give. -/
def given {C : Crypto} (fleet : Fleet C) :
    FleetMove → List (UInt8 × Cosigner.Request × Cosigner.Answer)
  | .incident p (.serve e) =>
    (settled (fleet.world p) (eventId e)).toList.map fun r => (p, r.1, r.2)
  | _ => []

namespace Deployment

variable {W : Web} (b : RemoteBackend W) (A : Eth.Alloy) (render : Cosigner.ErrorBody → String)
  (D : Dkls) (text : UInt8 → UInt8 → String) {C : Crypto} (st : UInt8 → CosignerState C) (n : Nat)
  (key : Session → PubkeySec1)

/-- Empty directories and no API process. -/
def start : Deployment C := ⟨Fleet.start, none, [], []⟩

/-- One move. What a cosigner or an API process answers in it is recorded. -/
def step (w : Deployment C) : Move → Option (Deployment C)
  | .fleet m => (Fleet.step A D st n w.fleet m).map fun fleet =>
      { w with fleet, answered := given fleet m ++ w.answered }
  | .api e => w.api.bind fun api => ((service A).step api e).map fun api =>
      { w with api := some api, told := (api.answers (eventId e)).toList ++ w.told }
  | .boot rounds => some { w with
      api := (recoverWithRetry W rounds b.cosigners b.threshold).toOption.map fun active =>
        World.init ⟨active, fun _ => none, false⟩ }
  | .kill => some { w with api := none }

/-- The deployment as a machine. -/
def machine : Machine (Deployment C) Move := ⟨step b A D st n⟩

/-- A response that came is to an answer the cosigner gave to that request. -/
def Came {T : Type} (w : Deployment C) (read : Cosigner.Reply → Except String T) (p : UInt8)
    (req : Cosigner.Request) (sent : Sent T) : Prop :=
  ∀ resp, sent = .ok resp →
    ∃ a, (p, req, a) ∈ w.answered ∧ resp = rendered A render read a

/-- The responses to the posts of an operation. -/
def CameTo {T Req : Type} (w : Deployment C) (read : Cosigner.Reply → Except String T)
    (request : Req → Cosigner.Request) (posts : List (Post W Req)) (answer : UInt8 → Sent T) :
    Prop :=
  ∀ post ∈ posts, Came A render w read post.party (request post.body) (answer post.party)

/-- What the backend operation a handler waits for can end with. -/
def BackendEnds (w : Deployment C) : Pending → Outcome → Prop
  | .dkgBackend, .key result => ∃ debug roster inst answer,
      CameTo A render w readKey .dkg (b.dkg debug roster inst answer).1 answer ∧
        (b.dkg debug roster inst answer).2 = some result
  | .recoverBackend _, .key result => ∃ debug roster pubkey inst answer,
      (∀ c ∈ b.cosigners, Came A render w readKey c.1 .pubkey (pubkey c.1)) ∧
        CameTo A render w readKey .refresh (b.refresh debug roster pubkey inst answer).1 answer ∧
          (b.refresh debug roster pubkey inst answer).2 = some result
  | .signBackend job, .parts result => ∃ debug probe inst answer,
      CameTo A render w readSignatures .sign
          (b.sign debug probe inst .Ethereum job.unsigned answer).1 answer ∧
        (b.sign debug probe inst .Ethereum job.unsigned answer).2 = some result
  | _, _ => True

/-- The moves of a deployment as the module's header describes them. -/
def Carried (w : Deployment C) : Move → Prop
  | .fleet m => Concerted D text st n key w.fleet m
  | .api (.resume id out) => ∀ api p, w.api = some api → api.tasks id = some p →
      BackendEnds b A render w p out
  | .boot rounds => ∀ i, ∀ c ∈ b.cosigners, Came A render w readKey c.1 .signer (rounds i c.1)
  | .api _ | .kill => True

-- ---------------------------------------------------------------------------
-- What is true of keys and signatures
-- ---------------------------------------------------------------------------

/-- `threshold` cosigners or more hold the key. -/
def Quorum (w : Deployment C) (publicKey : PubkeySec1) : Prop :=
  ∃ holders : List (UInt8 × W.Url), holders.Sublist b.cosigners ∧
    b.threshold ≤ holders.length ∧
      ∀ c ∈ holders, Holds (w.fleet.world c.1).shared.dir publicKey

/-- `threshold` cosigners' own policies permit the transaction. -/
def Approved (tx : Eth.EthTx) : Prop :=
  ∃ signers : List (UInt8 × W.Url), signers.Sublist b.cosigners ∧
    signers.length = b.threshold ∧ ∀ c ∈ signers, (st c.1).policy.Permits tx

/-- A response for an approved transaction, under a key a quorum holds. -/
def Sold (w : Deployment C) (response : SignResponse) : Prop :=
  ∃ publicKey tx, Quorum b w publicKey ∧ BodyOk A publicKey tx response ∧
    Eth.validateUnsigned tx = .ok () ∧ Approved b st tx

/-- What a suspended handler has from the backend. -/
def TaskBacked (w : Deployment C) : Pending → Prop
  | .dkgWrite publicKey | .recoverBackend publicKey => Quorum b w publicKey
  | .signInsert job _ => Approved b st job.tx
  | _ => True

/-- What an API process serves is backed by the fleet. -/
structure Backed (w : Deployment C) (api : ApiWorld) : Prop where
  started : ∃ active,
    (service A).Reach (World.init ⟨active, fun _ => none, false⟩) api
  active : ∀ publicKey, api.shared.active = some publicKey → Quorum b w publicKey
  signed : ∀ d response, api.shared.signed d = some response → Sold b A st w response
  task : ∀ id p, api.tasks id = some p → TaskBacked b st w p
  key : ∀ id response, api.answers id = some (.ok (.dkg response)) →
    Quorum b w response.publicKey

/-- What an answer of the API promises. -/
structure Good (w : Deployment C) (a : Answer) : Prop where
  key : ∀ response, a = .ok (.dkg response) → Quorum b w response.publicKey
  sign : ∀ response, a = .ok (.sign response) → Sold b A st w response

/-- Every cosigner's answers stand, an API process that is up is backed, and so is
all that was ever answered. -/
structure Inv (w : Deployment C) : Prop where
  reach : (Fleet.machine A D st n).Reach (Concerted D text st n key) Fleet.start w.fleet
  vouched : ∀ p, Vouched A (st p) (w.fleet.world p)
  answered : ∀ p req a, (p, req, a) ∈ w.answered →
    StandsFor A (st p) (w.fleet.world p).shared.dir req a
  api : ∀ api, w.api = some api → Backed b A st w api
  told : ∀ a ∈ w.told, Good b A st w a

end Deployment

-- ---------------------------------------------------------------------------
-- One response
-- ---------------------------------------------------------------------------

section

variable {W : Web} {b : RemoteBackend W} {A : Eth.Alloy} {render : Cosigner.ErrorBody → String}
  {D : Dkls} {text : UInt8 → UInt8 → String} {C : Crypto} {st : UInt8 → CosignerState C} {n : Nat}
  {key : Session → PubkeySec1} {w w' : Deployment C}

open Deployment

/-- A success is the handler's. -/
theorem rendered_success {T : Type} {read : Cosigner.Reply → Except String T} {a : Cosigner.Answer}
    (hSuccess : isSuccess (rendered A render read a).status = true) : ∃ reply, a = .ok reply := by
  rcases a with e | reply
  · simp [rendered, respond, error_not_success] at hSuccess
  · exact ⟨reply, rfl⟩

/-- A value that is read was answered. -/
theorem came_ok {T : Type} {read : Cosigner.Reply → Except String T} {p : UInt8}
    {req : Cosigner.Request} {sent : Sent T} (hCame : Came A render w read p req sent)
    {resp : Response T} {value : T} (hSent : sent = .ok resp)
    (hSuccess : isSuccess resp.status = true) (hJson : resp.json = .ok value) :
    ∃ reply, (p, req, .ok reply) ∈ w.answered ∧ read reply = .ok value := by
  obtain ⟨a, hMem, rfl⟩ := hCame resp hSent
  obtain ⟨reply, rfl⟩ := rendered_success hSuccess
  exact ⟨reply, hMem, hJson⟩

/-- What reads as a key is one. -/
theorem readKey_ok {reply : Cosigner.Reply} {info : PublicKeyInfo} (h : readKey reply = .ok info) :
    reply = .publicKey info := by
  rcases reply with found | found
  · exact congrArg Cosigner.Reply.publicKey (Except.ok.inj h)
  · cases h

/-- A probe that reports a key has read it. -/
theorem fetchSigner_some {url : W.Url} {sent : Sent PublicKeyInfo} {publicKey : PubkeySec1}
    (h : fetchSigner W url sent = .ok (some publicKey)) :
    ∃ resp, sent = .ok resp ∧ isSuccess resp.status = true ∧ resp.json = .ok ⟨publicKey⟩ := by
  unfold fetchSigner at h
  split at h
  · cases h
  split at h
  · cases h
  rename_i resp
  split at h
  · cases h
  split at h
  · rename_i hSuccess
    obtain ⟨info, hJson, hKey⟩ := map_eq_ok.mp (mapError_eq_ok.mp h)
    obtain rfl := Option.some.inj hKey
    exact ⟨resp, rfl, hSuccess, hJson⟩
  · cases h

/-- A reported key is the probed cosigner's, read off a success. -/
theorem report_some {answer : UInt8 → Sent PublicKeyInfo} {c : UInt8 × W.Url} {p : UInt8}
    {publicKey : PubkeySec1} (h : report W answer c = some (p, some publicKey)) :
    p = c.1 ∧ ∃ resp, answer c.1 = .ok resp ∧ isSuccess resp.status = true ∧
      resp.json = .ok ⟨publicKey⟩ := by
  unfold report at h
  split at h
  · rename_i held hFetch
    obtain ⟨rfl, rfl⟩ := Prod.mk.inj (Option.some.inj h)
    exact ⟨rfl, fetchSigner_some hFetch⟩
  · cases h

/-- Every target is posted to. -/
theorem broadcast_posted {T Req : Type} [DecidableEq T] (debug : T → String)
    {targets : List (UInt8 × W.Url)} {path : String} (body : Req) (answer : UInt8 → Sent T)
    (hBases : ∀ t ∈ targets, ∃ joined, W.join t.2 path = .ok joined) {c : UInt8 × W.Url}
    (hc : c ∈ targets) :
    ∃ post ∈ (broadcast W debug targets path body answer).1, post.party = c.1 ∧
      post.body = body := by
  have hTarget : (c.1, W.join c.2 path, body) ∈ targets.map fun t => (t.1, W.join t.2 path, body) :=
    List.mem_map.mpr ⟨c, hc, rfl⟩
  rw [← broadcast_posts debug hBases] at hTarget
  obtain ⟨post, hPost, hEq⟩ := List.mem_map.mp hTarget
  obtain ⟨hParty, hSent⟩ := Prod.mk.inj hEq
  exact ⟨post, hPost, hParty, (Prod.mk.inj hSent).2⟩

/-- A key generation that succeeds was answered its key by everybody. -/
theorem dkg_agreed (hW : W.Bases) {debug : PublicKeyInfo → String} {roster : UInt8 → Sent RosterInfo}
    {inst : B256} {answer : UInt8 → Sent PublicKeyInfo} {publicKey : PubkeySec1}
    (h : (b.dkg debug roster inst answer).2 = some (.ok publicKey)) :
    ∀ c ∈ b.cosigners,
      (∃ post ∈ (b.dkg debug roster inst answer).1, post.party = c.1) ∧
      ∃ resp, answer c.1 = .ok resp ∧ isSuccess resp.status = true ∧
        resp.json = .ok ⟨publicKey⟩ := by
  have hBases : ∀ t ∈ b.cosigners, ∃ joined, W.join t.2 "dkg" = .ok joined :=
    fun t ht => hW t.2 "dkg" (b.https t ht) (by simp)
  unfold RemoteBackend.dkg at h ⊢
  split at h
  · simp at h
  simp only at h ⊢
  rw [broadcast_result hBases, Option.map_eq_some_iff] at h
  obtain ⟨result, hCombined, hKey⟩ := h
  obtain ⟨info, rfl, rfl⟩ := map_eq_ok.mp hKey
  intro c hc
  obtain ⟨post, hPost, hParty, -⟩ := broadcast_posted debug _ answer hBases hc
  exact ⟨⟨post, hPost, hParty⟩, readAnswer_ok (combine_ok vetoesNamed_answers hCombined _
    (List.mem_map.mpr ⟨c, hc, rfl⟩))⟩

/-- A key that everybody answered is held by everybody. -/
theorem dkg_quorum (hW : W.Bases)
    (hAnswered : ∀ p req a, (p, req, a) ∈ w.answered →
      StandsFor A (st p) (w.fleet.world p).shared.dir req a)
    {debug : PublicKeyInfo → String} {roster : UInt8 → Sent RosterInfo} {inst : B256}
    {answer : UInt8 → Sent PublicKeyInfo} {publicKey : PubkeySec1}
    (hCame : CameTo A render w readKey .dkg (b.dkg debug roster inst answer).1 answer)
    (h : (b.dkg debug roster inst answer).2 = some (.ok publicKey)) : Quorum b w publicKey := by
  refine ⟨b.cosigners, List.Sublist.refl _, b.le_length, fun c hc => ?_⟩
  obtain ⟨⟨post, hPost, hParty⟩, resp, hSent, hSuccess, hJson⟩ := dkg_agreed hW h c hc
  have hCameTo := hCame post hPost
  rw [hParty] at hCameTo
  obtain ⟨reply, hMem, hRead⟩ := came_ok hCameTo hSent hSuccess hJson
  rw [readKey_ok hRead] at hMem
  exact (hAnswered c.1 _ _ hMem).key _ rfl

/-- A key that a boot recovers is held by the cosigners that reported it. -/
theorem boot_quorum
    (hAnswered : ∀ p req a, (p, req, a) ∈ w.answered →
      StandsFor A (st p) (w.fleet.world p).shared.dir req a)
    {answer : UInt8 → Sent PublicKeyInfo} {publicKey : PubkeySec1}
    (hCame : ∀ c ∈ b.cosigners, Came A render w readKey c.1 .signer (answer c.1))
    (h : recoverActive W answer b.cosigners b.threshold = .ok (some publicKey)) :
    Quorum b w publicKey := by
  have hTwo := b.two_le
  obtain ⟨hCount, hSame⟩ := (recoverActive_some (by omega)).mp h
  rw [List.countP_filterMap, List.countP_eq_length_filter] at hCount
  -- the holders are the cosigners that reported a key, and all of them reported this
  -- one
  refine ⟨_, List.filter_sublist, hCount, fun c hc => ?_⟩
  obtain ⟨hMember, hReports⟩ := List.mem_filter.mp hc
  rcases hReport : report W answer c with _ | ⟨p, _ | held⟩
  · simp [hReport] at hReports
  · simp [hReport] at hReports
  have hHeld : held = publicKey :=
    hSame _ (List.mem_filterMap.mpr ⟨c, hMember, hReport⟩) held rfl
  obtain ⟨-, resp, hSent, hSuccess, hJson⟩ := report_some hReport
  obtain ⟨reply, hMem, hRead⟩ := came_ok (hCame c hMember) hSent hSuccess hJson
  rw [readKey_ok hRead] at hMem
  rw [← hHeld]
  exact (hAnswered c.1 _ _ hMem).key _ rfl

/-- Signatures come back only from `threshold` cosigners that permit what the
bytes decode to. -/
theorem sign_approved (hW : W.Bases)
    (hAnswered : ∀ p req a, (p, req, a) ∈ w.answered →
      StandsFor A (st p) (w.fleet.world p).shared.dir req a)
    {debug : SignaturesInfo → String} {probe : UInt8 → Except String Nat} {inst : B256}
    {unsigned : Bytes} {answer : UInt8 → Sent SignaturesInfo} {parts : List EcdsaParts}
    {tx : Eth.EthTx}
    (hCame : CameTo A render w readSignatures .sign
      (b.sign debug probe inst .Ethereum unsigned answer).1 answer)
    (h : (b.sign debug probe inst .Ethereum unsigned answer).2 = some (.ok parts))
    (hDecodes : Decodes A unsigned tx) : Approved b st tx := by
  obtain ⟨hLength, info, -, hAll⟩ := sign_agreed hW h
  refine ⟨b.selected probe, selected_sublist, hLength, fun c hc => ?_⟩
  obtain ⟨resp, hSent, hSuccess, hJson⟩ := hAll c hc
  obtain ⟨-, e, hSign⟩ | ⟨-, hSign⟩ := sign_eq b probe debug inst .Ethereum unsigned answer
  · rw [hSign] at h
    cases h
  obtain ⟨post, hPost, hParty, hBody⟩ := broadcast_posted debug
    (signRequest inst .Ethereum unsigned (b.selected probe)) answer (selected_bases hW) hc
  have hCameTo := hCame post (by rw [hSign]; exact hPost)
  rw [hParty, hBody] at hCameTo
  obtain ⟨reply, hMem, -⟩ := came_ok hCameTo hSent hSuccess hJson
  obtain ⟨tx', hSignable⟩ := (hAnswered c.1 _ _ hMem).sign _ reply rfl rfl
  -- the cosigner decoded the bytes the API did
  obtain ⟨⟨prepared, hApi, rfl⟩, -⟩ := hDecodes
  obtain ⟨prepared', hCosigner, rfl⟩ := hSignable.decoded
  obtain rfl := Except.ok.inj (hApi.symm.trans hCosigner)
  exact hSignable.permitted

-- ---------------------------------------------------------------------------
-- One turn of the API
-- ---------------------------------------------------------------------------

/-- What a turn leaves is backed. -/
structure TurnBacked (b : RemoteBackend W) (A : Eth.Alloy) (st : UInt8 → CosignerState C)
    (w : Deployment C) (t : ApiTurn) : Prop where
  active : ∀ publicKey, t.shared.active = some publicKey → Quorum b w publicKey
  signed : ∀ d response, t.shared.signed d = some response → Sold b A st w response
  task : ∀ p, t.next = .inr p → TaskBacked b st w p
  key : ∀ response, t.next = .inl (.ok (.dkg response)) → Quorum b w response.publicKey

/-- The key that is answered is the key it was made of. -/
theorem dkgReply_key {publicKey : PubkeySec1} {response : DkgResponse}
    (h : dkgReply A publicKey = .ok (.dkg response)) : response.publicKey = publicKey := by
  rcases hAddress : A.addressOfPubkey publicKey with _ | address
  · simp [dkgReply, DkgResponse.new, hAddress, Functor.map, Except.map] at h
  · simp only [dkgReply, DkgResponse.new, hAddress, Functor.map, Except.map, Except.ok.injEq,
      Reply.dkg.injEq] at h
    rw [← h]

section

variable {s : SignerCell} (hActive : ∀ publicKey, s.active = some publicKey → Quorum b w publicKey)
  (hSigned : ∀ d response, s.signed d = some response → Sold b A st w response)
include hActive hSigned

/-- Answering an error or a cached response. -/
theorem answers_backed {s' : SignerCell} {a : Answer} (hKey : s'.active = s.active)
    (hCache : s'.signed = s.signed)
    (hAnswer : ∀ response, a = .ok (.dkg response) → Quorum b w response.publicKey) :
    TurnBacked b A st w ⟨s', [], .inl a⟩ where
  active publicKey h := hActive publicKey (hKey ▸ h)
  signed d response h := hSigned d response (hCache ▸ h)
  task _ h := nomatch h
  key response h := hAnswer response (Sum.inl.inj h)

/-- A turn that suspends with key and cache as they were. -/
theorem suspends_backed {s' : SignerCell} {effects : List Effect} {p : Pending}
    (hKey : s'.active = s.active) (hCache : s'.signed = s.signed) (hTask : TaskBacked b st w p) :
    TurnBacked b A st w ⟨s', effects, .inr p⟩ where
  active publicKey h := hActive publicKey (hKey ▸ h)
  signed d response h := hSigned d response (hCache ▸ h)
  task q h := by
    obtain rfl := Sum.inr.inj h
    exact hTask
  key response h := nomatch h

/-- A turn that tries the lock. -/
theorem tryLock_backed {p : Pending} (hTask : TaskBacked b st w p) :
    TurnBacked b A st w (tryLock s p) := by
  unfold tryLock
  split
  · exact answers_backed hActive hSigned rfl rfl fun response h => nomatch h
  · exact suspends_backed hActive hSigned rfl rfl hTask

/-- The first turn of every handler: it answers no key but the one that is there. -/
theorem enter_backed (req : Request) : TurnBacked b A st w (enter A s req ()) := by
  match req with
  | .dkgCreate => exact tryLock_backed hActive hSigned trivial
  | .recover => exact tryLock_backed hActive hSigned trivial
  | .dkgGet =>
    refine answers_backed hActive hSigned rfl rfl fun response h => ?_
    unfold dkgGet at h
    split at h
    · cases h
    · rename_i publicKey hKey
      rw [dkgReply_key h]
      exact hActive publicKey hKey
  | .sign .Ethereum unsigned =>
    show TurnBacked b A st w (signVia A s unsigned)
    unfold signVia
    split
    · exact answers_backed hActive hSigned rfl rfl fun response h => nomatch h
    split
    · exact answers_backed hActive hSigned rfl rfl fun response h => nomatch h
    split
    · exact answers_backed hActive hSigned rfl rfl fun response h => nomatch h
    · exact suspends_backed hActive hSigned rfl rfl trivial

/-- A later turn: a key or signatures come from the backend, whose operation the
cosigners have answered. -/
theorem resume_backed (hW : W.Bases)
    (hAnswered : ∀ p req a, (p, req, a) ∈ w.answered →
      StandsFor A (st p) (w.fleet.world p).shared.dir req a)
    {req : Request} {p : Pending} {out : Outcome} {t : ApiTurn} (hOk : TaskOk A req s p)
    (hTask : TaskBacked b st w p) (hEnds : BackendEnds b A render w p out)
    (h : resume A s p out = some t) : TurnBacked b A st w t := by
  unfold resume at h
  split at h <;> simp only [Option.some.injEq, reduceCtorEq] at h <;> subst h
  · -- `dkg_create`: the key comes from everybody's answers, and is the one it writes
    split
    · exact answers_backed hActive hSigned rfl rfl fun response h => nomatch h
    · exact suspends_backed hActive hSigned rfl rfl trivial
  · exact answers_backed hActive hSigned rfl rfl fun response h => nomatch h
  · rename_i publicKey
    obtain ⟨debug, roster, inst, answer, hCame, hResult⟩ := hEnds
    exact suspends_backed hActive hSigned rfl rfl (dkg_quorum hW hAnswered hCame hResult)
  · rename_i publicKey
    refine ⟨fun key h => ?_, hSigned, fun q h => (nomatch h), fun response h => ?_⟩
    · obtain rfl := Option.some.inj h
      exact hTask
    · rw [dkgReply_key (Sum.inl.inj h)]
      exact hTask
  · -- `recover`: the key it answers is the active one, or it fails
    split
    · exact answers_backed hActive hSigned rfl rfl fun response h => nomatch h
    · rename_i active hKey
      exact suspends_backed hActive hSigned rfl rfl (hActive active hKey)
  · exact answers_backed hActive hSigned rfl rfl fun response h => nomatch h
  · rename_i active publicKey
    split
    · exact answers_backed hActive hSigned rfl rfl fun response h => nomatch h
    · rename_i hSame
      refine answers_backed hActive hSigned rfl rfl fun response h => ?_
      rw [dkgReply_key h, not_not.mp hSame]
      exact hTask
  · -- `sign_via`: up to the backend it knows nothing new
    exact tryLock_backed hActive hSigned trivial
  · split
    · exact answers_backed hActive hSigned rfl rfl fun response h => nomatch h
    · exact suspends_backed hActive hSigned rfl rfl trivial
  · exact answers_backed hActive hSigned rfl rfl fun response h => nomatch h
  · -- the signatures come from the answers of `threshold` cosigners that permit the
    -- transaction
    rename_i job parts
    split
    · exact answers_backed hActive hSigned rfl rfl fun response h => nomatch h
    · obtain ⟨debug, probe, inst, answer, hCame, hResult⟩ := hEnds
      exact suspends_backed hActive hSigned rfl rfl
        (sign_approved hW hAnswered hCame hResult hOk.1.decodes)
  · -- the insertion: the entry is what this handler has just finalized
    rename_i job response
    obtain ⟨hJob, -, hBody⟩ := hOk
    refine ⟨hActive, fun d found h => ?_, fun q h => ?_, fun r h => nomatch h⟩
    · change Function.update s.signed job.txDigest (some response) d = some found at h
      by_cases hDigest : d = job.txDigest
      · rw [hDigest, Function.update_self] at h
        obtain rfl := Option.some.inj h
        exact ⟨job.active, job.tx, hActive job.active hJob.active, hBody, hJob.decodes.2, hTask⟩
      · rw [Function.update_of_ne hDigest] at h
        exact hSigned d found h
    · obtain rfl := Sum.inr.inj h
      trivial
  · exact answers_backed hActive hSigned rfl rfl fun response h => nomatch h

end

-- ---------------------------------------------------------------------------
-- One move
-- ---------------------------------------------------------------------------

/-- What one move of the fleet keeps, at every party. -/
theorem fleet_step {fleet fleet' : Fleet C} {m : FleetMove} (hOpens : ∀ p, Opens (st p).sealer)
    (hCodec : D.party.RoundTrips) (hInv : ∀ p, Cosigner.Inv D (st p) (fleet.world p))
    (hVouched : ∀ p, Vouched A (st p) (fleet.world p))
    (hConcerted : Concerted D text st n key fleet m)
    (hStep : Fleet.step A D st n fleet m = some fleet') (p : UInt8) :
    Keeps (fleet.world p).shared.dir (fleet'.world p).shared.dir ∧
      Vouched A (st p) (fleet'.world p) := by
  rcases Fleet.step_world hStep with hSame | ⟨q, i, world, rfl, hWorld, hUpdate⟩
  · rw [hSame]
    exact ⟨Keeps.refl _, hVouched p⟩
  · rw [hUpdate]
    by_cases hSelf : p = q
    · subst hSelf
      rw [Function.update_self]
      exact ⟨(step_inv (hInv p) (hOpens p) hCodec hConcerted.2.1 hWorld).2,
        (hVouched p).step (hInv p) (hOpens p) hCodec hConcerted.2.1 hWorld⟩
    · rw [Function.update_of_ne hSelf]
      exact ⟨Keeps.refl _, hVouched p⟩

/-- What a move of the fleet has answered stands. -/
theorem given_stands {fleet : Fleet C} (hVouched : ∀ p, Vouched A (st p) (fleet.world p))
    {m : FleetMove} {p : UInt8} {req : Cosigner.Request} {a : Cosigner.Answer}
    (h : (p, req, a) ∈ given fleet m) : StandsFor A (st p) (fleet.world p).shared.dir req a := by
  match m with
  | .incident q (.serve e) =>
    obtain ⟨⟨req', a'⟩, hSettled, hEq⟩ := List.mem_map.mp h
    obtain ⟨rfl, rfl, rfl⟩ : q = p ∧ req' = req ∧ a' = a := by simpa using hEq
    rw [Option.mem_toList, settled, Option.bind_eq_some_iff] at hSettled
    obtain ⟨req, hReq, hAnswer⟩ := hSettled
    obtain ⟨a, hAns, hPair⟩ := Option.map_eq_some_iff.mp hAnswer
    obtain ⟨rfl, rfl⟩ := Prod.mk.inj hPair
    obtain ⟨req', hReq', hStands⟩ := (hVouched q).answered _ a hAns
    obtain rfl := Option.some.inj (hReq.symm.trans hReq')
    exact hStands
  | .incident q .crash | .incident q (.crashInSave _ _ _ _ _) | .incident q (.debris _ _)
  | .advance _ _ => cases h

section

variable {fleet' : Fleet C} {answered' : List (UInt8 × Cosigner.Request × Cosigner.Answer)}
  (hKeeps : ∀ p, Keeps (w.fleet.world p).shared.dir (fleet'.world p).shared.dir)
include hKeeps

/-- A quorum keeps what it holds where no file is lost. -/
theorem Deployment.Quorum.keeps {publicKey : PubkeySec1} (h : Quorum b w publicKey) :
    Quorum b { w with fleet := fleet', answered := answered' } publicKey := by
  obtain ⟨holders, hSublist, hMany, hHolds⟩ := h
  exact ⟨holders, hSublist, hMany, fun c hc => (hHolds c hc).keeps (hKeeps c.1)⟩

/-- What was sold stays sold where no file is lost. -/
theorem Deployment.Sold.keeps {response : SignResponse} (h : Sold b A st w response) :
    Sold b A st { w with fleet := fleet', answered := answered' } response := by
  obtain ⟨publicKey, tx, hQuorum, hRest⟩ := h
  exact ⟨publicKey, tx, Quorum.keeps hKeeps hQuorum, hRest⟩

/-- A handler stays backed where no file is lost. -/
theorem Deployment.TaskBacked.keeps {p : Pending} (h : TaskBacked b st w p) :
    TaskBacked b st { w with fleet := fleet', answered := answered' } p := by
  match p with
  | .dkgWrite publicKey => exact Quorum.keeps hKeeps h
  | .recoverBackend publicKey => exact Quorum.keeps hKeeps h
  | .signInsert job _ => exact h
  | .dkgCheck | .dkgBackend | .recoverCheck | .signLock _ | .signRecheck _ | .signBackend _
  | .signReturn _ => trivial

/-- An API process stays backed where no file is lost. -/
theorem Deployment.Backed.keeps {api : ApiWorld} (h : Backed b A st w api) :
    Backed b A st { w with fleet := fleet', answered := answered' } api where
  started := h.started
  active publicKey hKey := Quorum.keeps hKeeps (h.active publicKey hKey)
  signed d response hCached := Sold.keeps hKeeps (h.signed d response hCached)
  task id p hTask := TaskBacked.keeps hKeeps (h.task id p hTask)
  key id response hAnswer := Quorum.keeps hKeeps (h.key id response hAnswer)

/-- An answer stays good where no file is lost. -/
theorem Deployment.Good.keeps {a : Answer} (h : Good b A st w a) :
    Good b A st { w with fleet := fleet', answered := answered' } a where
  key response hKey := Quorum.keeps hKeeps (h.key response hKey)
  sign response hSign := Sold.keeps hKeeps (h.sign response hSign)

end

/-- What API processes answer does not matter to what is backed. -/
theorem Deployment.Backed.retold {api api' : ApiWorld} {told : List Answer}
    (h : Backed b A st w api) : Backed b A st { w with api := some api', told } api :=
  ⟨h.started, h.active, h.signed, fun id p hTask => by
    have hBacked := h.task id p hTask
    rcases p with _ | _ | _ | _ | _ | _ | _ | _ | _ | _ <;> exact hBacked, h.key⟩

/-- One turn of the handler of request `id`. -/
theorem turn_settles {api : ApiWorld} {id : Nat} {t : ApiTurn} (ht : TurnBacked b A st w t)
    (hTasks : ∀ id p, api.tasks id = some p → TaskBacked b st w p)
    (hKeys : ∀ id response, api.answers id = some (.ok (.dkg response)) →
      Quorum b w response.publicKey)
    (hReach : ∃ active, (service A).Reach (World.init ⟨active, fun _ => none, false⟩)
      (api.settle id t)) : Backed b A st w (api.settle id t) where
  started := hReach
  active := ht.active
  signed := ht.signed
  task i p hTask := by
    rcases World.settle_tasks_cases hTask with ⟨-, hNext⟩ | ⟨-, hOld⟩
    · exact ht.task p hNext
    · exact hTasks i p hOld
  key i response hAnswer := by
    rcases World.settle_answers_cases hAnswer with ⟨-, hNext⟩ | hOld
    · exact ht.key response hNext
    · exact hKeys i response hOld

/-- An API process that serves goes on backed. -/
theorem Deployment.Backed.step {api api' : ApiWorld} (hW : W.Bases) (h : Backed b A st w api)
    (hAnswered : ∀ p req a, (p, req, a) ∈ w.answered →
      StandsFor A (st p) (w.fleet.world p).shared.dir req a)
    {e : Event Request Unit Outcome}
    (hEnds : ∀ id out, e = .resume id out → ∀ p, api.tasks id = some p →
      BackendEnds b A render w p out)
    (hStep : (service A).step api e = some api') : Backed b A st w api' := by
  obtain ⟨active, hReach⟩ := h.started
  have hLater : ∃ active, (service A).Reach (World.init ⟨active, fun _ => none, false⟩) api' :=
    ⟨active, Machine.Reach.step hReach trivial hStep⟩
  obtain ⟨id, req, ⟨⟩, rfl, -, rfl⟩ | ⟨id, out, p, t, rfl, hTask, hTurn, rfl⟩ |
    ⟨id, p, rfl, hTask, rfl⟩ := Service.step_cases hStep
  · -- a new handler, a later turn, or one that is dropped
    exact turn_settles (enter_backed h.active h.signed req) h.task h.key hLater
  · obtain ⟨req, -, hOk⟩ := (reach_inv hReach).task id p hTask
    exact turn_settles (resume_backed h.active h.signed hW hAnswered hOk (h.task id p hTask)
      (hEnds id out rfl p hTask) hTurn) h.task h.key hLater
  · have hKey : ((service A).drop api.shared p).active = api.shared.active := by
      show (if p.holds then _ else _ : SignerCell).active = _
      split <;> rfl
    have hCache : ((service A).drop api.shared p).signed = api.shared.signed := by
      show (if p.holds then _ else _ : SignerCell).signed = _
      split <;> rfl
    refine ⟨hLater, fun key h' => h.active key (hKey ▸ h'),
      fun d response h' => h.signed d response (hCache ▸ h'), fun i q hTask' => ?_, h.key⟩
    exact h.task i q (World.dropTask_tasks_cases hTask').2

-- ---------------------------------------------------------------------------
-- Every run
-- ---------------------------------------------------------------------------

theorem inv_start : Deployment.Inv b A D text st n key (start : Deployment C) where
  reach := Machine.Reach.refl _
  vouched _ := Vouched.started
  answered _ _ _ h := nomatch h
  api _ h := nomatch h
  told _ h := nomatch h

/-- **One move keeps everything backed.** -/
theorem inv_step (hW : W.Bases) (hOpens : ∀ p, Opens (st p).sealer) (hCodec : D.party.RoundTrips)
    {m : Move} (h : Deployment.Inv b A D text st n key w)
    (hCarried : Carried b A render D text st n key w m)
    (hStep : Deployment.step b A D st n w m = some w') :
    Deployment.Inv b A D text st n key w' := by
  match m with
  | .kill =>
    obtain rfl := Option.some.inj hStep
    exact ⟨h.reach, h.vouched, h.answered, fun _ hApi => (nomatch hApi),
      fun a hTold => ⟨(h.told a hTold).key, (h.told a hTold).sign⟩⟩
  | .fleet m =>
    obtain ⟨fleet, hFleet, rfl⟩ := Option.map_eq_some_iff.mp hStep
    -- the files gain, so what was backed stays backed; what is answered stands
    obtain ⟨j, -, hTracks⟩ := tracks_of_reach hOpens hCodec h.reach
    have hKept := fleet_step hOpens hCodec hTracks.inv h.vouched hCarried hFleet
    have hKeeps := fun p => (hKept p).1
    refine ⟨h.reach.step hCarried hFleet, fun p => (hKept p).2, ?_,
      fun api hApi => (h.api api hApi).keeps hKeeps, fun a hTold => (h.told a hTold).keeps hKeeps⟩
    intro p req a hMem
    rcases List.mem_append.mp hMem with hNew | hOld
    · exact given_stands (fun q => (hKept q).2) hNew
    · exact (h.answered p req a hOld).keeps (hKeeps p)
  | .api e =>
    -- one turn of the process, on backend operations that the cosigners answered
    obtain ⟨api, hApi, hServes⟩ := Option.bind_eq_some_iff.mp hStep
    obtain ⟨api', hServed, rfl⟩ := Option.map_eq_some_iff.mp hServes
    have hEnds : ∀ id out, e = .resume id out → ∀ p, api.tasks id = some p →
        BackendEnds b A render w p out := by
      rintro id out rfl p hTask
      exact hCarried api p hApi hTask
    have hBacked : Backed b A st w api' := (h.api api hApi).step hW h.answered hEnds hServed
    refine ⟨h.reach, h.vouched, h.answered, fun found hFound => ?_, fun a hTold => ?_⟩
    · obtain rfl := Option.some.inj hFound
      exact hBacked.retold
    rcases List.mem_append.mp hTold with hNew | hOld
    · -- a response just given is the cached one
      obtain ⟨active, hReach⟩ := hBacked.started
      have hAnswer : api'.answers (eventId e) = some a := Option.mem_toList.mp hNew
      refine ⟨fun response hKey => ?_, fun response hSign => ?_⟩
      · exact hBacked.key _ response (hKey ▸ hAnswer)
      · obtain ⟨req, -, hOk⟩ := (reach_inv hReach).answered _ a hAnswer
        obtain ⟨unsigned, tx, -, -, hCached⟩ := hOk response hSign
        exact hBacked.signed _ response hCached
    · have hGood := h.told a hOld
      exact ⟨hGood.key, hGood.sign⟩
  | .boot rounds =>
    obtain rfl := Option.some.inj hStep
    -- a process that comes up has an empty cache and the key a quorum reported
    refine ⟨h.reach, h.vouched, h.answered, fun api hApi => ?_, fun a hTold => ?_⟩
    · obtain ⟨active, hRecovered, rfl⟩ := Option.map_eq_some_iff.mp hApi
      have hOk : recoverWithRetry W rounds b.cosigners b.threshold = .ok active := by
        rcases hEnd : recoverWithRetry W rounds b.cosigners b.threshold with e | found
        · simp [hEnd, Except.toOption] at hRecovered
        · simp only [hEnd, Except.toOption, Option.some.injEq] at hRecovered
          rw [hRecovered]
      obtain ⟨i, -, hRound⟩ := recoverAgain_ok hOk
      refine ⟨⟨active, Machine.Reach.refl _⟩, fun publicKey hKey => ?_, fun d response hCached => ?_,
        fun id p hTask => ?_, fun id response hAnswer => ?_⟩
      · obtain rfl : active = some publicKey := hKey
        exact boot_quorum h.answered (hCarried i) hRound
      · cases hCached
      · cases hTask
      · cases hAnswer
    · have hGood := h.told a hTold
      exact ⟨hGood.key, hGood.sign⟩

/-- The invariant holds in every state of every run. -/
theorem inv_of_reach (hW : W.Bases) (hOpens : ∀ p, Opens (st p).sealer)
    (hCodec : D.party.RoundTrips)
    (hReach : (machine b A D st n).Reach (Carried b A render D text st n key) start w) :
    Deployment.Inv b A D text st n key w :=
  hReach.invariant inv_start fun _ _ _ h hCarried hStep =>
    inv_step hW hOpens hCodec h hCarried hStep

/-- A key that a quorum holds is the one key of the fleet. -/
theorem quorum_key (hLabels : ∀ c ∈ b.cosigners, c.1 ∈ ids n) {publicKey : PubkeySec1}
    (hKeys : ∀ p ∈ ids n, ∀ metadata, (w.fleet.world p).shared.dir.metadata = some metadata →
      metadata = activeMetadata publicKey) {found : PubkeySec1} (h : Quorum b w found) :
    found = publicKey := by
  obtain ⟨holders, hSublist, hMany, hHolds⟩ := h
  have hTwo := b.two_le
  obtain ⟨c, hc⟩ := List.exists_mem_of_length_pos (l := holders) (by omega)
  have hSame := hKeys c.1 (hLabels c (hSublist.subset hc)) _ (hHolds c hc).metadata
  exact congrArg SignerMetadata.publicKey hSame

/-- **One wallet.** In every state of every run of the deployment, with cosigners
and API processes crashing and restarting at any time, there is one key: all
metadata in the fleet is of it, an API process that is up serves under it or under
none, and every key an API process has ever answered is it. A key that is served
or was answered is held by `threshold` cosigners with its shards. -/
theorem one_wallet (hW : W.Bases) (hOpens : ∀ p, Opens (st p).sealer)
    (hCodec : D.party.RoundTrips) (hLabels : ∀ c ∈ b.cosigners, c.1 ∈ ids n)
    (hReach : (machine b A D st n).Reach (Carried b A render D text st n key) start w) :
    ∃ publicKey,
      (∀ p ∈ ids n, ∀ metadata, (w.fleet.world p).shared.dir.metadata = some metadata →
        metadata = activeMetadata publicKey) ∧
      (∀ api, w.api = some api → ∀ active, api.shared.active = some active →
        active = publicKey ∧ Quorum b w publicKey) ∧
      ∀ response, .ok (.dkg response) ∈ w.told →
        response.publicKey = publicKey ∧ Quorum b w publicKey := by
  have h : Deployment.Inv b A D text st n key w := inv_of_reach hW hOpens hCodec hReach
  obtain ⟨publicKey, hKeys⟩ := one_key hOpens hCodec h.reach
  have hOne : ∀ {found}, Quorum b w found → found = publicKey ∧ Quorum b w publicKey := by
    intro found hQuorum
    obtain rfl := quorum_key hLabels hKeys hQuorum
    exact ⟨rfl, hQuorum⟩
  refine ⟨publicKey, hKeys, fun api hApi active hActive => ?_, fun response hTold => ?_⟩
  · exact hOne ((h.api api hApi).active active hActive)
  · exact hOne ((h.told _ hTold).key response rfl)

/-- **What is signed was permitted.** Every signed transaction that an API process
has ever answered is the signed form of a valid transaction which the policies of
`threshold` different cosigners permit, and its signature recovers to the address
of the one key of the fleet. -/
theorem signed_permitted (hW : W.Bases) (hOpens : ∀ p, Opens (st p).sealer)
    (hCodec : D.party.RoundTrips) (hLabels : ∀ c ∈ b.cosigners, c.1 ∈ ids n)
    (hReach : (machine b A D st n).Reach (Carried b A render D text st n key) start w) :
    ∃ publicKey,
      (∀ p ∈ ids n, ∀ metadata, (w.fleet.world p).shared.dir.metadata = some metadata →
        metadata = activeMetadata publicKey) ∧
      ∀ response, .ok (.sign response) ∈ w.told →
        ∃ tx, BodyOk A publicKey tx response ∧ Eth.validateUnsigned tx = .ok () ∧
          ∃ signers : List UInt8, signers.Nodup ∧ signers.length = b.threshold ∧
            (∀ p ∈ signers, p ∈ ids n) ∧ ∀ p ∈ signers, (st p).policy.Permits tx := by
  have h : Deployment.Inv b A D text st n key w := inv_of_reach hW hOpens hCodec hReach
  obtain ⟨publicKey, hKeys⟩ := one_key hOpens hCodec h.reach
  refine ⟨publicKey, hKeys, fun response hTold => ?_⟩
  obtain ⟨found, tx, hQuorum, hBody, hValid, signers, hSublist, hLength, hPermits⟩ :=
    (h.told _ hTold).sign response rfl
  obtain rfl := quorum_key hLabels hKeys hQuorum
  refine ⟨tx, hBody, hValid, signers.map Prod.fst, b.nodup.sublist (hSublist.map _),
    by rw [List.length_map, hLength], ?_, ?_⟩
  · intro p hp
    obtain ⟨c, hc, rfl⟩ := List.mem_map.mp hp
    exact hLabels c (hSublist.subset hc)
  · intro p hp
    obtain ⟨c, hc, rfl⟩ := List.mem_map.mp hp
    exact hPermits c hc

-- ---------------------------------------------------------------------------
-- Starting again
-- ---------------------------------------------------------------------------

/-- Files keep what they hold through every run of the deployment. -/
theorem files_keep (hW : W.Bases) (hOpens : ∀ p, Opens (st p).sealer)
    (hCodec : D.party.RoundTrips) (h : Deployment.Inv b A D text st n key w)
    (hLater : (machine b A D st n).Reach (Carried b A render D text st n key) w w') (p : UInt8) :
    Keeps (w.fleet.world p).shared.dir (w'.fleet.world p).shared.dir := by
  have hBoth : Deployment.Inv b A D text st n key w' ∧
      Keeps (w.fleet.world p).shared.dir (w'.fleet.world p).shared.dir := by
    refine hLater.invariant ⟨h, Keeps.refl _⟩ ?_
    rintro v m v' ⟨hInv, hKeeps⟩ hCarried hStep
    refine ⟨inv_step hW hOpens hCodec hInv hCarried hStep, ?_⟩
    match m with
    | .kill =>
      obtain rfl := Option.some.inj hStep
      exact hKeeps
    | .boot rounds =>
      obtain rfl := Option.some.inj hStep
      exact hKeeps
    | .api e =>
      obtain ⟨api, -, hServes⟩ := Option.bind_eq_some_iff.mp hStep
      obtain ⟨api', -, rfl⟩ := Option.map_eq_some_iff.mp hServes
      exact hKeeps
    -- only the fleet has files
    | .fleet m =>
      obtain ⟨fleet, hFleet, rfl⟩ := Option.map_eq_some_iff.mp hStep
      obtain ⟨j, -, hTracks⟩ := tracks_of_reach hOpens hCodec hInv.reach
      exact hKeeps.trans
        (fleet_step hOpens hCodec hTracks.inv hInv.vouched hCarried hFleet p).1
  exact hBoth.2

/-- What probing a cosigner from `w` on can come back with: a failed connection, or
its answer from the files it has by then. -/
def Probed (b : RemoteBackend W) (A : Eth.Alloy) (render : Cosigner.ErrorBody → String) (D : Dkls)
    (text : UInt8 → UInt8 → String) (st : UInt8 → CosignerState C) (n : Nat)
    (key : Session → PubkeySec1) (w : Deployment C) (p : UInt8) (sent : Sent PublicKeyInfo) : Prop :=
  (∃ e, sent = .error e) ∨
    ∃ w', (machine b A D st n).Reach (Carried b A render D text st n key) w w' ∧
      sent = .ok (rendered A render readKey
        (signer (st p) (w'.fleet.world p).shared.dir ⟨none, none⟩))

/-- Files that hold a key answer it. -/
theorem signer_answers {c : CosignerState C} {dir : ShardDir} {publicKey : PubkeySec1}
    (hSound : Sound D c.sealer dir) (hOpens : Opens c.sealer) (h : Holds dir publicKey) :
    signer c dir ⟨none, none⟩ = .ok (.publicKey ⟨publicKey⟩) := by
  obtain ⟨sealed, hShard⟩ := Option.isSome_iff_exists.mp h.shard
  obtain ⟨metadata, nonce, share, -, hSealed, -⟩ := hSound.keyed sealed hShard
  have hLoad : loadShard c.sealer dir none = .ok share := loadShard_of_sealed hOpens hShard hSealed
  have hMetadata : loadMetadata dir none = .ok (activeMetadata publicKey) := by
    rw [loadMetadata, h.metadata]
    rfl
  have hActive : loadActive c.sealer dir none none = .ok (some publicKey) := by
    rw [loadActive, hMetadata, hLoad]
    rfl
  simp only [signer, hActive]
  rfl

/-- One round of probes, all that answer answering the key. -/
theorem round_recovers (hW : W.Bases) {answer : UInt8 → Sent PublicKeyInfo} {publicKey : PubkeySec1}
    (hProbed : ∀ c ∈ b.cosigners, (∃ e, answer c.1 = .error e) ∨
      answer c.1 = .ok ⟨200, none, .ok ⟨publicKey⟩⟩) :
    if b.threshold ≤ b.cosigners.countP fun c => (answer c.1).isOk then
      recoverActive W answer b.cosigners b.threshold = .ok (some publicKey)
    else ∃ reachable detail, recoverActive W answer b.cosigners b.threshold =
      .error (.Transport reachable b.threshold detail) := by
  have hTwo := b.two_le
  -- who answers, answers the key: the reports are the answers
  have hReport : ∀ c ∈ b.cosigners, report W answer c =
      if (answer c.1).isOk then some (c.1, some publicKey) else none := by
    intro c hc
    obtain ⟨joined, hJoin⟩ := hW c.2 "signer" (b.https c hc) (by simp)
    rcases hProbed c hc with ⟨e, hError⟩ | hOk
    · simp [report, fetchSigner, hJoin, hError, Except.isOk, Except.toBool]
    · simp only [report, fetchSigner, hJoin, hOk, Except.isOk, Except.toBool]
      rfl
  split
  · -- enough of them: they agree
    rename_i hEnough
    refine (recoverActive_some (by omega)).mpr ⟨?_, ?_⟩
    · rw [List.countP_filterMap]
      refine hEnough.trans (le_of_eq (List.countP_congr fun c hc => ?_))
      rw [hReport c hc]
      by_cases hOk : (answer c.1).isOk = true <;> simp [hOk]
    · intro r hr held hHeld
      obtain ⟨c, hc, hEq⟩ := List.mem_filterMap.mp hr
      rw [hReport c hc] at hEq
      split at hEq
      · obtain rfl := Option.some.inj hEq
        exact (Option.some.inj hHeld).symm
      · cases hEq
  · -- too few: the round fails for want of reports
    rename_i hFew
    have hLength : (b.cosigners.filterMap (report W answer)).length =
        b.cosigners.countP fun c => (answer c.1).isOk := by
      rw [List.length_filterMap_eq_countP]
      refine List.countP_congr fun c hc => ?_
      rw [hReport c hc]
      by_cases hOk : (answer c.1).isOk = true <;> simp [hOk]
    obtain ⟨-, detail, hEnd⟩ | ⟨hMany, -⟩ := recoverActive_cases W answer b.cosigners b.threshold
    · exact ⟨_, detail, hEnd⟩
    · omega

/-- The rounds of a start, all that answer answering the key. -/
theorem rounds_recover (hW : W.Bases) {publicKey : PubkeySec1} {k : Nat}
    {rounds : Nat → UInt8 → Sent PublicKeyInfo}
    (hProbed : ∀ i, ∀ c ∈ b.cosigners, (∃ e, rounds i c.1 = .error e) ∨
      rounds i c.1 = .ok ⟨200, none, .ok ⟨publicKey⟩⟩) :
    ((∃ i, i ≤ k ∧ b.threshold ≤ b.cosigners.countP fun c => (rounds i c.1).isOk) →
      recoverAgain W b.cosigners b.threshold k rounds = .ok (some publicKey)) ∧
    ((∀ i, i ≤ k → b.cosigners.countP (fun c => (rounds i c.1).isOk) < b.threshold) →
      ∃ reachable detail, recoverAgain W b.cosigners b.threshold k rounds =
        .error (.Transport reachable b.threshold detail)) := by
  -- round by round: one with enough answers ends the loop, one with too few is retried
  induction k generalizing rounds with
  | zero =>
    have hRound := round_recovers hW (hProbed 0)
    constructor
    · rintro ⟨i, hi, hMany⟩
      obtain rfl : i = 0 := by omega
      rwa [if_pos hMany] at hRound
    · intro hFew
      rwa [if_neg (Nat.not_le.mpr (hFew 0 le_rfl))] at hRound
  | succ k ih =>
    have hRound := round_recovers hW (hProbed 0)
    obtain ⟨hUp, hDown⟩ := ih fun i => hProbed (i + 1)
    by_cases hNow : b.threshold ≤ b.cosigners.countP fun c => (rounds 0 c.1).isOk
    · rw [if_pos hNow] at hRound
      refine ⟨fun _ => by rw [recoverAgain, hRound], fun hFew => ?_⟩
      have hFewNow := hFew 0 (by omega)
      omega
    · rw [if_neg hNow] at hRound
      obtain ⟨reachable, detail, hTransport⟩ := hRound
      simp only [recoverAgain, hTransport]
      constructor
      · rintro ⟨_ | i, hi, hMany⟩
        · exact absurd hMany hNow
        · exact hUp ⟨i, by omega, hMany⟩
      · exact fun hFew => hDown fun i hi => hFew (i + 1) (by omega)

/-- **A complete wallet survives every restart.** Once every cosigner has a shard,
an API process started at any later time comes up with the one key if in one of
its ten rounds of probes `threshold` cosigners answer, whichever they are and
whatever refreshes are under way; if in none, it does not come up. -/
theorem boot_recovers (hW : W.Bases) (hOpens : ∀ p, Opens (st p).sealer)
    (hCodec : D.party.RoundTrips) (hLabels : ∀ c ∈ b.cosigners, c.1 ∈ ids n)
    (hReach : (machine b A D st n).Reach (Carried b A render D text st n key) start w)
    (hComplete : ∀ c ∈ b.cosigners, (w.fleet.world c.1).shared.dir.shard.isSome = true) :
    ∃ publicKey, (∀ c ∈ b.cosigners, Holds (w.fleet.world c.1).shared.dir publicKey) ∧
      ∀ rounds : Nat → UInt8 → Sent PublicKeyInfo,
        (∀ i, ∀ c ∈ b.cosigners, Probed b A render D text st n key w c.1 (rounds i c.1)) →
        ((∃ i, i ≤ 9 ∧ b.threshold ≤ b.cosigners.countP fun c => (rounds i c.1).isOk) →
          recoverWithRetry W rounds b.cosigners b.threshold = .ok (some publicKey)) ∧
        ((∀ i, i ≤ 9 → b.cosigners.countP (fun c => (rounds i c.1).isOk) < b.threshold) →
          ∃ reachable detail, recoverWithRetry W rounds b.cosigners b.threshold =
            .error (.Transport reachable b.threshold detail)) := by
  have h : Deployment.Inv b A D text st n key w := inv_of_reach hW hOpens hCodec hReach
  obtain ⟨j, -, hTracks⟩ := tracks_of_reach hOpens hCodec h.reach
  obtain ⟨publicKey, hKeys⟩ := one_key hOpens hCodec h.reach
  have hHolds : ∀ c ∈ b.cosigners, Holds (w.fleet.world c.1).shared.dir publicKey := by
    intro c hc
    obtain ⟨sealed, hShard⟩ := Option.isSome_iff_exists.mp (hComplete c hc)
    obtain ⟨metadata, nonce, share, hMetadata, -⟩ := (hTracks.inv c.1).sound.keyed sealed hShard
    refine ⟨?_, hComplete c hc⟩
    rw [hMetadata, hKeys c.1 (hLabels c hc) metadata hMetadata]
  refine ⟨publicKey, hHolds, fun rounds hProbed => rounds_recover hW fun i c hc => ?_⟩
  -- an answer is from the files by then, which have kept the shard
  rcases hProbed i c hc with hLost | ⟨w', hLater, hAnswer⟩
  · exact Or.inl hLost
  · have hInv : Deployment.Inv b A D text st n key w' :=
      inv_of_reach hW hOpens hCodec (hReach.trans hLater)
    obtain ⟨j', -, hTracks'⟩ := tracks_of_reach hOpens hCodec hInv.reach
    have hStill := (hHolds c hc).keeps (files_keep hW hOpens hCodec h hLater c.1)
    right
    rw [hAnswer, signer_answers (hTracks'.inv c.1).sound (hOpens c.1) hStill]
    rfl

end

-- ---------------------------------------------------------------------------
-- One wallet, one transfer
-- ---------------------------------------------------------------------------

namespace Sample

open Cosigner.Sample (party everyone generating refreshing retrying concerted concerted_sound)

/-- Three cosigners and the API process. -/
def wallet : Machine (Deployment Symbolic.crypto) Move :=
  Deployment.machine Ipc.Sample.backend Eth.Sample.alloy Cosigner.Sample.dkls party 3

/-- What binds their moves. -/
def Carries : Deployment Symbolic.crypto → Move → Prop :=
  Deployment.Carried Ipc.Sample.backend Eth.Sample.alloy (fun _ => "") Cosigner.Sample.dkls
    Carbon.Sample.text party 3 fun _ => Eth.Sample.pubkey

/-- What everybody answers. -/
def answering {T : Type} (read : Cosigner.Reply → Except String T) (a : Cosigner.Answer)
    (_ : UInt8) : Sent T :=
  .ok (rendered Eth.Sample.alloy (fun _ => "") read a)

/-- The signature everybody agrees on. -/
def parts : EcdsaParts := ⟨Eth.Sample.lowS.r, Eth.Sample.lowS.s, Eth.Sample.lowS.v⟩

/-- The answer of every cosigner to `/dkg`. -/
def keyAnswer : Cosigner.Answer := .ok (.publicKey ⟨Eth.Sample.pubkey⟩)

/-- The answer of every signer to `/sign`. -/
def signAnswer : Cosigner.Answer := .ok (.signatures ⟨[.ofEcdsa parts]⟩)

/-- One roster everywhere. -/
def rosters (_ : UInt8) : Sent RosterInfo := .ok ⟨200, none, .ok ⟨3, 2, .repeatByte 32 1⟩⟩

/-- The backend's key generation, on those answers. -/
def dkgCall : List (Post Ipc.Sample.web StartDkgRequest) × Option (Except MpcError PubkeySec1) :=
  Ipc.Sample.backend.dkg (fun _ => "") rosters (.repeatByte 32 0x2a) (answering readKey keyAnswer)

/-- Everybody passes the readiness probe. -/
def ready (_ : UInt8) : Except String Nat := .ok 200

/-- The backend's signing, on those answers. -/
def signCall : List (Post Ipc.Sample.web StartSignRequest) ×
    Option (Except MpcError (List EcdsaParts)) :=
  Ipc.Sample.backend.sign (fun _ => "") ready (.repeatByte 32 0x2c) .Ethereum unsigned
    (answering readSignatures signAnswer)

/-- What the two it prefers are posted. -/
def toSign : StartSignRequest := ⟨.repeatByte 32 0x2c, .Ethereum, unsigned, [0, 2]⟩

/-- That is the request it sends. -/
theorem signRequest_toSign : signRequest (.repeatByte 32 0x2c) .Ethereum unsigned
    (Ipc.Sample.backend.selected ready) = toSign := by
  show (⟨_, _, _, ([2, 0] : List UInt8).mergeSort (· ≤ ·)⟩ : StartSignRequest) = toSign
  simp [List.mergeSort, List.MergeSort.Internal.splitInTwo, toSign]

/-- Everybody posted to has answered so. -/
def came {Req : Type} (w : Deployment Symbolic.crypto) (request : Req → Cosigner.Request)
    (posts : List (Post Ipc.Sample.web Req)) (a : Cosigner.Answer) : Bool :=
  posts.all fun post => (post.party, request post.body, a) ∈ w.answered

theorem came_sound {T Req : Type} {w : Deployment Symbolic.crypto}
    {read : Cosigner.Reply → Except String T} {request : Req → Cosigner.Request}
    {posts : List (Post Ipc.Sample.web Req)} {a : Cosigner.Answer}
    (h : came w request posts a = true) :
    Deployment.CameTo Eth.Sample.alloy (fun _ => "") w read request posts (answering read a) := by
  intro post hPost resp hResp
  obtain rfl := Except.ok.inj hResp
  exact ⟨a, of_decide_eq_true (List.all_eq_true.mp h post hPost), rfl⟩

/-- `BackendEnds` for the operations of this run, as a check. -/
def ends (w : Deployment Symbolic.crypto) : Pending → Outcome → Bool
  | .dkgBackend, .key result => came w .dkg dkgCall.1 keyAnswer && dkgCall.2 = some result
  | .signBackend job, .parts result =>
    job.unsigned = unsigned && (Ipc.Sample.backend.selected ready).all (fun c =>
      (c.1, Cosigner.Request.sign toSign, signAnswer) ∈ w.answered) && signCall.2 = some result
  | .recoverBackend _, .key _ => false
  | _, _ => true

theorem ends_sound {w : Deployment Symbolic.crypto} {p : Pending} {out : Outcome}
    (h : ends w p out = true) :
    Deployment.BackendEnds Ipc.Sample.backend Eth.Sample.alloy (fun _ => "") w p out := by
  unfold ends at h
  split at h
  · rw [Bool.and_eq_true, decide_eq_true_eq] at h
    exact ⟨_, _, _, _, came_sound h.1, h.2⟩
  · simp only [Bool.and_eq_true, decide_eq_true_eq, List.all_eq_true] at h
    obtain ⟨⟨hUnsigned, hAnswered⟩, hResult⟩ := h
    refine ⟨fun _ => "", ready, .repeatByte 32 0x2c, answering readSignatures signAnswer, ?_, ?_⟩
    · intro post hPost resp hResp
      obtain rfl := Except.ok.inj hResp
      rw [hUnsigned] at hPost
      obtain ⟨c, hc, hParty, hBody⟩ := sign_post_of_mem Ipc.Sample.web_bases hPost
      rw [← hParty, hBody, signRequest_toSign]
      exact ⟨signAnswer, hAnswered c hc, rfl⟩
    · rw [hUnsigned]
      exact hResult
  · cases h
  · rename_i hDkg hSign hRecover
    unfold Deployment.BackendEnds
    split
    · exact absurd rfl (hDkg _ rfl)
    · exact absurd rfl (hRecover _ _ rfl)
    · exact absurd rfl (hSign _ _ rfl)
    · trivial

/-- `Carried` for the moves of this run, as a check. -/
def carried (w : Deployment Symbolic.crypto) : Move → Bool
  | .fleet m => concerted w.fleet m
  | .api (.resume id out) => (w.api.bind fun api => api.tasks id).all fun p => ends w p out
  | .boot _ => false
  | .api _ | .kill => true

theorem carried_sound (w : Deployment Symbolic.crypto) (m : Move) (h : carried w m = true) :
    Carries w m := by
  match m with
  | .fleet m => exact concerted_sound w.fleet m h
  | .api (.resume id out) =>
    intro api p hApi hTask
    simp only [carried, hApi, Option.bind_some, hTask, Option.all_some] at h
    exact ends_sound h
  | .boot rounds => cases h
  | .api (.receive id req ⟨⟩) => trivial
  | .api (.cancel id) => trivial
  | .kill => trivial

/-- Everybody is asked for a signer and has none. -/
def probing : List Move :=
  everyone.map fun p => .fleet (.incident p (.serve (.receive 7 .signer ⟨none, none⟩)))

/-- The probes of the first start: nobody has a key. -/
def unready (_ : Nat) : UInt8 → Sent PublicKeyInfo := answering readKey (.error .NoSigner)

theorem probing_some :
    (wallet.runIf carried Deployment.start probing).isSome = true := by decide +kernel

/-- The deployment once everybody was asked. -/
def probed : Deployment Symbolic.crypto :=
  (wallet.runIf carried Deployment.start probing).get probing_some

theorem booting_some : (wallet.step probed (.boot unready)).isSome = true := rfl

/-- An API process is up, without a key. -/
def booted : Deployment Symbolic.crypto := (wallet.step probed (.boot unready)).get booting_some

/-- The key generation, asked for at the API. -/
def creating : List Move :=
  [.api (.receive 0 .dkgCreate ()), .api (.resume 0 .tick)] ++ generating.map .fleet ++
    [.api (.resume 0 (.key (.ok Eth.Sample.pubkey))), .api (.resume 0 .tick)]

/-- Two refreshes, each cut off at somebody, the second on shards that do not belong
together. -/
def forking : List Move := (refreshing ++ retrying).map .fleet

/-- A transfer, asked for at the API and signed by the two it prefers. -/
def paying : List Move :=
  [.api (.receive 1 (.sign .Ethereum unsigned) ()), .api (.resume 1 .tick),
    .api (.resume 1 .tick)] ++
  [0, 2].flatMap (fun p => [.fleet (.incident p (.serve (.receive 8 (.sign toSign) ⟨none, none⟩))),
    .fleet (.incident p (.serve (.resume 8 (.dialed (.ok ()))))),
    .fleet (.incident p (.serve (.resume 8 (.parts (some (.ok parts))))))]) ++
  [.api (.resume 1 (.parts (.ok [parts]))), .api (.resume 1 .tick), .api (.resume 1 .tick)]

theorem paying_some :
    (wallet.runIf carried booted (creating ++ forking ++ paying)).isSome = true := by decide +kernel

/-- The deployment after all of it. -/
def paid : Deployment Symbolic.crypto :=
  (wallet.runIf carried booted (creating ++ forking ++ paying)).get paying_some

theorem booted_reach : wallet.Reach Carries Deployment.start booted := by
  have hProbed : wallet.Reach Carries Deployment.start probed :=
    Machine.reach_of_runIf carried_sound (Option.some_get probing_some).symm
  refine hProbed.step (a := .boot unready) ?_ (Option.some_get booting_some).symm
  have hAnswered : ∀ c ∈ Ipc.Sample.backend.cosigners,
      (c.1, Cosigner.Request.signer, Except.error CosignerError.NoSigner) ∈ probed.answered := by
    decide +kernel
  intro i c hc resp hResp
  obtain rfl := Except.ok.inj hResp
  exact ⟨_, hAnswered c hc, rfl⟩

theorem paid_reach : wallet.Reach Carries Deployment.start paid :=
  booted_reach.trans (Machine.reach_of_runIf carried_sound (Option.some_get paying_some).symm)

theorem labels : ∀ c ∈ Ipc.Sample.backend.cosigners, c.1 ∈ ids 3 := by decide

end Sample

/-- The API named the key that two cosigners or more hold. -/
theorem one_wallet_paid :
    Deployment.Quorum Ipc.Sample.backend Sample.paid Eth.Sample.pubkey := by
  obtain ⟨publicKey, -, -, hTold⟩ := one_wallet Ipc.Sample.web_bases
    (fun _ => passthrough_opens) Cosigner.Sample.dkls_party Sample.labels Sample.paid_reach
  obtain ⟨hKey, hQuorum⟩ := hTold ⟨Eth.Sample.pubkey,
    [(.Ethereum, hexEncode Eth.Sample.sender.bytes)]⟩ (by decide +kernel)
  rwa [← hKey] at hQuorum

/-- The transfer's response is under a transaction that two policies permit. -/
theorem signed_permitted_paid :
    ∃ tx, tx.signatureHash Eth.Sample.alloy = Eth.Sample.signingHash ∧
      ∃ signers : List UInt8, signers.length = 2 ∧ ∀ p ∈ signers,
        (Cosigner.Sample.party p).policy.Permits tx := by
  obtain ⟨publicKey, -, hTold⟩ := signed_permitted Ipc.Sample.web_bases
    (fun _ => passthrough_opens) Cosigner.Sample.dkls_party Sample.labels Sample.paid_reach
  obtain ⟨tx, hBody, -, signers, -, hLength, -, hPermits⟩ :=
    hTold Sample.response (by decide +kernel)
  exact ⟨tx, hBody.1.symm, signers, hLength, hPermits⟩

/-- Cosigner 1 is down, the others answer. -/
def Sample.down (_ : Nat) (p : UInt8) : Sent PublicKeyInfo :=
  if p = 1 then .error "connection refused" else Sample.answering readKey Sample.keyAnswer p

/-- Without cosigner 1, and with shards of three generations about, the wallet comes
back at the first round. -/
theorem boot_recovers_paid :
    recoverWithRetry Ipc.Sample.web Sample.down Ipc.Sample.backend.cosigners
      Ipc.Sample.backend.threshold = .ok (some Eth.Sample.pubkey) := by
  have hComplete : ∀ c ∈ Ipc.Sample.backend.cosigners,
      (Sample.paid.fleet.world c.1).shared.dir.shard.isSome = true := by decide +kernel
  obtain ⟨publicKey, hHolds, hBoot⟩ := boot_recovers Ipc.Sample.web_bases
    (fun _ => passthrough_opens) Cosigner.Sample.dkls_party Sample.labels Sample.paid_reach hComplete
  have hKeys : ∀ c ∈ Ipc.Sample.backend.cosigners, (Sample.paid.fleet.world c.1).shared.dir.metadata
      = some (activeMetadata Eth.Sample.pubkey) := by decide +kernel
  obtain ⟨c₀, hc₀⟩ : ∃ c, c ∈ Ipc.Sample.backend.cosigners := ⟨_, List.mem_cons_self⟩
  have hSame := Option.some.inj ((hHolds c₀ hc₀).metadata.symm.trans (hKeys c₀ hc₀))
  obtain rfl : publicKey = Eth.Sample.pubkey := congrArg SignerMetadata.publicKey hSame
  have hAnswers : ∀ c ∈ Ipc.Sample.backend.cosigners, signer (Cosigner.Sample.party c.1)
      (Sample.paid.fleet.world c.1).shared.dir ⟨none, none⟩ = Sample.keyAnswer := by decide +kernel
  obtain ⟨hUp, -⟩ := hBoot Sample.down fun i c hc => by
    by_cases hDown : c.1 = 1
    · exact Or.inl ⟨"connection refused", if_pos hDown⟩
    · refine Or.inr ⟨Sample.paid, Machine.Reach.refl _, ?_⟩
      rw [hAnswers c hc]
      exact if_neg hDown
  exact hUp ⟨0, by omega, by decide +kernel⟩

end Sovra.Api
