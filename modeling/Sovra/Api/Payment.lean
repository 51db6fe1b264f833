import Sovra.Api.Deployment
import Sovra.Api.Relay
import Sovra.Eth.Finalize

/-!
# Sovra — from the order to the node

The deployment with all of the API's handlers: what `/v1/prepare` answers may be
sent to `/v1/sign`, and what that answers to `/v1/broadcast`, by anybody, in any
order and across restarts. The node's answers are inputs.

* `prepareReply_ok`  — a prepared transaction is the one that was ordered.
* `ordered_is_paid` — what is signed for a prepared transaction is the order,
  was permitted by `threshold` policies and is what the broadcast gate takes; and
  all that reaches the node is signed by the one key.
-/

namespace Sovra.Api

open Lib Mpc State Ipc Carbon Cosigner

-- ---------------------------------------------------------------------------
-- The order
-- ---------------------------------------------------------------------------

/-- The transaction has the type that was asked for, with its access list. -/
def OfType (type_ : Eth.EthTxType) (accessList : Eth.AccessList) : Eth.EthTx → Prop
  | .Legacy _ => type_ = .Legacy ∧ accessList = []
  | .Eip2930 tx => type_ = .Eip2930 ∧ accessList = tx.accessList
  | .Eip1559 tx => type_ = .Eip1559 ∧ accessList = tx.accessList

/-- The fees are what the node asks for. -/
def Priced (provider : Eth.EnrichRpc) : Eth.EthTx → Prop
  | .Legacy tx => provider.getGasPrice = .ok tx.gasPrice
  | .Eip2930 tx => provider.getGasPrice = .ok tx.gasPrice
  | .Eip1559 tx => provider.estimateEip1559Fees = .ok ⟨tx.maxFeePerGas, tx.maxPriorityFeePerGas⟩

/-- The nonce of a transaction of any type. -/
def nonceOf : Eth.EthTx → UInt64
  | .Legacy tx => tx.nonce
  | .Eip2930 tx => tx.nonce
  | .Eip1559 tx => tx.nonce

/-- The transaction is what `body` orders, by `sender`, completed by the node. -/
structure Ordered (body : PrepareRequest) (sender : Address) (provider : Eth.EnrichRpc)
    (tx : Eth.EthTx) : Prop where
  to_ : tx.to = body.to_
  value : tx.value = body.value
  data : tx.input = body.data
  type_ : OfType body.txType body.accessList tx
  chain : ∃ id, provider.getChainId = .ok id ∧ tx.chainId = some id
  nonce : provider.getTransactionCount sender = .ok (nonceOf tx)
  fees : Priced provider tx
  gas : ∃ request, provider.estimateGas request = .ok tx.gasLimit ∧ request.sender = sender ∧
    request.kind.to = body.to_ ∧ request.value = body.value ∧ request.input = body.data

section

variable {A : Eth.Alloy} {body : PrepareRequest} {sender : Address} {provider : Eth.EnrichRpc}

/-- The fees and the type come from one match. -/
theorem enrichParams_ok {params : Eth.TxParams} {req : Eth.TxRequest}
    (hAccess : ¬ (req.txType = .Legacy ∧ req.accessList ≠ []))
    (h : Eth.enrichParams req provider = .ok params) (intent : Eth.TxIntent) :
    OfType req.txType req.accessList (.ofIntent { intent with params }) ∧
      Priced provider (.ofIntent { intent with params }) := by
  unfold Eth.enrichParams at h
  split at h
  · rename_i hType
    simp only [bind_eq_ok, pure_eq_ok] at h
    obtain ⟨price, hPrice, rfl⟩ := h
    exact ⟨⟨hType, not_not.mp fun hList => hAccess ⟨hType, hList⟩⟩, hPrice⟩
  · rename_i hType
    simp only [bind_eq_ok, pure_eq_ok] at h
    obtain ⟨price, hPrice, rfl⟩ := h
    exact ⟨⟨hType, rfl⟩, hPrice⟩
  · rename_i hType
    simp only [bind_eq_ok, pure_eq_ok] at h
    obtain ⟨fees, hFees, rfl⟩ := h
    exact ⟨⟨hType, rfl⟩, hFees⟩

/-- What an intent says, its transaction says, whatever the type. -/
theorem ofIntent_fields (intent : Eth.TxIntent) :
    (Eth.EthTx.ofIntent intent).to = intent.kind.to ∧
      (Eth.EthTx.ofIntent intent).value = intent.value ∧
      (Eth.EthTx.ofIntent intent).input = intent.data ∧
      (Eth.EthTx.ofIntent intent).chainId = some intent.chainId ∧
      nonceOf (.ofIntent intent) = intent.nonce ∧
      (Eth.EthTx.ofIntent intent).gasLimit = intent.gasLimit := by
  obtain ⟨chainId, nonce, kind, value, gasLimit, data, params⟩ := intent
  cases params with
  | Legacy gasPrice => exact ⟨rfl, rfl, rfl, rfl, rfl, rfl⟩
  | Eip2930 gasPrice accessList => exact ⟨rfl, rfl, rfl, rfl, rfl, rfl⟩
  | Eip1559 maxFee maxPriorityFee accessList => exact ⟨rfl, rfl, rfl, rfl, rfl, rfl⟩

/-- `enrich` adds what the node answers and changes nothing. -/
theorem enrich_ordered {intent : Eth.TxIntent}
    (hAccess : ¬ (body.txType = .Legacy ∧ body.accessList ≠ []))
    (h : Eth.enrich body.txRequest sender provider = .ok intent) :
    Ordered body sender provider (.ofIntent intent) := by
  simp only [Eth.enrich, bind_eq_ok, pure_eq_ok] at h
  obtain ⟨chainId, hChain, nonce, hNonce, params, hParams, gasLimit, hGas, hIntent⟩ := h
  obtain ⟨hType, hFees⟩ := enrichParams_ok hAccess hParams intent
  have hKind : intent.kind.to = body.txRequest.to_ := by
    rw [← hIntent]
    cases body.txRequest.to_ <;> rfl
  subst hIntent
  obtain ⟨hTo, hValue, hData, hChainId, hNonceOf, hGasLimit⟩ := ofIntent_fields _
  exact {
    to_ := hTo.trans hKind
    value := hValue
    data := hData
    type_ := hType
    chain := ⟨chainId, hChain, hChainId⟩
    nonce := by rw [hNonceOf]; exact hNonce
    fees := hFees
    gas := ⟨_, by rw [hGasLimit]; exact hGas, rfl, hKind, rfl, rfl⟩ }

/-- **A prepared transaction is the ordered one**: encoded, under its own hash,
and valid. -/
theorem prepareReply_ok {response : PrepareResponse}
    (h : prepareReply A body.txRequest sender provider = .ok (.prepare response)) :
    ∃ tx, Ordered body sender provider tx ∧ Eth.validateUnsigned tx = .ok () ∧
      response = ⟨sender, Eth.encodeUnsigned A tx, tx.signatureHash A⟩ := by
  simp only [prepareReply, bind_eq_ok, pure_eq_ok, mapError_eq_ok, RelayReply.prepare.injEq] at h
  obtain ⟨prepared, hPrepared, rfl⟩ := h
  simp only [Eth.prepareFromRpc, bind_eq_ok, ensure_eq_ok, mapError_eq_ok] at hPrepared
  obtain ⟨u, hAccess, intent, hEnrich, hPrepare⟩ := hPrepared
  obtain ⟨hTx, hValid, hHash⟩ := Eth.prepare_ok hPrepare
  refine ⟨prepared.tx, ?_, hValid, by rw [hHash]⟩
  rw [hTx]
  exact enrich_ordered hAccess hEnrich

end

-- ---------------------------------------------------------------------------
-- The deployment with its relay handlers
-- ---------------------------------------------------------------------------

/-- The relay handlers under way. -/
abbrev NodeWorld := World SignerCell RelayRequest RelayPending RelayAnswer Empty

/-- What `/v1/prepare` answered, and what the node had answered it. -/
structure Preparation where
  body : PrepareRequest
  provider : Eth.EnrichRpc
  response : PrepareResponse

/-- A deployment; the relay handlers of the API process that is up; what was
prepared, what was sent to `/v1/sign`, what that answered to which bytes, and what
`/v1/broadcast` submitted for which. -/
structure Front (C : Crypto) where
  base : Deployment C
  node : NodeWorld
  prepared : List Preparation
  asked : List Bytes
  signed : List (Bytes × SignResponse)
  sent : List (Bytes × Eth.SignedTx)

/-- A move of the deployment, or a step of a relay handler. -/
inductive FrontMove
  | base (m : Move)
  | relay (e : Event RelayRequest Unit RelayOutcome)

/-- No request yet. -/
def idle : NodeWorld := World.init ⟨none, fun _ => none, false⟩

/-- The bytes a move sends to `/v1/sign`. -/
def askedBy : Move → List Bytes
  | .api (.receive _ (.sign .Ethereum unsigned) _) => [unsigned]
  | _ => []

/-- The signature response a move gave, and the bytes it is to. -/
def signedBy {C : Crypto} (base : Deployment C) : Move → List (Bytes × SignResponse)
  | .api e =>
    match base.api.bind fun api => settled api (eventId e) with
    | some (.sign .Ethereum unsigned, .ok (.sign response)) => [(unsigned, response)]
    | _ => []
  | _ => []

/-- A killed process drops its handlers. -/
def nodeAfter (node : NodeWorld) : Move → NodeWorld
  | .boot _ | .kill => idle
  | _ => node

/-- What an answer of the node made `/v1/prepare` answer. -/
def preparedBy (node : NodeWorld) : Event RelayRequest Unit RelayOutcome → List Preparation
  | .resume id (.enriched provider) =>
    match settled node id with
    | some (.prepare body, .ok (.prepare response)) => [⟨body, provider, response⟩]
    | _ => []
  | _ => []

/-- The submission a new broadcast begins with. -/
def sentBy (node : NodeWorld) : Event RelayRequest Unit RelayOutcome → List (Bytes × Eth.SignedTx)
  | .receive id (.broadcast body) _ =>
    match node.tasks id with
    | some (.broadcast decoded .send) => [(body.signedTransaction, decoded)]
    | _ => []
  | _ => []

namespace Front

variable {W : Web} (b : RemoteBackend W) (A : Eth.Alloy) (render : Cosigner.ErrorBody → String)
  (D : Dkls) (text : UInt8 → UInt8 → String) {C : Crypto} (st : UInt8 → CosignerState C) (n : Nat)
  (key : Session → PubkeySec1) (timeout : Nat)

/-- An empty deployment that nobody has asked for anything. -/
def start : Front C := ⟨Deployment.start, idle, [], [], [], []⟩

/-- One move. A relay handler runs in the API process that is up and reads its cell. -/
def step (f : Front C) : FrontMove → Option (Front C)
  | .base m => (Deployment.step b A D st n f.base m).map fun base =>
      { f with base, node := nodeAfter f.node m, asked := askedBy m ++ f.asked
               signed := signedBy base m ++ f.signed }
  | .relay e => f.base.api.bind fun api =>
      ((relay A timeout).step { f.node with shared := api.shared } e).map fun node =>
        { f with node, prepared := preparedBy node e ++ f.prepared, sent := sentBy node e ++ f.sent }

/-- The deployment with its relay handlers, as a machine. -/
def machine : Machine (Front C) FrontMove := ⟨step b A D st n timeout⟩

/-- Only the deployment's own moves are bound to anything; what the node answers is
free. -/
def Carried (f : Front C) : FrontMove → Prop
  | .base m => Deployment.Carried b A render D text st n key f.base m
  | .relay _ => True

-- ---------------------------------------------------------------------------
-- The invariant
-- ---------------------------------------------------------------------------

/-- The address of a key that a quorum holds. -/
def Addressed (w : Deployment C) (sender : Address) : Prop :=
  ∃ publicKey, Deployment.Quorum b w publicKey ∧ A.addressOfPubkey publicKey = some sender

/-- A response for an approved transaction that was sent to `/v1/sign`. -/
def Bought (w : Deployment C) (asked : List Bytes) (response : SignResponse) : Prop :=
  ∃ unsigned ∈ asked, ∃ tx publicKey, Decodes A unsigned tx ∧ Deployment.Quorum b w publicKey ∧
    BodyOk A publicKey tx response ∧ Deployment.Approved b st tx

/-- What a suspended relay handler goes by. -/
def NodeTask (w : Deployment C) (req : RelayRequest) : RelayPending → Prop
  | .enrich order sender => ∃ body, req = .prepare body ∧ order = body.txRequest ∧
      Addressed b A w sender
  | .broadcast decoded _ => ∃ body, req = .broadcast body ∧
      Eth.decodeSigned A body.signedTransaction = .ok decoded ∧ Addressed b A w decoded.sender

/-- The deployment is backed, what is cached was bought, and whatever was prepared,
signed or sent is by a key that a quorum holds. -/
structure Inv (f : Front C) : Prop where
  base : Deployment.Inv b A D text st n key f.base
  asked : ∀ api, f.base.api = some api → ∀ id unsigned,
    api.requests id = some (.sign .Ethereum unsigned) → unsigned ∈ f.asked
  cached : ∀ api, f.base.api = some api → ∀ d response, api.shared.signed d = some response →
    Bought b A st f.base f.asked response
  task : ∀ id p, f.node.tasks id = some p →
    ∃ req, f.node.requests id = some req ∧ NodeTask b A f.base req p
  prepared : ∀ q ∈ f.prepared, Addressed b A f.base q.response.sender ∧
    prepareReply A q.body.txRequest q.response.sender q.provider = .ok (.prepare q.response)
  signed : ∀ unsigned response, (unsigned, response) ∈ f.signed → unsigned ∈ f.asked ∧
    ∃ tx, Decodes A unsigned tx ∧ response.txDigest = tx.signatureHash A ∧
      Bought b A st f.base f.asked response
  sent : ∀ raw decoded, (raw, decoded) ∈ f.sent → Eth.decodeSigned A raw = .ok decoded ∧
    Addressed b A f.base decoded.sender

end Front

-- ---------------------------------------------------------------------------
-- One turn of a relay handler
-- ---------------------------------------------------------------------------

section

variable {W : Web} {b : RemoteBackend W} {A : Eth.Alloy} {render : Cosigner.ErrorBody → String}
  {D : Dkls} {text : UInt8 → UInt8 → String} {C : Crypto} {st : UInt8 → CosignerState C} {n : Nat}
  {key : Session → PubkeySec1} {timeout : Nat} {w w' : Deployment C}

open Front

/-- The address that `prepare` and `broadcast` go by is the active key's. -/
theorem activeAddress_ok {s : SignerCell} {address : Address}
    (h : activeAddress A s = .ok address) :
    ∃ active, s.active = some active ∧ A.addressOfPubkey active = some address := by
  unfold activeAddress at h
  split at h
  · cases h
  rename_i active hActive
  split at h
  · cases h
  · rename_i found hFound
    obtain rfl := Except.ok.inj h
    exact ⟨active, hActive, hFound⟩

/-- What passes the gate decodes, to the active key's address as its sender. -/
theorem broadcastGuard_ok {s : SignerCell} {body : BroadcastRequest} {decoded : Eth.SignedTx}
    (h : broadcastGuard A s body = .ok decoded) :
    Eth.decodeSigned A body.signedTransaction = .ok decoded ∧
      activeAddress A s = .ok decoded.sender := by
  simp only [broadcastGuard, bind_eq_ok, ensure_eq_ok, mapError_eq_ok, pure_eq_ok] at h
  obtain ⟨u, -, found, hDecoded, active, hActive, v, hSame, rfl⟩ := h
  exact ⟨hDecoded, hSame ▸ hActive⟩

section

variable {s : SignerCell} (hActive : ∀ publicKey, s.active = some publicKey →
  Deployment.Quorum b w publicKey)
include hActive

/-- The active key's address is that of a key which a quorum holds. -/
theorem addressed_of_active {address : Address} (h : activeAddress A s = .ok address) :
    Addressed b A w address := by
  obtain ⟨active, hFound, hAddress⟩ := activeAddress_ok h
  exact ⟨active, hActive active hFound, hAddress⟩

/-- What a relay handler suspends with in its first turn. -/
theorem relayEnter_task {req : RelayRequest} {p : RelayPending}
    (h : (relayEnter A s req ()).next = .inr p) : NodeTask b A w req p := by
  unfold relayEnter at h
  split at h
  · split at h
    · cases h
    · rename_i body _ sender hSender
      obtain rfl := Sum.inr.inj h
      exact ⟨body, rfl, rfl, addressed_of_active hActive hSender⟩
  · split at h
    · cases h
    · rename_i body _ decoded hGuard
      obtain rfl := Sum.inr.inj h
      obtain ⟨hDecoded, hSender⟩ := broadcastGuard_ok hGuard
      exact ⟨body, rfl, hDecoded, addressed_of_active hActive hSender⟩

end

/-- A handler goes on with what it has; only a broadcast has more than one await. -/
theorem relayResume_task {s : SignerCell} {p q : RelayPending} {out : RelayOutcome} {t : RelayTurn}
    {req : RelayRequest} (h : relayResume A timeout s p out = some t) (hNext : t.next = .inr q)
    (hTask : NodeTask b A w req p) : NodeTask b A w req q := by
  unfold relayResume at h
  split at h
  · obtain rfl := Option.some.inj h
    cases hNext
  · obtain ⟨next, -, rfl⟩ := Option.map_eq_some_iff.mp h
    rcases next with result | at_
    · cases hNext
    · obtain rfl := Sum.inr.inj hNext
      exact hTask
  · cases h

/-- `prepare` answers in the turn that brings it what the node said. -/
theorem relayResume_enriched {s : SignerCell} {p : RelayPending} {provider : Eth.EnrichRpc}
    {t : RelayTurn} (h : relayResume A timeout s p (.enriched provider) = some t) :
    ∃ order sender, p = .enrich order sender ∧
      t.next = .inl (prepareReply A order sender provider) := by
  rcases p with ⟨order, sender⟩ | ⟨decoded, at_⟩
  · obtain rfl := Option.some.inj h
    exact ⟨order, sender, rfl, rfl⟩
  · cases h

/-- A preparation is for the sender it was made for. -/
theorem prepareReply_sender {order : Eth.TxRequest} {sender : Address} {provider : Eth.EnrichRpc}
    {response : PrepareResponse}
    (h : prepareReply A order sender provider = .ok (.prepare response)) :
    response.sender = sender := by
  simp only [prepareReply, bind_eq_ok, pure_eq_ok, RelayReply.prepare.injEq] at h
  obtain ⟨prepared, -, rfl⟩ := h
  rfl

-- ---------------------------------------------------------------------------
-- One move
-- ---------------------------------------------------------------------------

/-- Files only gain. -/
def Gains (w w' : Deployment C) : Prop :=
  ∀ p, Keeps (w.fleet.world p).shared.dir (w'.fleet.world p).shared.dir

/-- Who held a key's shards still does. -/
theorem Gains.quorum (h : Gains w w') {publicKey : PubkeySec1}
    (hQuorum : Deployment.Quorum b w publicKey) : Deployment.Quorum b w' publicKey := by
  obtain ⟨holders, hSublist, hMany, hHolds⟩ := hQuorum
  exact ⟨holders, hSublist, hMany, fun c hc => (hHolds c hc).keeps (h c.1)⟩

/-- The address of a quorum's key stays one. -/
theorem Gains.addressed (h : Gains w w') {sender : Address} (hSender : Addressed b A w sender) :
    Addressed b A w' sender := by
  obtain ⟨publicKey, hQuorum, hAddress⟩ := hSender
  exact ⟨publicKey, h.quorum hQuorum, hAddress⟩

/-- What was bought stays bought. -/
theorem Gains.bought (h : Gains w w') {asked asked' : List Bytes} (hMore : asked ⊆ asked')
    {response : SignResponse} (hBought : Bought b A st w asked response) :
    Bought b A st w' asked' response := by
  obtain ⟨unsigned, hMem, tx, publicKey, hDecodes, hQuorum, hRest⟩ := hBought
  exact ⟨unsigned, hMore hMem, tx, publicKey, hDecodes, h.quorum hQuorum, hRest⟩

/-- A suspended handler still goes by what it went by. -/
theorem Gains.nodeTask (h : Gains w w') {req : RelayRequest} {p : RelayPending}
    (hTask : NodeTask b A w req p) : NodeTask b A w' req p := by
  rcases p with ⟨order, sender⟩ | ⟨decoded, at_⟩
  · obtain ⟨body, hReq, hOrder, hSender⟩ := hTask
    exact ⟨body, hReq, hOrder, h.addressed hSender⟩
  · obtain ⟨body, hReq, hDecoded, hSender⟩ := hTask
    exact ⟨body, hReq, hDecoded, h.addressed hSender⟩

/-- A turn caches nothing but what `sign_via` inserts. -/
theorem resume_cached {s : SignerCell} {p : Pending} {out : Outcome} {t : ApiTurn} {d : B256}
    {response : SignResponse} (h : resume A s p out = some t)
    (hCached : t.shared.signed d = some response) :
    s.signed d = some response ∨ ∃ job, p = .signInsert job response := by
  -- every turn but the last but one leaves the cache as it is
  unfold resume at h
  split at h <;> simp only [Option.some.injEq, reduceCtorEq] at h <;> subst h
  · split at hCached
    · exact Or.inl hCached
    · exact Or.inl hCached
  · exact Or.inl hCached
  · exact Or.inl hCached
  · exact Or.inl hCached
  · split at hCached
    · exact Or.inl hCached
    · exact Or.inl hCached
  · exact Or.inl hCached
  · split at hCached
    · exact Or.inl hCached
    · exact Or.inl hCached
  · unfold tryLock at hCached
    split at hCached
    · exact Or.inl hCached
    · exact Or.inl hCached
  · split at hCached
    · exact Or.inl hCached
    · exact Or.inl hCached
  · exact Or.inl hCached
  · split at hCached
    · exact Or.inl hCached
    · exact Or.inl hCached
  · -- the one turn that writes the cache
    rename_i job found
    change Function.update s.signed job.txDigest (some found) d = some response at hCached
    by_cases hDigest : d = job.txDigest
    · rw [hDigest, Function.update_self] at hCached
      obtain rfl := Option.some.inj hCached
      exact Or.inr ⟨job, rfl⟩
    · rw [Function.update_of_ne hDigest] at hCached
      exact Or.inl hCached
  · exact Or.inl hCached

/-- The first turn caches nothing. -/
theorem enter_cached (s : SignerCell) (req : Request) : (enter A s req ()).shared.signed = s.signed := by
  rcases (enter_spec (A := A) s req).change with ⟨-, hSigned, -⟩ | ⟨-, hSigned, -, -⟩ |
    ⟨job, response, -, -, -, -, -, hHolds, -⟩
  · exact hSigned
  · exact hSigned
  · obtain ⟨q, hq, -⟩ := hHolds
    cases hq

/-- **What the cache holds was bought**, after any step of the API process. -/
theorem cached_step {api api' : ApiWorld} {asked asked' : List Bytes}
    {e : Event Request Unit Outcome} (hBacked : Deployment.Backed b A st w api)
    (hGains : Gains w w') (hMore : asked ⊆ asked')
    (hAsked : ∀ id unsigned, api.requests id = some (.sign .Ethereum unsigned) → unsigned ∈ asked)
    (hCached : ∀ d response, api.shared.signed d = some response → Bought b A st w asked response)
    (hStep : (service A).step api e = some api') :
    ∀ d response, api'.shared.signed d = some response → Bought b A st w' asked' response := by
  intro d response h
  have hOld : api.shared.signed d = some response → Bought b A st w' asked' response :=
    fun hSame => hGains.bought hMore (hCached d response hSame)
  obtain ⟨id, req, ⟨⟩, rfl, -, rfl⟩ | ⟨id, out, p, t, rfl, hTask, hTurn, rfl⟩ |
    ⟨id, p, rfl, hTask, rfl⟩ := Service.step_cases hStep
  · -- a first turn caches nothing
    refine hOld ?_
    rw [← enter_cached (A := A) api.shared req]
    exact h
  · -- a later turn may insert what it has just finalized, on approved signatures
    rcases resume_cached hTurn h with hSame | ⟨job, rfl⟩
    · exact hOld hSame
    obtain ⟨active, hReach⟩ := hBacked.started
    obtain ⟨req, hReq, hJob, -, hBody⟩ := (reach_inv hReach).task id _ hTask
    refine hGains.bought hMore ⟨job.unsigned, ?_, job.tx, job.active, hJob.decodes,
      hBacked.active job.active hJob.active, hBody, hBacked.task id _ hTask⟩
    exact hAsked id job.unsigned (by rw [hReq, hJob.request])
  · -- a handler that is dropped caches nothing
    refine hOld ?_
    have hSame : ((service A).drop api.shared p).signed = api.shared.signed := by
      show (if p.holds then _ else _ : SignerCell).signed = _
      split <;> rfl
    rw [← hSame]
    exact h

/-- What was received was sent. -/
theorem asked_step {api api' : ApiWorld} {asked : List Bytes} {e : Event Request Unit Outcome}
    (hAsked : ∀ id unsigned, api.requests id = some (.sign .Ethereum unsigned) → unsigned ∈ asked)
    (hStep : (service A).step api e = some api') {id : Nat} {unsigned : Bytes}
    (h : api'.requests id = some (.sign .Ethereum unsigned)) :
    unsigned ∈ askedBy (.api e) ++ asked := by
  obtain ⟨i, req, ⟨⟩, rfl, -, rfl⟩ | ⟨i, out, p, t, rfl, -, -, rfl⟩ | ⟨i, p, rfl, -, rfl⟩ :=
    Service.step_cases hStep
  · change Function.update api.requests i (some req) id = _ at h
    by_cases hId : id = i
    · rw [hId, Function.update_self] at h
      obtain rfl := Option.some.inj h
      exact List.mem_append_left _ (List.mem_singleton.mpr rfl)
    · rw [Function.update_of_ne hId] at h
      exact List.mem_append_right _ (hAsked id unsigned h)
  · exact List.mem_append_right _ (hAsked id unsigned h)
  · exact List.mem_append_right _ (hAsked id unsigned h)

section

variable {f : Front C} {base : Deployment C} {m : Move} (hW : W.Bases)
  (hOpens : ∀ p, Opens (st p).sealer) (hCodec : D.party.RoundTrips)
  (h : Front.Inv b A D text st n key f)
  (hCarried : Deployment.Carried b A render D text st n key f.base m)
  (hStep : Deployment.step b A D st n f.base m = some base)
include hW hOpens hCodec h hCarried hStep

/-- A move of the deployment loses no file. -/
theorem move_gains : Gains f.base base :=
  files_keep hW hOpens hCodec h.base ((Machine.Reach.refl f.base).step hCarried hStep)

/-- An API process, whatever the move, has bought what it caches. -/
theorem api_bought {api' : ApiWorld} (hApi' : base.api = some api') :
    (∀ id unsigned, api'.requests id = some (.sign .Ethereum unsigned) →
      unsigned ∈ askedBy m ++ f.asked) ∧
    ∀ d response, api'.shared.signed d = some response →
      Bought b A st base (askedBy m ++ f.asked) response := by
  have hGains := move_gains hW hOpens hCodec h hCarried hStep
  have hMore : f.asked ⊆ askedBy m ++ f.asked := List.subset_append_right _ _
  match m with
  | .kill =>
    obtain rfl := Option.some.inj hStep
    cases hApi'
  | .fleet m =>
    obtain ⟨fleet, -, rfl⟩ := Option.map_eq_some_iff.mp hStep
    exact ⟨h.asked api' hApi', fun d response hCached =>
      hGains.bought hMore (h.cached api' hApi' d response hCached)⟩
  -- a process that has just come up has no requests and an empty cache
  | .boot rounds =>
    obtain rfl := Option.some.inj hStep
    obtain ⟨active, -, rfl⟩ := Option.map_eq_some_iff.mp hApi'
    refine ⟨fun id unsigned hReq => ?_, fun d response hCached => ?_⟩
    · cases hReq
    · cases hCached
  | .api e =>
    obtain ⟨api, hApi, hServes⟩ := Option.bind_eq_some_iff.mp hStep
    obtain ⟨api'', hServed, rfl⟩ := Option.map_eq_some_iff.mp hServes
    obtain rfl := Option.some.inj hApi'
    exact ⟨fun id unsigned hReq => asked_step (h.asked api hApi) hServed hReq,
      cached_step (h.base.api api hApi) hGains hMore (h.asked api hApi) (h.cached api hApi) hServed⟩

/-- A signature response is to bytes that were sent, and was bought. -/
theorem signed_new {unsigned : Bytes} {response : SignResponse}
    (hNew : (unsigned, response) ∈ signedBy base m) : unsigned ∈ askedBy m ++ f.asked ∧
      ∃ tx, Decodes A unsigned tx ∧ response.txDigest = tx.signatureHash A ∧
        Bought b A st base (askedBy m ++ f.asked) response := by
  have hBase : Deployment.Inv b A D text st n key base :=
    inv_step hW hOpens hCodec h.base hCarried hStep
  unfold signedBy at hNew
  split at hNew
  · split at hNew
    · rename_i e _ unsigned' response' hSettled
      obtain ⟨rfl, rfl⟩ := Prod.mk.inj (List.mem_singleton.mp hNew)
      obtain ⟨api', hApi', hSettled⟩ := Option.bind_eq_some_iff.mp hSettled
      obtain ⟨req, hReq, hAnswer⟩ := Option.bind_eq_some_iff.mp hSettled
      obtain ⟨a, hAnswer, hPair⟩ := Option.map_eq_some_iff.mp hAnswer
      obtain ⟨rfl, rfl⟩ := Prod.mk.inj hPair
      obtain ⟨hAsked, hBought⟩ := api_bought hW hOpens hCodec h hCarried hStep hApi'
      obtain ⟨active, hReach⟩ := (hBase.api api' hApi').started
      obtain ⟨unsigned'', tx, hReq', hDecodes, hCached, hDigest⟩ := (reach_inv hReach).served hAnswer
      rw [hReq, Option.some.injEq, Request.sign.injEq] at hReq'
      obtain ⟨-, rfl⟩ := hReq'
      exact ⟨hAsked _ _ hReq, tx, hDecodes, hDigest, hBought _ _ hCached⟩
    · cases hNew
  · cases hNew

/-- **A move of the deployment.** -/
theorem Front.Inv.move : Front.Inv b A D text st n key
    { f with base, node := nodeAfter f.node m, asked := askedBy m ++ f.asked
             signed := signedBy base m ++ f.signed } := by
  have hGains := move_gains hW hOpens hCodec h hCarried hStep
  have hMore : f.asked ⊆ askedBy m ++ f.asked := List.subset_append_right _ _
  refine ⟨inv_step hW hOpens hCodec h.base hCarried hStep, ?_, ?_, ?_, ?_, ?_, ?_⟩
  · exact fun api' hApi' => (api_bought hW hOpens hCodec h hCarried hStep hApi').1
  · exact fun api' hApi' => (api_bought hW hOpens hCodec h hCarried hStep hApi').2
  · -- the relay handlers stay, or go with their process
    intro id p hTask
    have hSame : nodeAfter f.node m = f.node ∨ nodeAfter f.node m = idle := by
      unfold nodeAfter
      split
      · exact Or.inr rfl
      · exact Or.inr rfl
      · exact Or.inl rfl
    rcases hSame with hSame | hIdle
    · simp only [hSame] at hTask ⊢
      obtain ⟨req, hReq, hNode⟩ := h.task id p hTask
      exact ⟨req, hReq, hGains.nodeTask hNode⟩
    · simp only [hIdle] at hTask
      cases hTask
  · intro q hq
    obtain ⟨hSender, hReply⟩ := h.prepared q hq
    exact ⟨hGains.addressed hSender, hReply⟩
  · -- a signature response is new or old
    intro unsigned response hMem
    rcases List.mem_append.mp hMem with hNew | hOld
    · exact signed_new hW hOpens hCodec h hCarried hStep hNew
    · obtain ⟨hAsked, tx, hDecodes, hDigest, hBought⟩ := h.signed unsigned response hOld
      exact ⟨hMore hAsked, tx, hDecodes, hDigest, hGains.bought hMore hBought⟩
  · intro raw decoded hMem
    obtain ⟨hDecoded, hSender⟩ := h.sent raw decoded hMem
    exact ⟨hDecoded, hGains.addressed hSender⟩

end

/-- **A turn of a relay handler.** -/
theorem Front.Inv.relay {f : Front C} {api : ApiWorld} {node : NodeWorld}
    {e : Event RelayRequest Unit RelayOutcome} (h : Front.Inv b A D text st n key f)
    (hApi : f.base.api = some api)
    (hStep : (relay A timeout).step { f.node with shared := api.shared } e = some node) :
    Front.Inv b A D text st n key
      { f with node, prepared := preparedBy node e ++ f.prepared, sent := sentBy node e ++ f.sent } := by
  have hActive := (h.base.api api hApi).active
  -- where the handlers stand: the one that moved by its own turn, the others as before
  have hTasks : ∀ id p, node.tasks id = some p →
      ∃ req, node.requests id = some req ∧ NodeTask b A f.base req p := by
    intro id p hTask
    obtain ⟨i, req, ⟨⟩, rfl, hFresh, rfl⟩ | ⟨i, out, q, t, rfl, hOld, hTurn, rfl⟩ |
      ⟨i, q, rfl, -, rfl⟩ := Service.step_cases hStep
    · rcases World.settle_tasks_cases hTask with ⟨rfl, hNext⟩ | ⟨-, hOld⟩
      · exact ⟨req, World.setRequest_self _ _ _, relayEnter_task hActive hNext⟩
      · obtain ⟨req', hReq, hNode⟩ := h.task id p hOld
        exact ⟨req', World.setRequest_requests hFresh hReq, hNode⟩
    · rcases World.settle_tasks_cases hTask with ⟨rfl, hNext⟩ | ⟨-, hOther⟩
      · obtain ⟨req, hReq, hNode⟩ := h.task id q hOld
        exact ⟨req, hReq, relayResume_task hTurn hNext hNode⟩
      · exact h.task id p hOther
    · exact h.task id p (World.dropTask_tasks_cases hTask).2
  refine ⟨h.base, h.asked, h.cached, hTasks, ?_, h.signed, ?_⟩
  · -- what was just prepared is what `enrich` made of the order
    intro q hq
    rcases List.mem_append.mp hq with hNew | hOld
    swap
    · exact h.prepared q hOld
    unfold preparedBy at hNew
    split at hNew
    swap
    · cases hNew
    rename_i id provider
    split at hNew
    swap
    · cases hNew
    rename_i body response hSettled
    obtain rfl := List.mem_singleton.mp hNew
    obtain ⟨p, hTask, hTurn⟩ := Option.bind_eq_some_iff.mp hStep
    obtain ⟨t, hResume, rfl⟩ := Option.map_eq_some_iff.mp hTurn
    obtain ⟨order, sender, rfl, hNext⟩ := relayResume_enriched hResume
    obtain ⟨req, hReq, body', rfl, rfl, hSender⟩ := h.task id _ hTask
    -- the answer is the one this turn gave
    have hAnswer : settled (({ f.node with shared := api.shared } : NodeWorld).settle id t) id =
        some (.prepare body', prepareReply A body'.txRequest sender provider) := by
      rw [settled, World.settle_requests]
      show (f.node.requests id).bind _ = _
      rw [hReq]
      simp [World.settle, hNext]
    rw [hAnswer, Option.some.injEq, Prod.mk.injEq, RelayRequest.prepare.injEq] at hSettled
    obtain ⟨rfl, hReply⟩ := hSettled
    rw [prepareReply_sender hReply]
    exact ⟨hSender, hReply⟩
  · -- what was just submitted has passed the gate
    intro raw decoded hMem
    rcases List.mem_append.mp hMem with hNew | hOld
    swap
    · exact h.sent raw decoded hOld
    unfold sentBy at hNew
    split at hNew
    swap
    · cases hNew
    rename_i id body inp
    split at hNew
    swap
    · cases hNew
    rename_i decoded' hTask
    obtain ⟨rfl, rfl⟩ := Prod.mk.inj (List.mem_singleton.mp hNew)
    obtain ⟨req, hReq, body', rfl, hDecoded, hSender⟩ := hTasks id _ hTask
    obtain ⟨i, req, ⟨⟩, hEvent, -, rfl⟩ | ⟨i, out, q, t, hEvent, -⟩ | ⟨i, q, hEvent, -⟩ :=
      Service.step_cases hStep
    · obtain ⟨rfl, rfl, -⟩ := Event.receive.inj hEvent
      rw [World.settle_requests, World.setRequest_self, Option.some.injEq,
        RelayRequest.broadcast.injEq] at hReq
      rw [hReq]
      exact ⟨hDecoded, hSender⟩
    · cases hEvent
    · cases hEvent

-- ---------------------------------------------------------------------------
-- Every run
-- ---------------------------------------------------------------------------

theorem front_start : Front.Inv b A D text st n key (Front.start : Front C) where
  base := inv_start
  asked _ hApi := by cases hApi
  cached _ hApi := by cases hApi
  task _ _ hTask := by cases hTask
  prepared _ hq := by cases hq
  signed _ _ hMem := by cases hMem
  sent _ _ hMem := by cases hMem

/-- The invariant holds in every state of every run. -/
theorem front_of_reach (hW : W.Bases) (hOpens : ∀ p, Opens (st p).sealer)
    (hCodec : D.party.RoundTrips) {f : Front C}
    (hReach : (Front.machine b A D st n timeout).Reach (Carried b A render D text st n key)
      Front.start f) : Front.Inv b A D text st n key f := by
  refine hReach.invariant front_start ?_
  intro f m f' h hCarried hStep
  match m with
  | .base m =>
    obtain ⟨base, hBase, rfl⟩ := Option.map_eq_some_iff.mp hStep
    exact h.move hW hOpens hCodec hCarried hBase
  | .relay e =>
    obtain ⟨api, hApi, hServes⟩ := Option.bind_eq_some_iff.mp hStep
    obtain ⟨node, hNode, rfl⟩ := Option.map_eq_some_iff.mp hServes
    exact h.relay hApi hNode

/-- The broadcast gate takes a signature response, whatever its `s`. -/
def Gate (A : Eth.Alloy) (s : SignerCell) (tx : Eth.EthTx) (sig : EcdsaParts) (raw : Bytes)
    (sender : Address) : Prop :=
  broadcastGuard A s ⟨.Ethereum, raw⟩ =
    .ok ⟨raw, tx.signedHash A ⟨sig.r, sig.s, sig.yParity⟩, sender⟩

/-- The gate decodes a response to its signer, who is the active key's. -/
theorem gate_of_body (hA : A.SignedForms) {publicKey : PubkeySec1} {tx : Eth.EthTx}
    {response : SignResponse} {sender : Address} (hBody : BodyOk A publicKey tx response)
    (hSender : A.addressOfPubkey publicKey = some sender) {s : SignerCell}
    (hActive : s.active = some publicKey) :
    ∃ sig, response.signatures = [sig] ∧ Gate A s tx sig response.signedTransaction sender := by
  obtain ⟨-, sig, address, hSignatures, hAddress, hRecover, hRaw, -⟩ := hBody
  obtain rfl := Option.some.inj (hAddress.symm.trans hSender)
  refine ⟨sig, hSignatures, ?_⟩
  have hGateActive : activeAddress A s = .ok address := by
    simp only [activeAddress, hActive, hAddress]
  unfold Gate broadcastGuard
  rw [hRaw, Eth.decodeSigned_encodedSigned hA, hRecover]
  simp [hActive, hGateActive, ensure, bind, Except.bind, Except.mapError, pure, Except.pure]

/-- **What was ordered is what is paid.** In every state of every run of the
deployment, whatever the node answered and whoever sent what where: what
`/v1/sign` answered to a prepared transaction is the signed form of the very
transaction that was ordered, under the digest `/v1/prepare` showed, by the one
key of the fleet, the policies of `threshold` different cosigners permit it, and
`/v1/broadcast` takes it. All that `/v1/broadcast` has submitted is signed by that
key. Digests tell apart what was sent to `/v1/sign`. -/
theorem ordered_is_paid (hW : W.Bases) (hOpens : ∀ p, Opens (st p).sealer)
    (hCodec : D.party.RoundTrips) (hLabels : ∀ c ∈ b.cosigners, c.1 ∈ ids n)
    (hUnsigned : A.Canonical) (hSigned : A.SignedForms) {f : Front C}
    (hReach : (Front.machine b A D st n timeout).Reach (Carried b A render D text st n key)
      Front.start f)
    (hHash : ∀ bytes ∈ f.asked, ∀ bytes' ∈ f.asked, A.keccak256 bytes = A.keccak256 bytes' →
      bytes = bytes') :
    ∃ publicKey,
      (∀ p ∈ ids n, ∀ metadata, (f.base.fleet.world p).shared.dir.metadata = some metadata →
        metadata = activeMetadata publicKey) ∧
      (∀ q ∈ f.prepared, ∀ response, (q.response.unsignedTransaction, response) ∈ f.signed →
        ∃ tx, Ordered q.body q.response.sender q.provider tx ∧
          A.addressOfPubkey publicKey = some q.response.sender ∧
          response.txDigest = q.response.txDigest ∧ BodyOk A publicKey tx response ∧
          (∃ signers : List UInt8, signers.Nodup ∧ signers.length = b.threshold ∧
            (∀ p ∈ signers, p ∈ ids n) ∧ ∀ p ∈ signers, (st p).policy.Permits tx) ∧
          ∀ s : SignerCell, s.active = some publicKey →
            ∃ sig, response.signatures = [sig] ∧
              Gate A s tx sig response.signedTransaction q.response.sender) ∧
      ∀ raw decoded, (raw, decoded) ∈ f.sent →
        Eth.decodeSigned A raw = .ok decoded ∧ A.addressOfPubkey publicKey = some decoded.sender := by
  have h : Front.Inv b A D text st n key f := front_of_reach hW hOpens hCodec hReach
  obtain ⟨publicKey, hKeys⟩ := one_key hOpens hCodec h.base.reach
  refine ⟨publicKey, hKeys, fun q hq response hMem => ?_, fun raw decoded hMem => ?_⟩
  swap
  · obtain ⟨hDecoded, found, hQuorum, hAddress⟩ := h.sent raw decoded hMem
    obtain rfl := quorum_key hLabels hKeys hQuorum
    exact ⟨hDecoded, hAddress⟩
  obtain ⟨⟨found, hQuorum, hSender⟩, hReply⟩ := h.prepared q hq
  obtain rfl := quorum_key hLabels hKeys hQuorum
  obtain ⟨tx, hOrdered, -, hPrepared⟩ := prepareReply_ok hReply
  -- what was prepared decodes to the order, and so does what was signed
  obtain ⟨hAsked, tx', hDecodes, hDigest, hBought⟩ := h.signed _ response hMem
  have hTx : tx' = tx := by
    obtain ⟨⟨prepared, hDecode, rfl⟩, -⟩ := hDecodes
    rw [hPrepared, Eth.decodeUnsigned_encode hUnsigned] at hDecode
    rw [← Except.ok.inj hDecode]
  subst hTx
  obtain ⟨unsigned, hAsked', tx'', found, hDecodes', hQuorum', hBody, hApproved⟩ := hBought
  obtain rfl := quorum_key hLabels hKeys hQuorum'
  have hSame : tx'' = tx' := Decodes.unique hUnsigned (hHash _ hAsked' _ hAsked) hDecodes' hDecodes
    (hBody.1.symm.trans hDigest)
  subst hSame
  obtain ⟨signers, hSublist, hLength, hPermits⟩ := hApproved
  refine ⟨tx'', hOrdered, hSender, ?_, hBody, ⟨signers.map Prod.fst,
    b.nodup.sublist (hSublist.map _), by rw [List.length_map, hLength], ?_, ?_⟩,
    fun s hActive => gate_of_body hSigned hBody hSender hActive⟩
  · rw [hDigest, hPrepared]
  · intro p hp
    obtain ⟨c, hc, rfl⟩ := List.mem_map.mp hp
    exact hLabels c (hSublist.subset hc)
  · intro p hp
    obtain ⟨c, hc, rfl⟩ := List.mem_map.mp hp
    exact hPermits c hc

end

-- ---------------------------------------------------------------------------
-- One transfer, from the order to the node
-- ---------------------------------------------------------------------------

namespace Sample

open Cosigner.Sample (party)

/-- The fleet of three with an API process and its relay handlers. -/
def shop : Machine (Front Symbolic.crypto) FrontMove :=
  Front.machine Ipc.Sample.backend Eth.Sample.alloy Cosigner.Sample.dkls party 3 30

/-- `Carried` at the example's deployment. -/
def Sells : Front Symbolic.crypto → FrontMove → Prop :=
  Front.Carried Ipc.Sample.backend Eth.Sample.alloy (fun _ => "") Cosigner.Sample.dkls
    Carbon.Sample.text party 3 fun _ => Eth.Sample.pubkey

/-- `Sells`, as a check. -/
def sells (f : Front Symbolic.crypto) : FrontMove → Bool
  | .base m => carried f.base m
  | .relay _ => true

theorem sells_sound (f : Front Symbolic.crypto) (m : FrontMove) (h : sells f m = true) :
    Sells f m := by
  match m with
  | .base m => exact carried_sound f.base m h
  | .relay e => trivial

theorem opening_some : (shop.runIf sells Front.start (probing.map .base)).isSome = true := by
  decide +kernel

/-- The state in which nobody has a key yet. -/
def opening : Front Symbolic.crypto :=
  (shop.runIf sells Front.start (probing.map .base)).get opening_some

theorem opened_some : (shop.step opening (.base (.boot unready))).isSome = true := rfl

/-- An API process is up, without a key. -/
def opened : Front Symbolic.crypto := (shop.step opening (.base (.boot unready))).get opened_some

theorem opened_reach : shop.Reach Sells Front.start opened := by
  have hOpening : shop.Reach Sells Front.start opening :=
    Machine.reach_of_runIf sells_sound (Option.some_get opening_some).symm
  refine hOpening.step (a := .base (.boot unready)) ?_ (Option.some_get opened_some).symm
  have hAnswered : ∀ c ∈ Ipc.Sample.backend.cosigners,
      (c.1, Cosigner.Request.signer, Except.error CosignerError.NoSigner) ∈
        opening.base.answered := by
    decide +kernel
  intro i c hc resp hResp
  obtain rfl := Except.ok.inj hResp
  exact ⟨_, hAnswered c hc, rfl⟩

/-- A gwei, to be transferred on Sepolia. -/
def order : PrepareRequest where
  network := .Ethereum
  to_ := some (.repeatByte 20 0x11)
  value := 1000000000
  data := []
  txType := .Eip1559
  accessList := []

/-- The node, as the transfer found it. -/
def sepolia : Eth.EnrichRpc where
  getChainId := .ok Eth.Sample.tx.chainId
  getTransactionCount _ := .ok Eth.Sample.tx.nonce
  getGasPrice := .ok Eth.Sample.tx.maxFeePerGas
  estimateEip1559Fees := .ok ⟨Eth.Sample.tx.maxFeePerGas, Eth.Sample.tx.maxPriorityFeePerGas⟩
  estimateGas _ := .ok Eth.Sample.tx.gasLimit

/-- Key generation, the order, its preparation, the signature, and the submission. -/
def shopping : List FrontMove :=
  creating.map .base ++
    [.relay (.receive 0 (.prepare order) ()), .relay (.resume 0 (.enriched sepolia))] ++
    paying.map .base ++
    [.relay (.receive 1 (.broadcast ⟨.Ethereum, response.signedTransaction⟩) ())]

theorem shopping_some : (shop.runIf sells opened shopping).isSome = true := by decide +kernel

/-- The state after the transfer. -/
def shipped : Front Symbolic.crypto := (shop.runIf sells opened shopping).get shopping_some

theorem shipped_reach : shop.Reach Sells Front.start shipped :=
  opened_reach.trans (Machine.reach_of_runIf sells_sound (Option.some_get shopping_some).symm)

theorem shipped_asked : shipped.asked = [unsigned] := by decide +kernel

end Sample

/-- The gwei that was ordered is the gwei that is signed, and its bytes were
submitted. -/
theorem ordered_is_paid_transfer :
    (∃ tx : Eth.EthTx, tx.to = some (.repeatByte 20 0x11) ∧ tx.value = 1000000000 ∧
      Sample.response.signedTransaction = tx.encodedSigned Eth.Sample.alloy Eth.Sample.lowS) ∧
    Sample.shipped.sent.map Prod.fst = [Sample.response.signedTransaction] := by
  have hHash : ∀ bytes ∈ Sample.shipped.asked, ∀ bytes' ∈ Sample.shipped.asked,
      Eth.Sample.alloy.keccak256 bytes = Eth.Sample.alloy.keccak256 bytes' → bytes = bytes' := by
    intro bytes hBytes bytes' hBytes' _
    rw [Sample.shipped_asked, List.mem_singleton] at hBytes hBytes'
    rw [hBytes, hBytes']
  obtain ⟨publicKey, -, hPaid, -⟩ := ordered_is_paid Ipc.Sample.web_bases
    (fun _ => passthrough_opens) Cosigner.Sample.dkls_party Sample.labels
    Eth.rlpAlloy_canonical Eth.rlpAlloy_signedForms Sample.shipped_reach hHash
  have hPrepared : Sample.shipped.prepared.map
      (fun q => (q.body.to_, q.body.value, q.response.unsignedTransaction)) =
      [(some (.repeatByte 20 0x11), 1000000000, Sample.unsigned)] := by decide +kernel
  have hMem : (some (.repeatByte 20 0x11), 1000000000, Sample.unsigned) ∈
      Sample.shipped.prepared.map
        fun q => (q.body.to_, q.body.value, q.response.unsignedTransaction) := by
    rw [hPrepared]
    exact List.mem_singleton.mpr rfl
  obtain ⟨q, hq, hEq⟩ := List.mem_map.mp hMem
  obtain ⟨hTo, hRest⟩ := Prod.mk.inj hEq
  obtain ⟨hValue, hUnsigned⟩ := Prod.mk.inj hRest
  have hSigned : (q.response.unsignedTransaction, Sample.response) ∈ Sample.shipped.signed := by
    rw [hUnsigned]
    decide +kernel
  obtain ⟨tx, hOrdered, -, -, ⟨-, sig, address, hSignatures, -, -, hRaw, -⟩, -⟩ :=
    hPaid q hq Sample.response hSigned
  obtain rfl : Sample.parts = sig := List.singleton_inj.mp hSignatures
  exact ⟨⟨tx, hOrdered.to_.trans hTo, hOrdered.value.trans hValue, hRaw⟩, by decide +kernel⟩

end Sovra.Api
