import Sovra.Cosigner.Service

/-!
# Sovra — envelopes across sign requests

Two cosigners serve sign requests an untrusted orchestrator wrote, over an
untrusted hub. What ties an envelope to a request is the request's `instance`,
through `sub_instance`; neither the transaction nor the history of instances
takes part in admission.

* `serving_inst`    — the instance of a run, from the request alone.
* `filed_iff_instance` — an envelope crosses to another request exactly when the
  two requests carry one instance.
* `replay_filed`    — one instance, two transactions: the envelope is filed.
-/

namespace Sovra.Cosigner

open Lib Mpc State Ipc

section

variable {A : Eth.Alloy} {C : Crypto} {st st' : CosignerState C}
  {publicKeyOf : KeyShare → Except MpcError PubkeySec1}

/-- The handler of the sign request `req` is inside its ceremony on `ctx`. -/
def Serving (w : World OpState Request (Pending C) Answer Effect) (req : StartSignRequest)
    (ctx : PartyContext C) : Prop :=
  ∃ id job digest, w.requests id = some (.sign req) ∧ w.tasks id = some (.signRun job ctx digest)

/-- A run's instance comes from its request and nothing else. -/
theorem serving_inst {dir : ShardDir} {w : World OpState Request (Pending C) Answer Effect}
    {req : StartSignRequest} {ctx : PartyContext C}
    (hReach : (service A st publicKeyOf).Reach (World.init ⟨dir, false⟩) w)
    (h : Serving w req ctx) : ctx.inst = subInstance A.keccak256 req.inst 0 := by
  obtain ⟨id, job, digest, hReq, hTask⟩ := h
  obtain ⟨req', hReq', hSignTask⟩ := (hReach.origin enter_meets resume_meets).task id _ hTask
  rw [hReq, Option.some.injEq] at hReq'
  obtain ⟨tx, -, share, ctx', hInst, hPend⟩ := hSignTask req hReq'.symm
  simp only [reduceCtorEq, Pending.signRun.injEq, false_or] at hPend
  obtain ⟨-, rfl, -⟩ := hPend
  exact hInst

/-- Party `p` serves the request `x`, party `q` the request `y`, each after any
history of requests, repeated instances included. An envelope that `p` signed in
its run is filed in `q`'s run only if `x` and `y` carry the same instance, where
keccak256 has no collision on the two; and if they do, admission files it as soon
as the hub presents it in its round. -/
theorem filed_iff_instance {dir dir' : ShardDir}
    {w w' : World OpState Request (Pending C) Answer Effect}
    (hReach : (service A st publicKeyOf).Reach (World.init ⟨dir, false⟩) w)
    (hReach' : (service A st' publicKeyOf).Reach (World.init ⟨dir', false⟩) w')
    {x y : StartSignRequest} {ctx ctx' : PartyContext C} (hServing : Serving w x ctx)
    (hServing' : Serving w' y ctx')
    (hKeccak : A.keccak256 (x.inst.bytes ++ u32Be 0) = A.keccak256 (y.inst.bytes ++ u32Be 0) →
      x.inst.bytes ++ u32Be 0 = y.inst.bytes ++ u32Be 0)
    {c : SendCall C} (hCall : c.ctx = ctx) {s senv : SignedEnvelope C} (hSigned : s ∈ c.emitted)
    (hSame : senv.env = s.env) {ex : Exchange C} (hRun : ex.ctx = ctx') {round : UInt8}
    {inbox : RoundInbox} {expect : Expect} :
    (ex.Files round senv inbox expect → x.inst = y.inst) ∧
      (x.inst = y.inst → ex.Timely round senv inbox expect →
        ex.Files round senv inbox expect) := by
  -- what a run sends is under its own sub-instance
  have hInst : senv.env.inst = subInstance A.keccak256 x.inst 0 := by
    have hSent : s.env.inst = c.ctx.inst := by
      obtain ⟨-, -, ⟨payload, -, hEnv⟩ | ⟨plaintext, vk, -, -, hSeal⟩⟩ := mem_sendRound hSigned
      · rw [hEnv]
        rfl
      · rw [mkSealed_fields hSeal]
        rfl
    rw [hSame, hSent, hCall, serving_inst hReach hServing]
  -- what a run files is under its own
  have hInst' : ex.ctx.inst = subInstance A.keccak256 y.inst 0 := by
    rw [hRun, serving_inst hReach' hServing']
  constructor
  · intro hFiles
    obtain ⟨hAgree, -⟩ := concerns_iff.mp hFiles.concerns
    rw [hInst, hInst'] at hAgree
    exact FixedBytes.ext (List.append_cancel_right (hKeccak hAgree))
  · intro hEq hTimely
    refine hTimely.files ?_
    rw [hInst, hInst', hEq]

end

namespace Sample

/-- Party 1 of the same 2-of-3. -/
def state₁ : CosignerState Symbolic.crypto := { state with partyId := 1, signingKey := (11 : UInt8) }

/-- Party 1's service. -/
def cosigner₁ : Service OpState Request Faults (Pending Symbolic.crypto) Outcome Answer Effect :=
  service Eth.Sample.alloy state₁ fun _ => .ok Eth.Sample.pubkey

/-- The same instance as `request`, for another transfer. -/
def request₁ : StartSignRequest :=
  { request [0, 1] with
    unsignedTransaction := Eth.encodeUnsigned Eth.Sample.alloy
      (.Eip1559 { Eth.Sample.tx with value := 1500000000 }) }

/-- A sign request up to its run. -/
def servingEvents (req : StartSignRequest) : List (Event Request Faults Outcome) :=
  [.receive 0 (.sign req) ⟨none, none⟩, .resume 0 (.dialed (.ok ()))]

theorem serving_run : (cosigner.machine.run (World.init ⟨dir, false⟩)
    (servingEvents (request [0, 1]))).isSome = true := by
  decide +kernel

theorem serving_run₁ : (cosigner₁.machine.run (World.init ⟨dir, false⟩)
    (servingEvents request₁)).isSome = true := by
  decide +kernel

/-- Party 0 while it signs. -/
def servingWorld : World OpState Request (Pending Symbolic.crypto) Answer Effect :=
  (cosigner.machine.run (World.init ⟨dir, false⟩) (servingEvents (request [0, 1]))).get serving_run

/-- Party 1 while it signs. -/
def servingWorld₁ : World OpState Request (Pending Symbolic.crypto) Answer Effect :=
  (cosigner₁.machine.run (World.init ⟨dir, false⟩) (servingEvents request₁)).get serving_run₁

/-- The instance of both runs. -/
def runInstance : B256 := subInstance Eth.Sample.alloy.keccak256 (request [0, 1]).inst 0

/-- What either of them runs with. -/
def runCtx (st : CosignerState Symbolic.crypto) : PartyContext Symbolic.crypto where
  partyId := st.partyId
  inst := runInstance
  signingKey := st.signingKey
  partyVks := [(10 : UInt8), (11 : UInt8), (12 : UInt8)]
  threshold := 2

theorem servingWorld_reach : cosigner.Reach (World.init ⟨dir, false⟩) servingWorld :=
  Machine.reach_of_run (Option.some_get serving_run).symm

theorem servingWorld₁_reach : cosigner₁.Reach (World.init ⟨dir, false⟩) servingWorld₁ :=
  Machine.reach_of_run (Option.some_get serving_run₁).symm

/-- Party 0 sends its round-3 broadcast, the one broadcast there is in a signing
ceremony. -/
def runCall : SendCall Symbolic.crypto where
  ctx := runCtx state
  op := Op.sign
  participants := [0, 1]
  round := 3
  outbox := ⟨some [7], ∅⟩
  rnd _ := ⟨(3 : UInt8), .repeatByte 24 9⟩
  relay _ := .ok ()

/-- An envelope that party 0 sent in its run. -/
def replayed : SignedEnvelope Symbolic.crypto :=
  (Envelope.mkBroadcast runInstance Op.sign 3 0 1 [7]).sign (10 : UInt8)

/-- The exchange of party 1 that it is handed to. -/
def exchange₁ : Exchange Symbolic.crypto := Exchange.new (runCtx state₁) Op.sign [0, 1]

set_option maxRecDepth 20000 in
theorem serving : Serving servingWorld (request [0, 1]) (runCtx state) := ⟨0, _, _, rfl, rfl⟩

set_option maxRecDepth 20000 in
theorem serving₁ : Serving servingWorld₁ request₁ (runCtx state₁) := ⟨0, _, _, rfl, rfl⟩

theorem replayed_emitted : replayed ∈ runCall.emitted := List.mem_cons_self

end Sample

/-- The two requests of the example carry one instance, as they must. -/
theorem filed_iff_instance_sample :
    Sample.exchange₁.Files 3 Sample.replayed .empty .Broadcasts := by
  refine (filed_iff_instance Sample.servingWorld_reach Sample.servingWorld₁_reach Sample.serving
    Sample.serving₁ (fun _ => rfl) rfl Sample.replayed_emitted rfl rfl).2 rfl ?_
  exact ⟨rfl, rfl, by decide, by decide +kernel, rfl, rfl, by decide, ⟨_, rfl⟩⟩

/-- One instance in two requests for different transactions, both accepted: what
party 0 broadcast for the first is in party 1's inbox for the second. -/
theorem replay_filed :
    Sample.cosigner.Reach (World.init ⟨Sample.dir, false⟩) Sample.servingWorld ∧
      Sample.cosigner₁.Reach (World.init ⟨Sample.dir, false⟩) Sample.servingWorld₁ ∧
      Serving Sample.servingWorld (Sample.request [0, 1]) Sample.runCall.ctx ∧
      Serving Sample.servingWorld₁ Sample.request₁ Sample.exchange₁.ctx ∧
      (Sample.request [0, 1]).unsignedTransaction ≠ Sample.request₁.unsignedTransaction ∧
      Sample.replayed ∈ Sample.runCall.emitted ∧
      Sample.exchange₁.Files 3 Sample.replayed .empty .Broadcasts := by
  refine ⟨Sample.servingWorld_reach, Sample.servingWorld₁_reach, Sample.serving, Sample.serving₁,
    by decide +kernel, Sample.replayed_emitted, ?_⟩
  have hTimely : Sample.exchange₁.Timely 3 Sample.replayed .empty .Broadcasts :=
    ⟨rfl, rfl, by decide, by decide +kernel, rfl, rfl, by decide, ⟨_, rfl⟩⟩
  exact hTimely.files rfl

end Sovra.Cosigner
