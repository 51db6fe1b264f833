import Sovra.Cosigner.Crash

/-!
# Sovra — what a cosigner's answers stand for

A key in an answer is the key of the files behind it, and stays that: files keep
their key, and the shard its place, through every later incident. Signatures in
an answer are for a transaction the cosigner's own policy permits.

* `StandsFor`     — what an answer promises of the files and the policy.
* `Vouched.step`  — every incident keeps what has been answered true.
-/

namespace Sovra.Cosigner

open Lib Mpc State Ipc Carbon

/-- The files hold this key, with a shard of it. -/
structure Holds (dir : ShardDir) (publicKey : PubkeySec1) : Prop where
  metadata : dir.metadata = some (activeMetadata publicKey)
  shard : dir.shard.isSome = true

/-- What an answer to `req` promises. -/
structure StandsFor (A : Eth.Alloy) {C : Crypto} (st : CosignerState C) (dir : ShardDir)
    (req : Request) (a : Answer) : Prop where
  key : ∀ info, a = .ok (.publicKey info) → Holds dir info.publicKey
  sign : SignAnswer A st req a

/-- Every suspended handler and every answer belongs to a request, and is as the
sign handler's terms and `StandsFor` say of it. -/
structure Vouched (A : Eth.Alloy) {C : Crypto} (st : CosignerState C)
    (w : World OpState Request (Pending C) Answer Effect) : Prop where
  task : ∀ id p, w.tasks id = some p → ∃ req, w.requests id = some req ∧ SignTask A st req p
  answered : ∀ id a, w.answers id = some a →
    ∃ req, w.requests id = some req ∧ StandsFor A st w.shared.dir req a

/-- The shard goes on being one of the key. -/
theorem Holds.keeps {dir dir' : ShardDir} {publicKey : PubkeySec1} (h : Holds dir publicKey)
    (hKeeps : Keeps dir dir') : Holds dir' publicKey :=
  ⟨hKeeps.metadata _ h.metadata, hKeeps.shard h.shard⟩

section

variable {D : Dkls} {text : UInt8 → UInt8 → String} {A : Eth.Alloy} {C : Crypto}
  {st : CosignerState C} {dir dir' : ShardDir} {req : Request} {a : Answer}
  {w w' : World OpState Request (Pending C) Answer Effect}

/-- What stood behind an answer stands behind it later. -/
theorem StandsFor.keeps (h : StandsFor A st dir req a) (hKeeps : Keeps dir dir') :
    StandsFor A st dir' req a :=
  ⟨fun info hKey => (h.key info hKey).keeps hKeeps, h.sign⟩

/-- An error asserts nothing. -/
theorem standsFor_error {e : CosignerError} : StandsFor A st dir req (.error e) where
  key _ h := nomatch h
  sign _ _ _ h := nomatch h

-- ---------------------------------------------------------------------------
-- What one turn answers
-- ---------------------------------------------------------------------------

/-- What a turn that owns the lock answers. -/
theorem guarded_answer {s : OpState} {next : Except CosignerError (Reply ⊕ Pending C)}
    (hAnswer : (guarded s next).next = .inl a) :
    (∃ e, a = .error e) ∨ ∃ reply, next = .ok (.inl reply) ∧ a = .ok reply := by
  rcases next with e | reply | p
  · exact Or.inl ⟨e, (Sum.inl.inj hAnswer).symm⟩
  · exact Or.inr ⟨reply, rfl, (Sum.inl.inj hAnswer).symm⟩
  · cases hAnswer

/-- A handler that wants the lock answers no more than an error at first. -/
theorem tryLock_answer {s : OpState} {first : Except CosignerError (Reply ⊕ Pending C)}
    (hWaits : ∀ reply, first ≠ .ok (.inl reply)) (hAnswer : (tryLock s first).next = .inl a) :
    ∃ e, a = .error e := by
  unfold tryLock at hAnswer
  split at hAnswer
  · exact ⟨.Busy, (Sum.inl.inj hAnswer).symm⟩
  · rcases guarded_answer hAnswer with hError | ⟨reply, hReply, -⟩
    · exact hError
    · exact absurd hReply (hWaits reply)

/-- `GET /pubkey` answers the key of a shard that loads. -/
theorem pubkey_holds (hSound : Sound D st.sealer dir) (hOpens : Opens st.sealer) {faults : Faults}
    {info : PublicKeyInfo}
    (h : pubkey st (publicKeyOf D.party D.view) dir faults = .ok (.publicKey info)) :
    Holds dir info.publicKey := by
  simp only [pubkey, CosignerState.loadShardOr, bind_eq_ok, mapError_eq_ok, pure_eq_ok,
    Reply.publicKey.injEq] at h
  obtain ⟨share, hLoad, publicKey, hKey, rfl⟩ := h
  obtain ⟨metadata, hMetadata, hStored⟩ := hSound.loaded hOpens hLoad
  obtain rfl : metadata.publicKey = publicKey := Except.ok.inj (hStored.symm.trans hKey)
  obtain ⟨-, sealed, hShard, -⟩ := loadShard_ok hLoad
  refine ⟨?_, by rw [hShard]; rfl⟩
  rw [hMetadata]
  exact congrArg some (hSound.active metadata hMetadata)

/-- `GET /signer` answers the key of metadata that has its shard. -/
theorem signer_holds (hSound : Sound D st.sealer dir) {faults : Faults} {info : PublicKeyInfo}
    (h : signer st dir faults = .ok (.publicKey info)) : Holds dir info.publicKey := by
  rcases hActive : loadActive st.sealer dir faults.metadata faults.shard with e | _ | publicKey
  · simp [signer, signerOf, hActive] at h
  · simp [signer, signerOf, hActive] at h
  obtain rfl : (⟨publicKey⟩ : PublicKeyInfo) = info := by
    simpa [signer, signerOf, hActive] using h
  obtain ⟨metadata, share, hMetadata, rfl, hLoad⟩ := loadActive_some hActive
  obtain ⟨-, sealed, hShard, -⟩ := loadShard_ok hLoad
  refine ⟨?_, by rw [hShard]; rfl⟩
  rw [hMetadata]
  exact congrArg some (hSound.active metadata hMetadata)

/-- An answer given at once is true of the files at that moment. -/
theorem enter_answer (hSound : Sound D st.sealer w.shared.dir) (hOpens : Opens st.sealer)
    {faults : Faults}
    (hAnswer : (enter A st (publicKeyOf D.party D.view) w.shared req faults).next = .inl a) :
    StandsFor A st w.shared.dir req a := by
  cases req with
  -- nothing that runs a ceremony answers in its first turn but by an error
  | dkg req =>
    obtain ⟨e, rfl⟩ := tryLock_answer (a := a) (fun reply hReply => by
      unfold dkg at hReply
      split at hReply
      · simp at hReply
      · simp at hReply
      · simp at hReply) hAnswer
    exact standsFor_error
  | refresh req =>
    obtain ⟨e, rfl⟩ := tryLock_answer (a := a) (fun reply hReply => by
      simp [refresh] at hReply) hAnswer
    exact standsFor_error
  | sign req =>
    obtain ⟨e, rfl⟩ := tryLock_answer (a := a) (fun reply hReply => by
      obtain ⟨tx, share, ctx, -, -, hNext⟩ := sign_ok hReply
      cases hNext) hAnswer
    exact standsFor_error
  -- the two reads answer from the directory
  | pubkey =>
    obtain rfl := Sum.inl.inj hAnswer
    exact ⟨fun info hKey => pubkey_holds hSound hOpens hKey, fun r _ hReq => by cases hReq⟩
  | signer =>
    obtain rfl := Sum.inl.inj hAnswer
    exact ⟨fun info hKey => signer_holds hSound hKey, fun r _ hReq => by cases hReq⟩

/-- A save that answers has put both files in place. -/
theorem save_holds {s : OpState} {result : RunEnd (KeyShare × PubkeySec1)} {nonce : Bytes}
    {stop : Option (Nat × StateError)} {reply : Reply}
    (h : (saveResult (C := C) st s result nonce stop).2 = .ok (.inl reply)) :
    ∃ publicKey, reply = .publicKey ⟨publicKey⟩ ∧
      Holds (saveResult (C := C) st s result nonce stop).1.dir publicKey := by
  rcases result with _ | e | ⟨share, publicKey⟩
  · cases h
  · cases h
  simp only [saveResult, runResult, bind_eq_ok, mapError_eq_ok, pure_eq_ok, Sum.inl.injEq] at h ⊢
  obtain ⟨u, hSaved, rfl⟩ := h
  refine ⟨publicKey, rfl, ?_⟩
  -- a save that succeeds has sealed the share, and was not stopped before its last step
  rcases hSealed : st.sealer.sealBytes nonce share.bytes with e | sealed
  · rcases stop with _ | ⟨k, e'⟩
    · simp [hSealed, SignerDir.save, saveShard] at hSaved
    · simp only [hSealed, SignerDir.save, saveShard] at hSaved
      split at hSaved <;> cases hSaved
  · rcases stop with _ | ⟨k, e'⟩
    · exact ⟨rfl, rfl⟩
    · simp only [hSealed, SignerDir.save, saveShard] at hSaved ⊢
      split at hSaved
      · cases hSaved
      · rename_i hAll
        rw [List.take_of_length_le (by omega)]
        exact ⟨rfl, rfl⟩

/-- The sign handler's terms, of a later turn of any handler. -/
theorem resume_terms {s : OpState} {p : Pending C} {out : Outcome}
    {t : Turn OpState (Pending C) Answer Effect} (hTask : SignTask A st req p)
    (hTurn : resume A st s p out = some t) : SignTurn A st req t := by
  have hServed : (service A st fun _ => .error .deserialize).resume s p out = some t := hTurn
  exact resume_meets s req p out t hTask hServed

/-- So is one given when an await ends. -/
theorem resume_answer {s : OpState} {p : Pending C} {out : Outcome}
    {t : Turn OpState (Pending C) Answer Effect} (hTask : SignTask A st req p)
    (hTurn : resume A st s p out = some t) (hAnswer : t.next = .inl a) :
    StandsFor A st t.shared.dir req a := by
  refine ⟨?_, (resume_terms hTask hTurn).answer a hAnswer⟩
  rintro info rfl
  -- past the dial an operation goes on to its ceremony
  have hDial : ∀ {result : Except String Unit} {run : Pending C},
      (guarded s (afterDial result run)).next ≠ .inl (.ok (.publicKey info)) := by
    intro result run hEnd
    rcases guarded_answer hEnd with ⟨e, hError⟩ | ⟨reply, hReply, -⟩
    · cases hError
    · simp [afterDial] at hReply
  -- past the ceremony a key is answered once its share is saved
  have hSave : ∀ {result : RunEnd (KeyShare × PubkeySec1)} {nonce : Bytes}
      {stop : Option (Nat × StateError)},
      t = guarded (saveResult (C := C) st s result nonce stop).1
        (saveResult st s result nonce stop).2 → Holds t.shared.dir info.publicKey := by
    rintro result nonce stop rfl
    rcases guarded_answer hAnswer with ⟨e, hError⟩ | ⟨reply, hReply, hOk⟩
    · cases hError
    · obtain ⟨publicKey, rfl, hHolds⟩ := save_holds hReply
      obtain rfl : info = ⟨publicKey⟩ := Reply.publicKey.inj (Except.ok.inj hOk)
      rwa [guarded_dir]
  unfold resume at hTurn
  split at hTurn
  case h_1 => exact absurd (Option.some.inj hTurn ▸ hAnswer) hDial
  case h_2 => exact absurd (Option.some.inj hTurn ▸ hAnswer) hDial
  case h_3 => exact absurd (Option.some.inj hTurn ▸ hAnswer) hDial
  case h_4 => exact hSave (Option.some.inj hTurn).symm
  case h_5 => exact hSave (Option.some.inj hTurn).symm
  -- signatures are no key
  case h_6 job ctx digest result =>
    obtain rfl := Option.some.inj hTurn
    rcases guarded_answer hAnswer with ⟨e, hError⟩ | ⟨reply, hReply, hOk⟩
    · cases hError
    · obtain rfl := Except.ok.inj hOk
      simp only [afterSign, signNext, bind_eq_ok] at hReply
      obtain ⟨parts, -, hNext⟩ := hReply
      split at hNext
      · cases hNext
      · simp at hNext
  case h_7 => cases hTurn

-- ---------------------------------------------------------------------------
-- What every incident keeps
-- ---------------------------------------------------------------------------

/-- Before anything was asked there is no answer. -/
theorem Vouched.started : Vouched A st (started dir : World OpState Request (Pending C) Answer Effect)
    where
  task _ _ h := nomatch h
  answered _ _ h := nomatch h

/-- One turn of the handler of `req`. -/
theorem Vouched.settle (h : Vouched A st w) {id : Nat}
    {t : Turn OpState (Pending C) Answer Effect} (hReq : w.requests id = some req)
    (hKeeps : Keeps w.shared.dir t.shared.dir) (hTask : ∀ p, t.next = .inr p → SignTask A st req p)
    (hAnswer : ∀ a, t.next = .inl a → StandsFor A st t.shared.dir req a) :
    Vouched A st (w.settle id t) where
  task i p hPending := by
    rcases World.settle_tasks_cases hPending with ⟨rfl, hNext⟩ | ⟨-, hOld⟩
    · exact ⟨req, hReq, hTask p hNext⟩
    · exact h.task i p hOld
  answered i a hAns := by
    rcases World.settle_answers_cases hAns with ⟨rfl, hNext⟩ | hOld
    · exact ⟨req, hReq, hAnswer a hNext⟩
    · obtain ⟨r, hReq', hStands⟩ := h.answered i a hOld
      exact ⟨r, hReq', hStands.keeps hKeeps⟩

/-- **Every incident keeps what has been answered true.** -/
theorem Vouched.step (h : Vouched A st w) (hInv : Inv D st w) (hOpens : Opens st.sealer)
    (hCodec : D.party.RoundTrips) {i : Incident} (hPlausible : Plausible D text w i)
    (hStep : incident A D st w i = some w') : Vouched A st w' := by
  have hKeeps : Keeps w.shared.dir w'.shared.dir :=
    (step_inv hInv hOpens hCodec hPlausible hStep).2
  match i with
  -- a restart has answered nothing yet
  | .crash =>
    obtain rfl := Option.some.inj hStep
    exact Vouched.started
  | .crashInSave id share publicKey nonce steps =>
    obtain ⟨p, -, hDies⟩ := Option.bind_eq_some_iff.mp hStep
    split at hDies
    · obtain rfl := Option.some.inj hDies
      exact Vouched.started
    · cases hDies
  -- temporaries change nothing an answer is about
  | .debris tmpMetadata tmpShard =>
    obtain rfl := Option.some.inj hStep
    refine ⟨h.task, fun id a hAns => ?_⟩
    obtain ⟨req, hReq, hStands⟩ := h.answered id a hAns
    exact ⟨req, hReq, hStands.keeps hKeeps⟩
  | .serve e =>
    obtain ⟨id, req, faults, rfl, hFresh, rfl⟩ | ⟨id, out, p, t, rfl, hTask, hTurn, rfl⟩ |
      ⟨id, p, rfl, -, rfl⟩ := Service.step_cases hStep
    · -- a first turn, on the files as they are
      have hKnown : Vouched A st (w.setRequest id req) := by
        refine ⟨fun j p hPending => ?_, fun j a hAns => ?_⟩
        · obtain ⟨r, hReq, hOk⟩ := h.task j p hPending
          exact ⟨r, World.setRequest_requests hFresh hReq, hOk⟩
        · obtain ⟨r, hReq, hStands⟩ := h.answered j a hAns
          exact ⟨r, World.setRequest_requests hFresh hReq, hStands⟩
      have hDir : (enter A st (publicKeyOf D.party D.view) w.shared req faults).shared.dir =
          w.shared.dir := (enter_grounded hPlausible _ _ _).1
      refine hKnown.settle (World.setRequest_self w id req) hKeeps ?_ ?_
      · exact (enter_meets w.shared req faults).pending
      · intro a hAnswer
        have hStands : StandsFor A st w.shared.dir req a :=
          enter_answer hInv.sound hOpens hAnswer
        exact hStands.keeps hKeeps
    · -- a later turn, on the files as it leaves them
      obtain ⟨req, hReq, hSign⟩ := h.task id p hTask
      refine h.settle hReq hKeeps ?_ ?_
      · exact (resume_terms hSign hTurn).pending
      · exact fun a hAnswer => resume_answer hSign hTurn hAnswer
    · -- a request that is dropped is not answered
      refine ⟨fun j q hPending => ?_, h.answered⟩
      exact h.task j q (World.dropTask_tasks_cases hPending).2

end

end Sovra.Cosigner
