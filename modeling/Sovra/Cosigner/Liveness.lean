import Sovra.Cosigner.Service

/-!
# Sovra — who can free the op lock

A handler that holds the op lock is at one of two awaits: the relay dial, or a
run under the ttl. The cosigner's own clock ends the second; only the hub ends
the first, since `dial` stands outside every timeout.

* `lock_freed_iff`  — the cosigner alone can free the lock exactly when no
  handler is at the dial.
* `lock_wedged`     — one `/dkg` and a hub that never answers.
-/

namespace Sovra.Cosigner

open Lib Mpc State Ipc

section

variable {C : Crypto}

/-- The handler waits for the hub to take its connection. -/
def Pending.dialing : Pending C → Bool
  | .dkgDial _ | .refreshDial _ _ _ | .signDial _ _ _ => true
  | .dkgRun _ | .refreshRun _ _ _ | .signRun _ _ _ => false

/-- How the cosigner's own clock ends an await: the ttl for a run, nothing for a
dial. -/
def Pending.timeout : Pending C → Option Outcome
  | .dkgDial _ | .refreshDial _ _ _ | .signDial _ _ _ => none
  | .dkgRun _ | .refreshRun _ _ _ => some (.shard none [] none)
  | .signRun _ _ _ => some (.parts none)

/-- A step of the cosigner's clock and computation alone. -/
def OwnClock (w : World OpState Request (Pending C) Answer Effect)
    (e : Event Request Faults Outcome) : Prop :=
  ∃ id p out, w.tasks id = some p ∧ p.timeout = some out ∧ e = .resume id out

/-- It is the dials that have no ttl. -/
theorem timeout_eq_none {p : Pending C} : p.timeout = none ↔ p.dialing = true := by
  rcases p with _ | _ | _ | _ | _ | _ <;> simp [Pending.timeout, Pending.dialing]

variable {A : Eth.Alloy} {st : CosignerState C}
  {publicKeyOf : KeyShare → Except MpcError PubkeySec1}
  {w w' : World OpState Request (Pending C) Answer Effect}

/-- The expiry of the ttl ends the handler and with it its guard. -/
theorem timeout_frees {id : Nat} {p : Pending C} {out : Outcome} (hTask : w.tasks id = some p)
    (hTimeout : p.timeout = some out) :
    ∃ w', (service A st publicKeyOf).step w (.resume id out) = some w' ∧ w'.shared.op = false := by
  have hTurn : ∃ t, resume A st w.shared p out = some t ∧ t.shared.op = false := by
    rcases p with _ | ctx | _ | ⟨req, ctx, oldShare⟩ | _ | ⟨job, ctx, digest⟩
    -- a run that times out answers; a dial has no timeout
    all_goals first
      | (obtain rfl := Option.some.inj hTimeout
         exact ⟨_, rfl, rfl⟩)
      | simp [Pending.timeout] at hTimeout
  obtain ⟨t, hResume, hFree⟩ := hTurn
  refine ⟨w.settle id t, ?_, hFree⟩
  show (w.tasks id).bind (fun p => (resume A st w.shared p out).map (w.settle id)) = _
  rw [hTask, Option.bind_some, hResume, Option.map_some]

/-- While every task is at a dial the clock moves nothing. -/
theorem dialing_stays (hDialing : ∀ id p, w.tasks id = some p → p.dialing = true)
    (h : (service A st publicKeyOf).machine.Reach OwnClock w w') : w' = w := by
  refine h.invariant rfl ?_
  rintro _ e w₁ rfl ⟨id, p, out, hTask, hTimeout, -⟩ _
  rw [timeout_eq_none.mpr (hDialing id p hTask)] at hTimeout
  simp at hTimeout

/-- A dial that ends, however it ends, leaves the lock free or a run under the
ttl. -/
theorem dialed_frees {id : Nat} {p : Pending C} (hTask : w.tasks id = some p)
    (hDialing : p.dialing = true) (result : Except String Unit) :
    ∃ w₁ w', (service A st publicKeyOf).step w (.resume id (.dialed result)) = some w₁ ∧
      (service A st publicKeyOf).machine.Reach OwnClock w₁ w' ∧ w'.shared.op = false := by
  have hTurn : ∃ t, resume A st w.shared p (.dialed result) = some t ∧
      (t.shared.op = false ∨ ∃ q out, t.next = .inr q ∧ q.timeout = some out) := by
    -- a dial that fails answers and frees the lock; one that succeeds starts a run,
    -- which has its ttl
    rcases result with e | u
    · rcases p with ctx | _ | ⟨req, ctx, oldShare⟩ | _ | ⟨job, ctx, digest⟩ | _
      all_goals first
        | exact ⟨_, rfl, Or.inl rfl⟩
        | simp [Pending.dialing] at hDialing
    · rcases p with ctx | _ | ⟨req, ctx, oldShare⟩ | _ | ⟨job, ctx, digest⟩ | _
      all_goals first
        | exact ⟨_, rfl, Or.inr ⟨_, _, rfl, rfl⟩⟩
        | simp [Pending.dialing] at hDialing
  obtain ⟨t, hResume, hEnds⟩ := hTurn
  have hStep : (service A st publicKeyOf).step w (.resume id (.dialed result)) =
      some (w.settle id t) := by
    show (w.tasks id).bind (fun p => (resume A st w.shared p (.dialed result)).map
      (w.settle id)) = _
    rw [hTask, Option.bind_some, hResume, Option.map_some]
  -- either nothing more is needed, or the ttl of the run
  rcases hEnds with hFree | ⟨q, out, hNext, hTimeout⟩
  · exact ⟨w.settle id t, w.settle id t, hStep, Machine.Reach.refl _, hFree⟩
  · have hRun : (w.settle id t).tasks id = some q := by
      rw [World.settle_tasks, Function.update_self, hNext]
      rfl
    obtain ⟨w', hLast, hFree⟩ := timeout_frees hRun hTimeout
    exact ⟨w.settle id t, w', hStep,
      (Machine.Reach.refl _).step ⟨id, q, out, hRun, hTimeout, rfl⟩ hLast, hFree⟩

/-- In every reachable state in which the op lock is held: the cosigner's own
clock can bring the lock free exactly when no handler is at its dial; and a
handler at its dial needs the hub for that one await only. -/
theorem lock_freed_iff {dir : ShardDir}
    (hReach : (service A st publicKeyOf).Reach (World.init ⟨dir, false⟩) w)
    (hHeld : w.shared.op = true) :
    ((∃ w', (service A st publicKeyOf).machine.Reach OwnClock w w' ∧ w'.shared.op = false) ↔
      ∀ id p, w.tasks id = some p → p.dialing = false) ∧
    ∀ id p, w.tasks id = some p → p.dialing = true → ∀ result, ∃ w₁ w',
      (service A st publicKeyOf).step w (.resume id (.dialed result)) = some w₁ ∧
      (service A st publicKeyOf).machine.Reach OwnClock w₁ w' ∧ w'.shared.op = false := by
  obtain ⟨hOwned, -⟩ := service_tryLock.owner rfl hReach
  refine ⟨⟨?_, ?_⟩, fun id p hTask hDialing result => dialed_frees hTask hDialing result⟩
  · rintro ⟨w', hOwn, hFree⟩ id p hTask
    by_contra hDialing
    -- the lock has one owner: if that is at its dial, every task is
    have hAll : ∀ i q, w.tasks i = some q → q.dialing = true := by
      intro i q hOther
      have hSame : i = id := hOwned.unique hOther rfl hTask rfl
      rw [hSame, hTask, Option.some.injEq] at hOther
      rw [← hOther]
      simpa using hDialing
    rw [dialing_stays hAll hOwn, hHeld] at hFree
    simp at hFree
  · intro hRunning
    -- the owner is in a run, and its ttl ends it
    obtain ⟨id, p, hTask, -⟩ := hOwned.exists_iff.mp hHeld
    rcases hTimeout : p.timeout with _ | out
    · have hDialing := timeout_eq_none.mp hTimeout
      rw [hRunning id p hTask] at hDialing
      simp at hDialing
    · have hFrees : ∃ w', (service A st publicKeyOf).step w (.resume id out) = some w' ∧
          w'.shared.op = false := timeout_frees hTask hTimeout
      obtain ⟨w', hStep, hFree⟩ := hFrees
      exact ⟨w', (Machine.Reach.refl w).step ⟨id, p, out, hTask, hTimeout, rfl⟩ hStep, hFree⟩

end

namespace Sample

/-- One `/dkg` at a party without a shard. -/
def dkgEvents : List (Event Request Faults Outcome) :=
  [.receive 0 (.dkg ⟨.repeatByte 32 3, 3, 2⟩) ⟨none, none⟩]

theorem dkgEvents_run :
    (cosigner.machine.run (World.init ⟨.empty, false⟩) dkgEvents).isSome = true := by rfl

/-- The cosigner is dialing the hub. -/
def dialingWorld : World OpState Request (Pending Symbolic.crypto) Answer Effect :=
  (cosigner.machine.run (World.init ⟨.empty, false⟩) dkgEvents).get dkgEvents_run

/-- The hub has taken the connection and the key generation runs. -/
def runEvents : List (Event Request Faults Outcome) := dkgEvents ++ [.resume 0 (.dialed (.ok ()))]

theorem runEvents_run :
    (cosigner.machine.run (World.init ⟨.empty, false⟩) runEvents).isSome = true := by rfl

/-- The lock is held, and the run has its ttl. -/
def runningWorld : World OpState Request (Pending Symbolic.crypto) Answer Effect :=
  (cosigner.machine.run (World.init ⟨.empty, false⟩) runEvents).get runEvents_run

theorem dialingWorld_reach : cosigner.Reach (World.init ⟨.empty, false⟩) dialingWorld :=
  Machine.reach_of_run (Option.some_get dkgEvents_run).symm

theorem runningWorld_reach : cosigner.Reach (World.init ⟨.empty, false⟩) runningWorld :=
  Machine.reach_of_run (Option.some_get runEvents_run).symm

end Sample

/-- A running key generation that nobody answers can be ended. -/
theorem lock_freed_running :
    ∃ w', Sample.cosigner.machine.Reach OwnClock Sample.runningWorld w' ∧
      w'.shared.op = false := by
  refine (lock_freed_iff Sample.runningWorld_reach rfl).1.mpr ?_
  intro id p hTask
  rcases id with _ | id
  · obtain rfl := Option.some.inj hTask
    rfl
  · have hNone : Sample.runningWorld.tasks (id + 1) = none := rfl
    simp [hNone] at hTask

/-- One `/dkg` and a hub that never answers the handshake: the lock is held, and
nothing the cosigner can do alone frees it. -/
theorem lock_wedged :
    Sample.cosigner.Reach (World.init ⟨.empty, false⟩) Sample.dialingWorld ∧
      Sample.dialingWorld.shared.op = true ∧
      ¬ ∃ w', Sample.cosigner.machine.Reach OwnClock Sample.dialingWorld w' ∧
        w'.shared.op = false := by
  refine ⟨Sample.dialingWorld_reach, rfl, ?_⟩
  rintro ⟨w', hOwn, hFree⟩
  have hDialing : ∀ id p, Sample.dialingWorld.tasks id = some p → p.dialing = true := by
    intro id p hTask
    rcases id with _ | id
    · obtain rfl := Option.some.inj hTask
      rfl
    · have hNone : Sample.dialingWorld.tasks (id + 1) = none := rfl
      simp [hNone] at hTask
  have hSame : w' = Sample.dialingWorld := dialing_stays hDialing hOwn
  rw [hSame] at hFree
  exact absurd hFree (by decide)

end Sovra.Cosigner
