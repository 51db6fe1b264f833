import Sovra.Lib.Transition

/-!
# Sovra — concurrent request handlers

A `Service` is a family of asynchronous handlers over shared state. A handler
runs without interruption from one await to the next (a `Turn`): it may change
the shared state, have effects, and then either answers or suspends. Turns of
different requests interleave in any order, and a suspended handler may be
dropped at any time, with whatever its guards do on drop.

Results:

* `Service.run_requests`   — a run holds the requests it received.
* `Service.Reach.origin`  — what holds of one handler's turns holds of every
  task, effect and answer of a run, about the request it belongs to.
* `Service.TryLock.owner` — a lock taken without waiting has at most one owner,
  and is taken exactly while a task owns it.
* `Service.alone_induct` — what every turn keeps holds of the turn that answers.
-/

namespace Sovra.Lib

variable {σ ρ ι π ω α ε : Type}

/-- What a handler does between two awaits. -/
structure Turn (σ π α ε : Type) where
  shared : σ
  effects : List ε
  next : α ⊕ π

/-- The turn that changes nothing and answers. -/
def Turn.answer (s : σ) (a : α) : Turn σ π α ε := ⟨s, [], .inl a⟩

/-- The turn that has one effect and suspends. -/
def Turn.await (s : σ) (e : ε) (p : π) : Turn σ π α ε := ⟨s, [e], .inr p⟩

/-- Handlers for requests `ρ`: a first turn (with input `ι` from outside), turns
after an await that ended in `ω`, and what dropping a suspended handler does. -/
structure Service (σ ρ ι π ω α ε : Type) where
  enter : σ → ρ → ι → Turn σ π α ε
  resume : σ → π → ω → Option (Turn σ π α ε)
  drop : σ → π → σ

/-- The shared state with everything that was asked, is suspended, was answered
and was done, by request number. -/
structure World (σ ρ π α ε : Type) where
  shared : σ
  requests : Nat → Option ρ
  tasks : Nat → Option π
  answers : Nat → Option α
  log : List (Nat × ε)

/-- What happens to a service: a request comes, an await ends, or a caller goes away. -/
inductive Event (ρ ι ω : Type)
  | receive (id : Nat) (req : ρ) (inp : ι)
  | resume (id : Nat) (out : ω)
  | cancel (id : Nat)

namespace World

/-- Nothing was asked yet. -/
def init (s : σ) : World σ ρ π α ε := ⟨s, fun _ => none, fun _ => none, fun _ => none, []⟩

/-- A request is noted under its number. -/
def setRequest (w : World σ ρ π α ε) (id : Nat) (req : ρ) : World σ ρ π α ε :=
  { w with requests := Function.update w.requests id (some req) }

/-- The world after one turn of request `id`. -/
def settle (w : World σ ρ π α ε) (id : Nat) (t : Turn σ π α ε) : World σ ρ π α ε :=
  { w with
    shared := t.shared
    tasks := Function.update w.tasks id t.next.getRight?
    answers := match t.next with
      | .inl a => Function.update w.answers id (some a)
      | .inr _ => w.answers
    log := w.log ++ t.effects.map fun e => (id, e) }

/-- The world after the handler of request `id` was dropped. -/
def dropTask (w : World σ ρ π α ε) (id : Nat) (s : σ) : World σ ρ π α ε :=
  { w with shared := s, tasks := Function.update w.tasks id none }

section

variable (w : World σ ρ π α ε) (id : Nat) (req : ρ) (t : Turn σ π α ε) (s : σ)

@[simp] theorem setRequest_shared : (w.setRequest id req).shared = w.shared := rfl
@[simp] theorem setRequest_tasks : (w.setRequest id req).tasks = w.tasks := rfl
@[simp] theorem setRequest_answers : (w.setRequest id req).answers = w.answers := rfl
@[simp] theorem setRequest_log : (w.setRequest id req).log = w.log := rfl
@[simp] theorem settle_shared : (w.settle id t).shared = t.shared := rfl
@[simp] theorem settle_requests : (w.settle id t).requests = w.requests := rfl
@[simp] theorem dropTask_shared : (w.dropTask id s).shared = s := rfl
@[simp] theorem dropTask_requests : (w.dropTask id s).requests = w.requests := rfl
@[simp] theorem dropTask_answers : (w.dropTask id s).answers = w.answers := rfl
@[simp] theorem dropTask_log : (w.dropTask id s).log = w.log := rfl

theorem setRequest_self : (w.setRequest id req).requests id = some req := by
  show Function.update w.requests id (some req) id = some req
  exact Function.update_self id (some req) w.requests

/-- After a turn the handler is where the turn left it, or gone. -/
theorem settle_tasks : (w.settle id t).tasks = Function.update w.tasks id t.next.getRight? := rfl

/-- A turn's effects are logged under the request's number. -/
theorem settle_log : (w.settle id t).log = w.log ++ t.effects.map fun e => (id, e) := rfl

end

/-- A request number is taken once. -/
theorem setRequest_requests {w : World σ ρ π α ε} {id i : Nat} {req r : ρ}
    (hFresh : w.requests id = none) (h : w.requests i = some r) :
    (w.setRequest id req).requests i = some r := by
  have hNe : i ≠ id := by
    rintro rfl
    simp [hFresh] at h
  show Function.update w.requests id (some req) i = some r
  rwa [Function.update_of_ne hNe]

/-- A handler suspended after a turn is the turn's own or was so before. -/
theorem settle_tasks_cases {w : World σ ρ π α ε} {id i : Nat} {t : Turn σ π α ε} {p : π}
    (h : (w.settle id t).tasks i = some p) :
    (i = id ∧ t.next = .inr p) ∨ (i ≠ id ∧ w.tasks i = some p) := by
  rw [settle_tasks] at h
  by_cases hId : i = id
  · rw [hId, Function.update_self, Sum.getRight?_eq_some_iff] at h
    exact Or.inl ⟨hId, h⟩
  · rw [Function.update_of_ne hId] at h
    exact Or.inr ⟨hId, h⟩

/-- An answer given by now is the turn's own or was given before. -/
theorem settle_answers_cases {w : World σ ρ π α ε} {id i : Nat} {t : Turn σ π α ε} {a : α}
    (h : (w.settle id t).answers i = some a) :
    (i = id ∧ t.next = .inl a) ∨ w.answers i = some a := by
  unfold settle at h
  rcases hNext : t.next with a' | p
  · simp only [hNext] at h
    by_cases hId : i = id
    · rw [hId, Function.update_self, Option.some.injEq] at h
      exact Or.inl ⟨hId, congrArg Sum.inl h⟩
    · rw [Function.update_of_ne hId] at h
      exact Or.inr h
  · simp only [hNext] at h
    exact Or.inr h

/-- An effect logged by now is the turn's own or was logged before. -/
theorem settle_log_cases {w : World σ ρ π α ε} {id i : Nat} {t : Turn σ π α ε} {e : ε}
    (h : (i, e) ∈ (w.settle id t).log) : (i = id ∧ e ∈ t.effects) ∨ (i, e) ∈ w.log := by
  rw [settle_log, List.mem_append, List.mem_map] at h
  rcases h with hOld | ⟨e', hMem, hEq⟩
  · exact Or.inr hOld
  · obtain ⟨rfl, rfl⟩ := Prod.mk.inj hEq
    exact Or.inl ⟨rfl, hMem⟩

/-- After a handler was dropped the others are suspended as before. -/
theorem dropTask_tasks_cases {w : World σ ρ π α ε} {id i : Nat} {s : σ} {p : π}
    (h : (w.dropTask id s).tasks i = some p) : i ≠ id ∧ w.tasks i = some p := by
  have hNe : i ≠ id := by
    rintro rfl
    simp [dropTask] at h
  refine ⟨hNe, ?_⟩
  change Function.update w.tasks id none i = some p at h
  rwa [Function.update_of_ne hNe] at h

end World

namespace Service

variable (S : Service σ ρ ι π ω α ε)

/-- One event: the turn it sets off, if there is one. -/
def step (w : World σ ρ π α ε) : Event ρ ι ω → Option (World σ ρ π α ε)
  | .receive id req inp =>
    match w.requests id with
    | some _ => none
    | none => some ((w.setRequest id req).settle id (S.enter w.shared req inp))
  | .resume id out =>
    (w.tasks id).bind fun p => (S.resume w.shared p out).map (w.settle id)
  | .cancel id => (w.tasks id).map fun p => w.dropTask id (S.drop w.shared p)

def machine : Machine (World σ ρ π α ε) (Event ρ ι ω) := ⟨S.step⟩

/-- Worlds that any interleaving of requests, turns and drops reaches. -/
def Reach : World σ ρ π α ε → World σ ρ π α ε → Prop := S.machine.Reach fun _ _ => True

variable {S}

/-- **What one step can do.** -/
theorem step_cases {w w' : World σ ρ π α ε} {e : Event ρ ι ω} (h : S.step w e = some w') :
    (∃ id req inp, e = .receive id req inp ∧ w.requests id = none ∧
      w' = (w.setRequest id req).settle id (S.enter w.shared req inp)) ∨
    (∃ id out p t, e = .resume id out ∧ w.tasks id = some p ∧
      S.resume w.shared p out = some t ∧ w' = w.settle id t) ∨
    (∃ id p, e = .cancel id ∧ w.tasks id = some p ∧
      w' = w.dropTask id (S.drop w.shared p)) := by
  match e with
  | .receive id req inp =>
    rw [step] at h
    split at h
    · simp at h
    · rename_i hFresh
      exact Or.inl ⟨id, req, inp, rfl, hFresh, (Option.some.inj h).symm⟩
  | .resume id out =>
    rw [step, Option.bind_eq_some_iff] at h
    obtain ⟨p, hTask, hMap⟩ := h
    obtain ⟨t, hResume, rfl⟩ := Option.map_eq_some_iff.mp hMap
    exact Or.inr (Or.inl ⟨id, out, p, t, rfl, hTask, hResume, rfl⟩)
  | .cancel id =>
    obtain ⟨p, hTask, rfl⟩ := Option.map_eq_some_iff.mp h
    exact Or.inr (Or.inr ⟨id, p, rfl, hTask, rfl⟩)

/-- **Invariant rule**, one premise for each kind of step; each may use that
the state before the step is reachable. -/
@[elab_as_elim] theorem Reach.induct {Inv : World σ ρ π α ε → Prop} {w₀ w : World σ ρ π α ε}
    (h : S.Reach w₀ w) (hInit : Inv w₀)
    (hReceive : ∀ w id req inp, S.Reach w₀ w → Inv w → w.requests id = none →
      Inv ((w.setRequest id req).settle id (S.enter w.shared req inp)))
    (hResume : ∀ w id p out t, S.Reach w₀ w → Inv w → w.tasks id = some p →
      S.resume w.shared p out = some t → Inv (w.settle id t))
    (hCancel : ∀ w id p, S.Reach w₀ w → Inv w → w.tasks id = some p →
      Inv (w.dropTask id (S.drop w.shared p))) : Inv w := by
  have hBoth : S.Reach w₀ w ∧ Inv w := by
    refine Machine.Reach.invariant h ⟨Machine.Reach.refl w₀, hInit⟩ ?_
    rintro w e w' ⟨hReach, hInv⟩ _ hStep
    refine ⟨Machine.Reach.step hReach trivial hStep, ?_⟩
    obtain ⟨id, req, inp, -, hFresh, rfl⟩ | ⟨id, out, p, t, -, hTask, hRes, rfl⟩ |
      ⟨id, p, -, hTask, rfl⟩ := step_cases hStep
    · exact hReceive w id req inp hReach hInv hFresh
    · exact hResume w id p out t hReach hInv hTask hRes
    · exact hCancel w id p hReach hInv hTask
  exact hBoth.2

theorem Reach.trans {w₀ w₁ w₂ : World σ ρ π α ε} (h : S.Reach w₀ w₁) (h' : S.Reach w₁ w₂) :
    S.Reach w₀ w₂ :=
  Relation.ReflTransGen.trans h h'

/-- Every request of an executed list of events was received in it. -/
theorem run_requests {es : List (Event ρ ι ω)} {w w' : World σ ρ π α ε} {id : Nat} {req : ρ}
    (h : S.machine.run w es = some w') (hReq : w'.requests id = some req) :
    w.requests id = some req ∨ ∃ inp, .receive id req inp ∈ es := by
  induction es generalizing w with
  | nil =>
    rw [Machine.run, Option.some.injEq] at h
    exact Or.inl (h ▸ hReq)
  | cons e es ih =>
    rw [Machine.run, Option.bind_eq_some_iff] at h
    obtain ⟨w₁, hStep, hRest⟩ := h
    -- later in the run, or in this event
    rcases ih hRest with hMid | ⟨inp, hMem⟩
    swap
    · exact Or.inr ⟨inp, List.mem_cons_of_mem e hMem⟩
    obtain ⟨i, r, inp, rfl, -, rfl⟩ | ⟨_, _, _, _, -, -, -, rfl⟩ | ⟨_, _, -, -, rfl⟩ :=
      step_cases hStep
    · rw [World.settle_requests] at hMid
      by_cases hId : id = i
      · subst hId
        rw [World.setRequest_self, Option.some.injEq] at hMid
        exact Or.inr ⟨inp, hMid ▸ List.mem_cons_self⟩
      · left
        change Function.update w.requests i (some r) id = some req at hMid
        rwa [Function.update_of_ne hId] at hMid
    · exact Or.inl hMid
    · exact Or.inl hMid

-- ---------------------------------------------------------------------------
-- Origin: tasks, effects and answers belong to requests
-- ---------------------------------------------------------------------------

/-- A turn that suspends in `J`, acts in `E` and answers in `An`. -/
structure Meets (J : π → Prop) (E : ε → Prop) (An : α → Prop) (t : Turn σ π α ε) : Prop where
  pending : ∀ p, t.next = .inr p → J p
  effects : ∀ e ∈ t.effects, E e
  answer : ∀ a, t.next = .inl a → An a

/-- Every task, effect and answer belongs to a request and is as `J`, `E` and
`An` say of it. -/
structure Origin (J : ρ → π → Prop) (E : ρ → ε → Prop) (An : ρ → α → Prop)
    (w : World σ ρ π α ε) : Prop where
  task : ∀ id p, w.tasks id = some p → ∃ req, w.requests id = some req ∧ J req p
  effect : ∀ id e, (id, e) ∈ w.log → ∃ req, w.requests id = some req ∧ E req e
  answered : ∀ id a, w.answers id = some a → ∃ req, w.requests id = some req ∧ An req a

/-- A request under a new number says nothing about what others left. -/
theorem Origin.setRequest {J : ρ → π → Prop} {E : ρ → ε → Prop} {An : ρ → α → Prop}
    {w : World σ ρ π α ε} {id : Nat} {req : ρ} (h : Origin J E An w)
    (hFresh : w.requests id = none) : Origin J E An (w.setRequest id req) := by
  have hKeep : ∀ {P : ρ → Prop} {i : Nat}, (∃ r, w.requests i = some r ∧ P r) →
      ∃ r, (w.setRequest id req).requests i = some r ∧ P r := by
    rintro P i ⟨r, hReq, hP⟩
    exact ⟨r, World.setRequest_requests hFresh hReq, hP⟩
  exact ⟨fun i p hTask => hKeep (h.task i p hTask), fun i e hEff => hKeep (h.effect i e hEff),
    fun i a hAns => hKeep (h.answered i a hAns)⟩

/-- A turn that meets what its request allows keeps the origin of everything. -/
theorem Origin.settle {J : ρ → π → Prop} {E : ρ → ε → Prop} {An : ρ → α → Prop}
    {w : World σ ρ π α ε} {id : Nat} {req : ρ} {t : Turn σ π α ε} (h : Origin J E An w)
    (hReq : w.requests id = some req) (ht : Meets (J req) (E req) (An req) t) :
    Origin J E An (w.settle id t) := by
  constructor
  · intro i p hTask
    rcases World.settle_tasks_cases hTask with ⟨rfl, hNext⟩ | ⟨-, hOld⟩
    · exact ⟨req, hReq, ht.pending p hNext⟩
    · exact h.task i p hOld
  · intro i e hEff
    rcases World.settle_log_cases hEff with ⟨rfl, hMem⟩ | hOld
    · exact ⟨req, hReq, ht.effects e hMem⟩
    · exact h.effect i e hOld
  · intro i a hAns
    rcases World.settle_answers_cases hAns with ⟨rfl, hNext⟩ | hOld
    · exact ⟨req, hReq, ht.answer a hNext⟩
    · exact h.answered i a hOld

/-- **Origin rule.** What every handler's turns establish about its own request
holds of all tasks, effects and answers of every run. -/
theorem Reach.origin {J : ρ → π → Prop} {E : ρ → ε → Prop} {An : ρ → α → Prop}
    {s : σ} {w : World σ ρ π α ε} (h : S.Reach (World.init s) w)
    (hEnter : ∀ s req inp, Meets (J req) (E req) (An req) (S.enter s req inp))
    (hResume : ∀ s req p out t, J req p → S.resume s p out = some t →
      Meets (J req) (E req) (An req) t) : Origin J E An w := by
  refine h.induct ?_ ?_ ?_ ?_
  · exact ⟨by simp [World.init], by simp [World.init], by simp [World.init]⟩
  · intro w id req inp _ hInv hFresh
    exact (hInv.setRequest hFresh).settle (World.setRequest_self w id req) (hEnter _ req inp)
  · intro w id p out t _ hInv hTask hRes
    obtain ⟨req, hReq, hJ⟩ := hInv.task id p hTask
    exact hInv.settle hReq (hResume _ req p out t hJ hRes)
  · intro w id p _ hInv _
    refine ⟨?_, hInv.effect, hInv.answered⟩
    intro i q hTask
    exact hInv.task i q (World.dropTask_tasks_cases hTask).2

-- ---------------------------------------------------------------------------
-- A lock that is tried, never waited for
-- ---------------------------------------------------------------------------

/-- The turn ends in a task that owns the lock. -/
def owning (holds : π → Bool) (t : Turn σ π α ε) : Bool := t.next.elim (fun _ => false) holds

/-- A `try_lock` discipline: only a free lock is taken, who does not own it
leaves it alone, and a task that owns it gives it up when it ends. -/
structure TryLock (S : Service σ ρ ι π ω α ε) (locked : σ → Bool) (holds : π → Bool) : Prop where
  enter : ∀ s req inp, let t := S.enter s req inp
    if owning holds t then locked s = false ∧ locked t.shared = true
    else locked t.shared = locked s
  resume_owner : ∀ s p out t, holds p = true → S.resume s p out = some t →
    locked s = true → locked t.shared = owning holds t
  resume_other : ∀ s p out t, holds p = false → S.resume s p out = some t →
    if owning holds t then locked s = false ∧ locked t.shared = true
    else locked t.shared = locked s
  drop_owner : ∀ s p, holds p = true → locked (S.drop s p) = false
  drop_other : ∀ s p, holds p = false → locked (S.drop s p) = locked s

/-- The lock is taken iff a task owns it, and then by that task alone. -/
structure Owned (locked : σ → Bool) (holds : π → Bool) (w : World σ ρ π α ε) : Prop where
  exists_iff : locked w.shared = true ↔ ∃ id p, w.tasks id = some p ∧ holds p = true
  unique : ∀ {i j p q}, w.tasks i = some p → holds p = true →
    w.tasks j = some q → holds q = true → i = j

/-- While the lock is free nobody owns it. -/
theorem Owned.free {locked : σ → Bool} {holds : π → Bool} {w : World σ ρ π α ε}
    (h : Owned locked holds w) (hFree : locked w.shared = false) {i : Nat} {p : π}
    (hTask : w.tasks i = some p) : holds p = false := by
  by_contra hHolds
  have hLocked := h.exists_iff.mpr ⟨i, p, hTask, by simpa using hHolds⟩
  simp [hFree] at hLocked

/-- One turn of a task that does not own the lock, or of a new request. -/
theorem Owned.settle_other {locked : σ → Bool} {holds : π → Bool} {w : World σ ρ π α ε}
    {id : Nat} {t : Turn σ π α ε} (h : Owned locked holds w)
    (hOther : ∀ p, w.tasks id = some p → holds p = false)
    (ht : if owning holds t then locked w.shared = false ∧ locked t.shared = true
      else locked t.shared = locked w.shared) : Owned locked holds (w.settle id t) := by
  -- either the turn takes a free lock, and nobody else holds it
  by_cases hOwning : owning holds t = true
  · rw [if_pos hOwning] at ht
    obtain ⟨hFree, hTaken⟩ := ht
    obtain ⟨p, hNext, hHolds⟩ : ∃ p, t.next = .inr p ∧ holds p = true := by
      rcases hNext : t.next with a | p
      · simp [owning, hNext] at hOwning
      · exact ⟨p, rfl, by simpa [owning, hNext] using hOwning⟩
    have hOnly : ∀ {i q}, (w.settle id t).tasks i = some q → holds q = true → i = id := by
      intro i q hTask hq
      rcases World.settle_tasks_cases hTask with ⟨hId, -⟩ | ⟨-, hOld⟩
      · exact hId
      · simp [h.free hFree hOld] at hq
    refine ⟨?_, ?_⟩
    · rw [World.settle_shared, hTaken]
      simp only [true_iff]
      exact ⟨id, p, by rw [World.settle_tasks, Function.update_self, hNext]; rfl, hHolds⟩
    · intro i j p q hi hp hj hq
      rw [hOnly hi hp, hOnly hj hq]
  · -- or it leaves the lock as it is, and the holder stays
    rw [if_neg hOwning] at ht
    have hOld : ∀ {i q}, (w.settle id t).tasks i = some q → holds q = true →
        i ≠ id ∧ w.tasks i = some q := by
      intro i q hTask hq
      rcases World.settle_tasks_cases hTask with ⟨-, hNext⟩ | hOld
      · rw [owning, hNext] at hOwning
        exact absurd hq hOwning
      · exact hOld
    refine ⟨?_, ?_⟩
    · rw [World.settle_shared, ht, h.exists_iff]
      constructor
      · rintro ⟨i, q, hTask, hq⟩
        have hNe : i ≠ id := by
          rintro rfl
          simp [hOther q hTask] at hq
        exact ⟨i, q, by rwa [World.settle_tasks, Function.update_of_ne hNe], hq⟩
      · rintro ⟨i, q, hTask, hq⟩
        exact ⟨i, q, (hOld hTask hq).2, hq⟩
    · intro i j p q hi hp hj hq
      exact h.unique (hOld hi hp).2 hp (hOld hj hq).2 hq

/-- One turn of the task that owns the lock. -/
theorem Owned.settle_owner {locked : σ → Bool} {holds : π → Bool} {w : World σ ρ π α ε}
    {id : Nat} {p : π} {t : Turn σ π α ε} (h : Owned locked holds w) (hTask : w.tasks id = some p)
    (hp : holds p = true) (ht : locked t.shared = owning holds t) :
    Owned locked holds (w.settle id t) := by
  -- nobody else holds the lock, so what the turn leaves decides
  have hOnly : ∀ {i q}, (w.settle id t).tasks i = some q → holds q = true →
      i = id ∧ t.next = .inr q := by
    intro i q hTask' hq
    rcases World.settle_tasks_cases hTask' with hSelf | ⟨hNe, hOld⟩
    · exact hSelf
    · exact absurd (h.unique hOld hq hTask hp) hNe
  refine ⟨?_, ?_⟩
  · rw [World.settle_shared, ht]
    constructor
    · intro hOwning
      rcases hNext : t.next with a | q
      · simp [owning, hNext] at hOwning
      · refine ⟨id, q, ?_, by simpa [owning, hNext] using hOwning⟩
        rw [World.settle_tasks, Function.update_self, hNext]
        rfl
    · rintro ⟨i, q, hTask', hq⟩
      rw [owning, (hOnly hTask' hq).2]
      exact hq
  · intro i j q r hi hq hj hr
    rw [(hOnly hi hq).1, (hOnly hj hr).1]

/-- Dropping a task. -/
theorem Owned.dropTask {locked : σ → Bool} {holds : π → Bool} {w : World σ ρ π α ε}
    {id : Nat} {p : π} {s : σ} (h : Owned locked holds w) (hTask : w.tasks id = some p)
    (hs : locked s = if holds p then false else locked w.shared) :
    Owned locked holds (w.dropTask id s) := by
  refine ⟨?_, ?_⟩
  · rw [World.dropTask_shared, hs]
    by_cases hp : holds p = true
    · simp only [hp, if_true, Bool.false_eq_true, false_iff]
      rintro ⟨i, q, hTask', hq⟩
      obtain ⟨hNe, hOld⟩ := World.dropTask_tasks_cases hTask'
      exact hNe (h.unique hOld hq hTask hp)
    · rw [if_neg hp, h.exists_iff]
      constructor
      · rintro ⟨i, q, hTask', hq⟩
        have hNe : i ≠ id := by
          rintro rfl
          rw [hTask, Option.some.injEq] at hTask'
          exact hp (hTask' ▸ hq)
        exact ⟨i, q, by simpa [World.dropTask, Function.update_of_ne hNe] using hTask', hq⟩
      · rintro ⟨i, q, hTask', hq⟩
        exact ⟨i, q, (World.dropTask_tasks_cases hTask').2, hq⟩
  · intro i j q r hi hq hj hr
    exact h.unique (World.dropTask_tasks_cases hi).2 hq (World.dropTask_tasks_cases hj).2 hr

/-- What one step keeps: the lock's ownership, and that a task's request is known. -/
theorem TryLock.step {locked : σ → Bool} {holds : π → Bool} (hLock : S.TryLock locked holds)
    {w w' : World σ ρ π α ε} {e : Event ρ ι ω}
    (h : Owned locked holds w ∧ ∀ id p, w.tasks id = some p → (w.requests id).isSome)
    (hStep : S.step w e = some w') :
    Owned locked holds w' ∧ ∀ id p, w'.tasks id = some p → (w'.requests id).isSome := by
  obtain ⟨hOwned, hKnown⟩ := h
  obtain ⟨id, req, inp, -, hFresh, rfl⟩ | ⟨id, out, p, t, -, hTask, hRes, rfl⟩ |
    ⟨id, p, -, hTask, rfl⟩ := step_cases hStep
  · -- a new request: its first turn may take the lock
    have hNone : w.tasks id = none := by
      rcases hTask : w.tasks id with _ | p
      · rfl
      · simpa [hFresh] using hKnown id p hTask
    have hEntered : Owned locked holds (w.setRequest id req) := ⟨hOwned.exists_iff, hOwned.unique⟩
    refine ⟨hEntered.settle_other ?_ (hLock.enter w.shared req inp), ?_⟩
    · intro p hTask
      simp [hNone] at hTask
    · intro i p hTask
      rw [World.settle_requests]
      by_cases hId : i = id
      · rw [hId]
        simp [World.setRequest]
      · rcases World.settle_tasks_cases hTask with ⟨hEq, -⟩ | ⟨-, hOld⟩
        · exact absurd hEq hId
        · simpa [World.setRequest, Function.update_of_ne hId] using hKnown i p hOld
  · -- a later turn, of a task that holds the lock or of one that does not
    constructor
    · rcases hp : holds p with _ | _
      · refine hOwned.settle_other ?_ (hLock.resume_other _ p out t hp hRes)
        intro q hTask'
        rw [hTask, Option.some.injEq] at hTask'
        exact hTask' ▸ hp
      · have hLocked := hOwned.exists_iff.mpr ⟨id, p, hTask, hp⟩
        exact hOwned.settle_owner hTask hp (hLock.resume_owner _ p out t hp hRes hLocked)
    · intro i q hTask'
      rcases World.settle_tasks_cases hTask' with ⟨rfl, -⟩ | ⟨-, hOld⟩
      · exact hKnown i p hTask
      · exact hKnown i q hOld
  · -- a task that is dropped gives the lock back
    constructor
    · refine hOwned.dropTask hTask ?_
      rcases hp : holds p with _ | _
      · exact hLock.drop_other _ p hp
      · exact hLock.drop_owner _ p hp
    · intro i q hTask'
      exact hKnown i q (World.dropTask_tasks_cases hTask').2

/-- Nobody owns a free lock at the start. -/
theorem Owned.init {locked : σ → Bool} {holds : π → Bool} {s : σ} (hFree : locked s = false) :
    Owned locked holds (World.init s : World σ ρ π α ε) :=
  ⟨by simp [World.init, hFree], by simp [World.init]⟩

/-- **Lock rule.** Under a `try_lock` discipline the lock has at most one owner
in every run, and is taken exactly while it has one. -/
theorem TryLock.owner {locked : σ → Bool} {holds : π → Bool} (hLock : S.TryLock locked holds)
    {s : σ} {w : World σ ρ π α ε} (hFree : locked s = false) (h : S.Reach (World.init s) w) :
    Owned locked holds w ∧ ∀ id p, w.tasks id = some p → (w.requests id).isSome := by
  refine Machine.Reach.invariant h ⟨Owned.init hFree, by simp [World.init]⟩ ?_
  intro w e w' hInv _ hStep
  exact hLock.step hInv hStep

-- ---------------------------------------------------------------------------
-- One request alone
-- ---------------------------------------------------------------------------

/-- What follows a turn while nothing else runs, with these ends of the awaits:
the shared state and the answer, once there is one. -/
def alone (S : Service σ ρ ι π ω α ε) (t : Turn σ π α ε) : List ω → Option (σ × α)
  | [] => t.next.getLeft?.map fun a => (t.shared, a)
  | out :: outs =>
    match t.next with
    | .inl a => some (t.shared, a)
    | .inr p => (S.resume t.shared p out).bind fun t => S.alone t outs

/-- A handler that has answered needs no more outcomes. -/
theorem alone_answered {t : Turn σ π α ε} {a : α} (hNext : t.next = .inl a) (outs : List ω) :
    S.alone t outs = some (t.shared, a) := by
  rcases outs with _ | ⟨out, outs⟩ <;> simp [alone, hNext]

/-- A handler that waits takes the first outcome there is. -/
theorem alone_pending {t : Turn σ π α ε} {p : π} {outs : List ω} {r : σ × α}
    (hNext : t.next = .inr p) (h : S.alone t outs = some r) :
    ∃ out rest t', outs = out :: rest ∧ S.resume t.shared p out = some t' ∧
      S.alone t' rest = some r := by
  rcases outs with _ | ⟨out, rest⟩
  · simp [alone, hNext] at h
  · simp only [alone, hNext, Option.bind_eq_some_iff] at h
    obtain ⟨t', hResume, hRest⟩ := h
    exact ⟨out, rest, t', rfl, hResume, hRest⟩

/-- **Turn rule.** -/
theorem alone_induct {Ok : Turn σ π α ε → Prop} {t : Turn σ π α ε} {outs : List ω} {s : σ} {a : α}
    (h : S.alone t outs = some (s, a)) (hStart : Ok t)
    (hStep : ∀ t p out t', Ok t → t.next = .inr p → S.resume t.shared p out = some t' → Ok t') :
    ∃ t', Ok t' ∧ t'.shared = s ∧ t'.next = .inl a := by
  induction outs generalizing t with
  | nil =>
    obtain ⟨a', hNext, hEq⟩ := Option.map_eq_some_iff.mp h
    obtain ⟨rfl, rfl⟩ := Prod.mk.inj hEq
    exact ⟨t, hStart, rfl, Sum.getLeft?_eq_some_iff.mp hNext⟩
  | cons out outs ih =>
    rw [alone] at h
    split at h
    · rename_i a' hNext
      obtain ⟨rfl, rfl⟩ := Prod.mk.inj (Option.some.inj h)
      exact ⟨t, hStart, rfl, hNext⟩
    · rename_i p hNext
      obtain ⟨t', hResume, hRest⟩ := Option.bind_eq_some_iff.mp h
      exact ih hRest (hStep t p out t' hStart hNext hResume)

end Service

end Sovra.Lib
