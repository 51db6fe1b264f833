import Sovra.Lib.Transition

/-!
# Sovra — programs that issue calls

A `Program` ends with a result, or issues a call and goes on with the reply. A
`Crew` is any number of programs over one state, run call by call: each may be
started, moved on or stopped at any time.

`Sat` is the rely-guarantee judgement. However others interfere (`rely`), each
call issued in a state that meets its precondition (`pre`) is a step the program
answers for (`guarantee`), and it ends as it promises.

Results:

* `Program.Sat.bind` — a program is judged part by part.
* `Crew.step_cases`  — everything one move of a crew can do.
* `Crew.Reach.sat`   — programs that rely on no more than what each of them
  guarantees keep an invariant of the state together.
-/

namespace Sovra.Lib

/-- A program that issues calls `γ` and is answered a `ρ c` on the call `c`. -/
inductive Program (γ : Type) (ρ : γ → Type) (α : Type)
  | done (result : α)
  | call (c : γ) (next : ρ c → Program γ ρ α)

namespace Program

variable {σ γ : Type} {ρ : γ → Type} {α β ε : Type}

/-- One program after another, on the first one's result. -/
def bind : Program γ ρ α → (α → Program γ ρ β) → Program γ ρ β
  | .done a, f => f a
  | .call c next, f => .call c fun r => (next r).bind f

instance : Monad (Program γ ρ) where
  pure := .done
  bind := bind

/-- The call that comes next. -/
def next? : Program γ ρ α → Option γ
  | .done _ => none
  | .call c _ => some c

/-- All calls a program can ever issue meet `P`. -/
def Only (P : γ → Prop) : Program γ ρ α → Prop
  | .done _ => True
  | .call c next => P c ∧ ∀ r, (next r).Only P

/-- The calls of a sequence are those of its parts. -/
theorem Only.bind {P : γ → Prop} {p : Program γ ρ α} {f : α → Program γ ρ β} (h : p.Only P)
    (hRest : ∀ a, (f a).Only P) : (p >>= f).Only P := by
  induction p with
  | done a => exact hRest a
  | call c next ih => exact ⟨h.1, fun r => ih r (h.2 r)⟩

/-- The same where an error ends the sequence. -/
theorem Only.andThen {P : γ → Prop} {p : ExceptT ε (Program γ ρ) α}
    {f : α → ExceptT ε (Program γ ρ) β} (h : Only P p.run) (hRest : ∀ a, Only P (f a).run) :
    Only P (p >>= f).run := by
  refine Only.bind (f := ExceptT.bindCont f) h ?_
  rintro (e | a)
  · trivial
  · exact hRest a

/-- Reshaping the result issues no calls. -/
theorem Only.map {P : γ → Prop} {f : α → β} {p : Program γ ρ α} (h : p.Only P) :
    Only P (p >>= fun a => .done (f a)) := h.bind fun _ => trivial

end Program

-- ---------------------------------------------------------------------------
-- Rely and guarantee
-- ---------------------------------------------------------------------------

/-- What a program may rely on, and has to guarantee, while others share its
state. Its calls are answered for where `pre` held. -/
structure Terms (σ γ : Type) where
  rely : σ → σ → Prop
  pre : σ → γ → Prop
  guarantee : σ → σ → Prop
  rely_refl : ∀ s, rely s s
  rely_trans : ∀ {s s' s''}, rely s s' → rely s' s'' → rely s s''
  guarantee_refl : ∀ s, guarantee s s

namespace Program

section

variable {σ γ : Type} {ρ : γ → Type} {α β : Type} (exec : σ → (c : γ) → σ × ρ c)
  (T : Terms σ γ)

/-- The program keeps its terms from state `s` on and ends with `Q`. -/
def Sat (Q : α → σ → Prop) : Program γ ρ α → σ → Prop
  | .done a, s => ∀ s', T.rely s s' → Q a s'
  | .call c next, s => ∀ s', T.rely s s' → T.pre s' c →
      T.guarantee s' (exec s' c).1 ∧ (next (exec s' c).2).Sat Q (exec s' c).1

end

variable {σ γ : Type} {ρ : γ → Type} {α β : Type} {exec : σ → (c : γ) → σ × ρ c}
  {T : Terms σ γ} {Q Q' : α → σ → Prop} {p : Program γ ρ α} {s s' : σ}

/-- Interference does not hurt. -/
theorem Sat.rely (h : p.Sat exec T Q s) (hRely : T.rely s s') : p.Sat exec T Q s' := by
  cases p with
  | done a =>
    intro t hLater
    exact h t (T.rely_trans hRely hLater)
  | call c next =>
    intro t hLater
    exact h t (T.rely_trans hRely hLater)

/-- Who returns has nothing left to answer for but the result, however long others
go on. -/
theorem Sat.done {a : α} (h : ∀ s', T.rely s s' → Q a s') :
    (Program.done a : Program γ ρ α).Sat exec T Q s := h

/-- What was promised of a result holds at once: nobody has to interfere. -/
theorem Sat.result {a : α} (h : (Program.done a : Program γ ρ α).Sat exec T Q s) : Q a s :=
  h s (T.rely_refl s)

/-- A program may be said to promise less than it does. -/
theorem Sat.weaken (h : p.Sat exec T Q s) (hQ : ∀ a s', Q a s' → Q' a s') :
    p.Sat exec T Q' s := by
  induction p generalizing s with
  | done a =>
    intro t hLater
    exact hQ a t (h t hLater)
  | call c next ih =>
    intro t hLater hPre
    obtain ⟨hStep, hNext⟩ := h t hLater hPre
    exact ⟨hStep, ih _ hNext⟩

/-- What interference and the program's own steps both keep holds at the end. -/
theorem Sat.frame {F : σ → Prop} (h : p.Sat exec T Q s) (hF : F s)
    (hRely : ∀ s s', F s → T.rely s s' → F s')
    (hGuarantee : ∀ s s', F s → T.guarantee s s' → F s') :
    p.Sat exec T (fun a s' => Q a s' ∧ F s') s := by
  induction p generalizing s with
  | done a =>
    intro t hLater
    exact ⟨h t hLater, hRely s t hF hLater⟩
  | call c next ih =>
    intro t hLater hPre
    obtain ⟨hStep, hNext⟩ := h t hLater hPre
    exact ⟨hStep, ih _ hNext (hGuarantee t _ (hRely s t hF hLater) hStep)⟩

/-- **Sequence.** The rest is judged from wherever the first part can end. -/
theorem Sat.bind {Q' : β → σ → Prop} {f : α → Program γ ρ β} (h : p.Sat exec T Q s)
    (hRest : ∀ a s', Q a s' → (f a).Sat exec T Q' s') : (p >>= f).Sat exec T Q' s := by
  induction p generalizing s with
  | done a => exact hRest a s h.result
  | call c next ih =>
    intro t hLater hPre
    obtain ⟨hStep, hNext⟩ := h t hLater hPre
    exact ⟨hStep, ih _ hNext⟩

/-- A promise about a reshaped result. -/
theorem Sat.map {Q : β → σ → Prop} {f : α → β} (h : p.Sat exec T (fun a => Q (f a)) s) :
    Sat exec T Q (p >>= fun a => .done (f a)) s := by
  induction p generalizing s with
  | done a => exact h
  | call c next ih =>
    intro t hLater hPre
    obtain ⟨hStep, hNext⟩ := h t hLater hPre
    exact ⟨hStep, ih _ hNext⟩

/-- A part that may fail: an error ends the whole, a result goes to the rest. -/
theorem Sat.andThen {ε : Type} {Q : Except ε α → σ → Prop} {Q' : Except ε β → σ → Prop}
    {p : ExceptT ε (Program γ ρ) α} {f : α → ExceptT ε (Program γ ρ) β}
    (h : Sat exec T Q p.run s)
    (hOk : ∀ a s', Q (.ok a) s' → Sat exec T Q' (f a).run s')
    (hError : ∀ e s', Q' (.error e) s') : Sat exec T Q' (p >>= f).run s := by
  refine Sat.bind (f := ExceptT.bindCont f) h ?_
  rintro (e | a) s' hQ
  · exact Sat.done fun t _ => hError e t
  · exact hOk a s' hQ

end Program

-- ---------------------------------------------------------------------------
-- Crews
-- ---------------------------------------------------------------------------

/-- Programs over one state, by number, and the results so far, newest first. -/
structure Crew (σ γ : Type) (ρ : γ → Type) (α : Type) where
  state : σ
  tasks : Nat → Option (Program γ ρ α)
  results : List α

/-- What happens to a crew: a program starts, moves on by one call, or is stopped
where it stands. -/
inductive Move (ι : Type)
  | start (id : Nat) (job : ι)
  | advance (id : Nat)
  | stop (id : Nat)

/-- The program a move is about. -/
def Move.id {ι : Type} : Move ι → Nat
  | .start id _ | .advance id | .stop id => id

namespace Crew

variable {σ γ ι : Type} {ρ : γ → Type} {α : Type}

/-- No program has been started. -/
def init (s : σ) : Crew σ γ ρ α := ⟨s, fun _ => none, []⟩

def setTask (w : Crew σ γ ρ α) (id : Nat) (task : Option (Program γ ρ α)) : Crew σ γ ρ α :=
  { w with tasks := Function.update w.tasks id task }

section

variable (exec : σ → (c : γ) → σ × ρ c) (launch : ι → Program γ ρ α)

/-- One call of a program, or its return. -/
def advance (w : Crew σ γ ρ α) (id : Nat) : Program γ ρ α → Crew σ γ ρ α
  | .done a => { w.setTask id none with results := a :: w.results }
  | .call c next =>
    { w.setTask id (some (next (exec w.state c).2)) with state := (exec w.state c).1 }

/-- One move. A number that is taken cannot be started again, one that is free
neither moved nor stopped. -/
def step (w : Crew σ γ ρ α) : Move ι → Option (Crew σ γ ρ α)
  | .start id job => if (w.tasks id).isNone then some (w.setTask id (some (launch job))) else none
  | .advance id => (w.tasks id).map (w.advance exec id)
  | .stop id => if (w.tasks id).isSome then some (w.setTask id none) else none

def machine : Machine (Crew σ γ ρ α) (Move ι) := ⟨step exec launch⟩

end

/-- The programs under way after one of them was replaced. -/
theorem setTask_cases {w : Crew σ γ ρ α} {id i : Nat} {task : Option (Program γ ρ α)}
    {p : Program γ ρ α} (h : (w.setTask id task).tasks i = some p) :
    (i = id ∧ task = some p) ∨ (i ≠ id ∧ w.tasks i = some p) := by
  change Function.update w.tasks id task i = some p at h
  by_cases hId : i = id
  · rw [hId, Function.update_self] at h
    exact Or.inl ⟨hId, h⟩
  · rw [Function.update_of_ne hId] at h
    exact Or.inr ⟨hId, h⟩

variable {exec : σ → (c : γ) → σ × ρ c} {launch : ι → Program γ ρ α} {w₀ w w' : Crew σ γ ρ α}

/-- **Everything a move can do.** -/
theorem step_cases {m : Move ι} (h : step exec launch w m = some w') :
    (∃ id job, m = .start id job ∧ w.tasks id = none ∧ w' = w.setTask id (some (launch job))) ∨
    (∃ id a, m = .advance id ∧ w.tasks id = some (.done a) ∧
      w' = { w.setTask id none with results := a :: w.results }) ∨
    (∃ id c next, m = .advance id ∧ w.tasks id = some (.call c next) ∧
      w' = { w.setTask id (some (next (exec w.state c).2)) with state := (exec w.state c).1 }) ∨
    ∃ id, m = .stop id ∧ w' = w.setTask id none := by
  cases m with
  | start id job =>
    left
    simp only [step, Option.isNone_iff_eq_none, Option.ite_none_right_eq_some,
      Option.some.injEq] at h
    exact ⟨id, job, rfl, h.1, h.2.symm⟩
  | advance id =>
    obtain ⟨p, hTask, rfl⟩ := Option.map_eq_some_iff.mp h
    cases p with
    | done a => exact Or.inr (Or.inl ⟨id, a, rfl, hTask, rfl⟩)
    | call c next => exact Or.inr (Or.inr (Or.inl ⟨id, c, next, rfl, hTask, rfl⟩))
  | stop id =>
    right; right; right
    simp only [step, Option.ite_none_right_eq_some, Option.some.injEq] at h
    exact ⟨id, rfl, h.2.symm⟩

/-- A move changes no program but its own. -/
theorem step_other {m : Move ι} (h : step exec launch w m = some w') {i : Nat} (hNe : i ≠ m.id) :
    w'.tasks i = w.tasks i := by
  obtain ⟨id, job, rfl, -, rfl⟩ | ⟨id, a, rfl, -, rfl⟩ | ⟨id, c, next, rfl, -, rfl⟩ |
    ⟨id, rfl, rfl⟩ := step_cases h
  all_goals exact Function.update_of_ne hNe _ w.tasks

/-- The state meets `Inv` and every program in progress keeps its terms. -/
structure Keeping (exec : σ → (c : γ) → σ × ρ c) (T : Terms σ γ) (Q : α → σ → Prop)
    (Inv : σ → Prop) (w : Crew σ γ ρ α) : Prop where
  state : Inv w.state
  tasks : ∀ id p, w.tasks id = some p → p.Sat exec T Q w.state

section

variable {T : Terms σ γ} {Q : α → σ → Prop} {Inv : σ → Prop}

/-- With no program under way only the state's invariant is asked for. -/
theorem Keeping.init {s : σ} (h : Inv s) : Keeping exec T Q Inv (Crew.init s) where
  state := h
  tasks _ _ hTask := by simp [Crew.init] at hTask

/-- A program that is judged from the current state on may take any place. -/
theorem Keeping.setTask (h : Keeping exec T Q Inv w) {id : Nat} {task : Option (Program γ ρ α)}
    (hTask : ∀ p, task = some p → p.Sat exec T Q w.state) :
    Keeping exec T Q Inv (w.setTask id task) where
  state := h.state
  tasks i p hAt := by
    rcases setTask_cases hAt with ⟨-, hNew⟩ | ⟨-, hOld⟩
    · exact hTask p hNew
    · exact h.tasks i p hOld

/-- A move keeps everybody's judgement: the mover steps as it guarantees, and the
others rely on that. -/
theorem Keeping.step (h : Keeping exec T Q Inv w)
    (hLaunch : ∀ job s, Inv s → (launch job).Sat exec T Q s)
    (hShare : ∀ s s', Inv s → T.guarantee s s' → T.rely s s' ∧ Inv s')
    {m : Move ι} (hPre : ∀ id c next, m = .advance id → w.tasks id = some (.call c next) →
      T.pre w.state c)
    (hStep : Crew.step exec launch w m = some w') : Keeping exec T Q Inv w' := by
  obtain ⟨id, job, rfl, -, rfl⟩ | ⟨id, a, rfl, -, rfl⟩ | ⟨id, c, next, rfl, hTask, rfl⟩ |
    ⟨id, rfl, rfl⟩ := step_cases hStep
  · refine h.setTask ?_
    rintro p ⟨⟩
    exact hLaunch job w.state h.state
  · have hKept : Keeping exec T Q Inv (w.setTask id none) := h.setTask (by simp)
    exact ⟨hKept.state, hKept.tasks⟩
  · obtain ⟨hOwn, hNext⟩ := h.tasks id _ hTask w.state (T.rely_refl _)
      (hPre id c next rfl hTask)
    obtain ⟨hRely, hInv⟩ := hShare _ _ h.state hOwn
    refine ⟨hInv, ?_⟩
    intro i p hAt
    rcases setTask_cases hAt with ⟨-, hNew⟩ | ⟨-, hOld⟩
    · obtain rfl := Option.some.inj hNew
      exact hNext
    · exact (h.tasks i p hOld).rely hRely
  · exact h.setTask (by simp)

/-- **Rely and guarantee.** Programs that each keep their terms, and rely on no
more than the others guarantee, keep the invariant in every run. -/
theorem Reach.sat {P : Crew σ γ ρ α → Move ι → Prop}
    (hReach : (machine exec launch).Reach P w₀ w) (hInit : Keeping exec T Q Inv w₀)
    (hLaunch : ∀ job s, Inv s → (launch job).Sat exec T Q s)
    (hShare : ∀ s s', Inv s → T.guarantee s s' → T.rely s s' ∧ Inv s')
    (hPre : ∀ (w : Crew σ γ ρ α) (id : Nat) (c : γ) (next : ρ c → Program γ ρ α),
      P w (.advance id) → w.tasks id = some (.call c next) → T.pre w.state c) :
    Keeping exec T Q Inv w := by
  refine hReach.invariant hInit ?_
  intro v m v' hKept hMet hStep
  refine hKept.step hLaunch hShare ?_ hStep
  rintro id c next rfl hTask
  exact hPre v id c next hMet hTask

end

end Crew

end Sovra.Lib
