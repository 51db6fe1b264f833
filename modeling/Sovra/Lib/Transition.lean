import Mathlib

/-!
# Sovra — computed transition systems

A `Machine` steps by a function: an action either is disabled (`none`) or
yields the next state. `Reach P` is reachability by runs **each of whose steps
meets** `P`, a condition on the state before the step and the action taken;
unconditional reachability is `Reach fun _ _ => True`.

Results:

* `Machine.Reach.invariant` — what one step preserves, every run preserves.
* `Machine.reach_of_run`    — a list of actions that executes is a run.
* `Machine.reach_of_runIf`  — one whose steps pass a check is a run under a condition.
-/

namespace Sovra.Lib

/-- A labelled transition system whose steps are computed. -/
structure Machine (σ α : Type) where
  step : σ → α → Option σ

namespace Machine

variable {σ α : Type} {m : Machine σ α} {P : σ → α → Prop}

/-- Execute a list of actions, failing at the first disabled one. -/
def run (m : Machine σ α) : σ → List α → Option σ
  | s, [] => some s
  | s, a :: as => (m.step s a).bind fun s' => m.run s' as

/-- Some action that meets `P` leads from `s` to `s'`. -/
def StepIn (m : Machine σ α) (P : σ → α → Prop) (s s' : σ) : Prop :=
  ∃ a, P s a ∧ m.step s a = some s'

/-- Reachability by runs each of whose steps meets `P`. -/
def Reach (m : Machine σ α) (P : σ → α → Prop) : σ → σ → Prop :=
  Relation.ReflTransGen (m.StepIn P)

theorem Reach.refl (s : σ) : m.Reach P s s := Relation.ReflTransGen.refl

/-- A run goes on by one more step that meets the condition. -/
theorem Reach.step {s₀ s s' : σ} {a : α} (h : m.Reach P s₀ s) (hP : P s a)
    (hs : m.step s a = some s') : m.Reach P s₀ s' :=
  Relation.ReflTransGen.tail h ⟨a, hP, hs⟩

/-- **Invariant rule.** What holds at the start and is preserved by every step
that meets `P` holds in every state the constrained runs reach. -/
@[elab_as_elim] theorem Reach.invariant {Inv : σ → Prop} {s₀ s : σ} (h : m.Reach P s₀ s)
    (hInit : Inv s₀)
    (hStep : ∀ s a s', Inv s → P s a → m.step s a = some s' → Inv s') :
    Inv s := by
  induction h with
  | refl => exact hInit
  | tail _ hst ih =>
    obtain ⟨a, hP, hs⟩ := hst
    exact hStep _ a _ ih hP hs

/-- A list of actions that executes is an unconstrained run. -/
theorem reach_of_run {as : List α} {s s' : σ} (h : m.run s as = some s') :
    m.Reach (fun _ _ => True) s s' := by
  induction as generalizing s with
  | nil =>
    rw [run, Option.some.injEq] at h
    exact h ▸ Reach.refl s
  | cons a as ih =>
    rw [run, Option.bind_eq_some_iff] at h
    obtain ⟨s₁, hs₁, hrest⟩ := h
    exact Relation.ReflTransGen.head ⟨a, trivial, hs₁⟩ (ih hrest)

/-- Execute a list of actions, failing at the first that is disabled or does not
pass `check`. -/
def runIf (m : Machine σ α) (check : σ → α → Bool) : σ → List α → Option σ
  | s, [] => some s
  | s, a :: as => if check s a then (m.step s a).bind fun s' => m.runIf check s' as else none

/-- A list of actions that executes under a check is a run under whatever the check
decides. -/
theorem reach_of_runIf {check : σ → α → Bool} (hCheck : ∀ s a, check s a = true → P s a)
    {as : List α} {s s' : σ} (h : m.runIf check s as = some s') : m.Reach P s s' := by
  induction as generalizing s with
  | nil =>
    rw [runIf, Option.some.injEq] at h
    exact h ▸ Reach.refl s
  | cons a as ih =>
    rw [runIf] at h
    split at h
    · rename_i hPass
      obtain ⟨s₁, hs₁, hrest⟩ := Option.bind_eq_some_iff.mp h
      exact Relation.ReflTransGen.head ⟨a, hCheck s a hPass, hs₁⟩ (ih hrest)
    · simp at h

end Machine

end Sovra.Lib
