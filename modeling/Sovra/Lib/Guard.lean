import Mathlib

/-!
# Sovra — early returns

A function that returns at its first failing check is a sequence in `Except`.
The lemmas say when such a sequence succeeds and when it fails, so that no
proof unfolds the monad. `Avoids` is that it does not fail in one particular way.
-/

namespace Sovra.Lib

variable {ε ε' α β : Type}

/-- `if !c { return Err(e) }`. -/
def ensure (c : Prop) [Decidable c] (e : ε) : Except ε Unit :=
  if c then .ok () else .error e

/-- A guard passes exactly where its condition holds. -/
@[simp] theorem ensure_eq_ok {c : Prop} [Decidable c] {e : ε} {u : Unit} :
    ensure c e = .ok u ↔ c := by
  unfold ensure
  split <;> simp [*]

/-- A guard that fails fails with its own error. -/
@[simp] theorem ensure_eq_error {c : Prop} [Decidable c] {e e' : ε} :
    ensure c e = .error e' ↔ ¬ c ∧ e = e' := by
  unfold ensure
  split <;> simp [*]

/-- A sequence succeeds where both parts do: what `simp` takes a `do` block apart
with. -/
@[simp] theorem bind_eq_ok {x : Except ε α} {f : α → Except ε β} {b : β} :
    (x >>= f) = .ok b ↔ ∃ a, x = .ok a ∧ f a = .ok b := by
  constructor
  · intro h
    match x, h with
    | .ok a, h => exact ⟨a, rfl, h⟩
  · rintro ⟨a, rfl, h⟩
    exact h

/-- A sequence fails in its first part or, after that, in its second. -/
@[simp] theorem bind_eq_error {x : Except ε α} {f : α → Except ε β} {e : ε} :
    (x >>= f) = .error e ↔ x = .error e ∨ ∃ a, x = .ok a ∧ f a = .error e := by
  constructor
  · intro h
    match x, h with
    | .error e', h => exact Or.inl (congrArg Except.error (Except.error.inj h))
    | .ok a, h => exact Or.inr ⟨a, rfl, h⟩
  · rintro (rfl | ⟨a, rfl, h⟩)
    · rfl
    · exact h

@[simp] theorem pure_eq_ok {a b : α} : (pure a : Except ε α) = .ok b ↔ a = b :=
  ⟨Except.ok.inj, congrArg Except.ok⟩

@[simp] theorem pure_ne_error {a : α} {e : ε} : (pure a : Except ε α) ≠ .error e :=
  fun h => nomatch h

/-- Renaming errors makes nothing succeed. -/
@[simp] theorem mapError_eq_ok {x : Except ε α} {f : ε → ε'} {a : α} :
    x.mapError f = .ok a ↔ x = .ok a := by
  rcases x with e | a' <;> simp only [Except.mapError, Except.ok.injEq, reduceCtorEq]

/-- A renamed error comes from the error it renames. -/
@[simp] theorem mapError_eq_error {x : Except ε α} {f : ε → ε'} {e : ε'} :
    x.mapError f = .error e ↔ ∃ e', x = .error e' ∧ f e' = e := by
  rcases x with e' | a <;> simp [Except.mapError]

@[simp] theorem map_eq_ok {x : Except ε α} {f : α → β} {b : β} :
    (f <$> x) = .ok b ↔ ∃ a, x = .ok a ∧ f a = b := by
  rcases x with e | a <;> simp [Functor.map, Except.map]

/-- A loop that returns at its first failure: if it succeeds it has a result for
every element. -/
theorem mapM_mem {f : α → Except ε β} {l : List α} {out : List β} (h : l.mapM f = .ok out)
    {a : α} (ha : a ∈ l) : ∃ b ∈ out, f a = .ok b := by
  induction l generalizing out with
  | nil => simp at ha
  | cons x l ih =>
    simp only [List.mapM_cons, bind_eq_ok, pure_eq_ok] at h
    obtain ⟨b, hb, bs, hbs, rfl⟩ := h
    rcases List.mem_cons.mp ha with rfl | hTail
    · exact ⟨b, List.mem_cons_self, hb⟩
    · obtain ⟨c, hc, hEq⟩ := ih hbs hTail
      exact ⟨c, List.mem_cons_of_mem b hc, hEq⟩

/-- All a loop yields comes from some element. -/
theorem mapM_origin {f : α → Except ε β} {l : List α} {out : List β} (h : l.mapM f = .ok out)
    {b : β} (hb : b ∈ out) : ∃ a ∈ l, f a = .ok b := by
  induction l generalizing out with
  | nil =>
    rw [List.mapM_nil, pure_eq_ok] at h
    rw [← h] at hb
    simp at hb
  | cons x l ih =>
    simp only [List.mapM_cons, bind_eq_ok, pure_eq_ok] at h
    obtain ⟨c, hc, cs, hcs, rfl⟩ := h
    rcases List.mem_cons.mp hb with rfl | hTail
    · exact ⟨x, List.mem_cons_self, hc⟩
    · obtain ⟨a, ha, hEq⟩ := ih hcs hTail
      exact ⟨a, List.mem_cons_of_mem x ha, hEq⟩

/-- A loop none of whose steps fails. -/
theorem mapM_ok {f : α → Except ε β} {g : α → β} {l : List α} (h : ∀ a ∈ l, f a = .ok (g a)) :
    l.mapM f = .ok (l.map g) := by
  induction l with
  | nil => rfl
  | cons a l ih =>
    rw [List.mapM_cons, h a List.mem_cons_self, ih fun b hb => h b (List.mem_cons_of_mem a hb)]
    rfl

/-- A fold none of whose steps fails is the fold of their results. -/
theorem foldlM_ok {σ : Type} {f : σ → α → Except ε σ} {g : σ → α → σ} {l : List α}
    (h : ∀ s, ∀ a ∈ l, f s a = .ok (g s a)) (s : σ) : l.foldlM f s = .ok (l.foldl g s) := by
  induction l generalizing s with
  | nil => rfl
  | cons a l ih =>
    rw [List.foldlM_cons, h s a List.mem_cons_self]
    exact ih (fun s b hb => h s b (List.mem_cons_of_mem a hb)) (g s a)

/-- Every element of the input has a result. -/
theorem mapM_length {f : α → Except ε β} {l : List α} {out : List β} (h : l.mapM f = .ok out) :
    out.length = l.length := by
  induction l generalizing out with
  | nil =>
    rw [List.mapM_nil, pure_eq_ok] at h
    rw [← h]
    rfl
  | cons x l ih =>
    simp only [List.mapM_cons, bind_eq_ok, pure_eq_ok] at h
    obtain ⟨b, -, bs, hbs, rfl⟩ := h
    rw [List.length_cons, List.length_cons, ih hbs]

-- ---------------------------------------------------------------------------
-- An error that does not happen
-- ---------------------------------------------------------------------------

/-- Whatever becomes of `x`, it is not `e`. -/
def Avoids (e : ε) (x : Except ε α) : Prop := x ≠ .error e

section

variable {e : ε}

/-- A success is no error. -/
theorem avoids_ok {a : α} : Avoids e (.ok a : Except ε α) := by
  intro h
  cases h

/-- A sequence avoids an error that both its parts avoid. -/
theorem Avoids.bind {x : Except ε α} {f : α → Except ε β} (hx : Avoids e x)
    (hf : ∀ a, x = .ok a → Avoids e (f a)) : Avoids e (x >>= f) := by
  intro h
  rcases bind_eq_error.mp h with hFirst | ⟨a, hOk, hThen⟩
  · exact hx hFirst
  · exact hf a hOk hThen

/-- A guard avoids every error but its own. -/
theorem avoids_ensure {c : Prop} [Decidable c] {e' : ε} (h : e' ≠ e) :
    Avoids e (ensure c e') := by
  intro hError
  exact h (ensure_eq_error.mp hError).2

/-- A renaming that never yields the error avoids it. -/
theorem avoids_mapError {x : Except ε' α} {f : ε' → ε} (h : ∀ e', f e' ≠ e) :
    Avoids e (x.mapError f) := by
  intro hError
  obtain ⟨e', -, hEq⟩ := mapError_eq_error.mp hError
  exact h e' hEq

/-- A loop avoids what all its steps avoid. -/
theorem avoids_mapM {f : α → Except ε β} {l : List α} (h : ∀ a ∈ l, Avoids e (f a)) :
    Avoids e (l.mapM f) := by
  induction l with
  | nil => exact avoids_ok
  | cons a l ih =>
    rw [List.mapM_cons]
    refine (h a List.mem_cons_self).bind fun b _ => ?_
    refine (ih fun c hc => h c (List.mem_cons_of_mem a hc)).bind fun bs _ => ?_
    exact avoids_ok

/-- A fold avoids an error that every step avoids. -/
theorem avoids_foldlM {σ : Type} {f : σ → α → Except ε σ} {l : List α}
    (h : ∀ s, ∀ a ∈ l, Avoids e (f s a)) (s : σ) : Avoids e (l.foldlM f s) := by
  induction l generalizing s with
  | nil => exact avoids_ok
  | cons a l ih =>
    rw [List.foldlM_cons]
    refine (h s a List.mem_cons_self).bind fun s' _ => ?_
    exact ih (fun s b hb => h s b (List.mem_cons_of_mem a hb)) s'

end

end Sovra.Lib
