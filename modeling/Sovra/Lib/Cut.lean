import Sovra.Lib.Files

/-!
# Sovra — programs that are cut off

A program by itself, on a state nobody else changes. `Program.eval` runs it to its
end; `Program.cut` lets it make so many calls, after which whatever runs it is
gone. `Always` is what holds however soon that is.

* `eval_eq_cut`                           — a program that makes all its calls ends.
* `eval_bind`, `eval_andThen_ok`, …       — a result is computed part by part.
* `Always.call`, `Always.bind`, `Always.andThen` — `Always` is judged part by part.
* `Always.perform`                        — and file-system step by step.
-/

namespace Sovra.Lib

/-- The result of a part, an error included. -/
def Files.attempt {δ β ε ε' α : Type} (p : Files δ β ε α) : Files δ β ε' (Except ε α) :=
  ExceptT.mk (p.run >>= fun r => .done (.ok r))

namespace Program

variable {σ γ : Type} {ρ : γ → Type} {α β ε : Type}

section

variable (exec : σ → (c : γ) → σ × ρ c)

/-- The state and the result when nothing stops the program. -/
def eval : Program γ ρ α → σ → σ × α
  | .done a, s => (s, a)
  | .call c next, s => (next (exec s c).2).eval (exec s c).1

/-- The state after at most `n` calls, and the result if there are no more. -/
def cut : Nat → Program γ ρ α → σ → σ × Option α
  | _, .done a, s => (s, some a)
  | 0, .call _ _, s => (s, none)
  | n + 1, .call c next, s => cut n (next (exec s c).2) (exec s c).1

/-- However soon the program is cut off, `Q` holds of the state and the result. -/
def Always (Q : σ → Option α → Prop) (p : Program γ ρ α) (s : σ) : Prop :=
  ∀ n, Q (p.cut exec n s).1 (p.cut exec n s).2

end

variable {exec : σ → (c : γ) → σ × ρ c} {s : σ}

/-- Enough calls run a program to its end. -/
theorem eval_eq_cut (exec : σ → (c : γ) → σ × ρ c) (p : Program γ ρ α) (s : σ) :
    ∃ n, p.cut exec n s = ((p.eval exec s).1, some (p.eval exec s).2) := by
  induction p generalizing s with
  | done a => exact ⟨0, rfl⟩
  | call c next ih =>
    obtain ⟨n, hCut⟩ := ih (exec s c).2 (exec s c).1
    exact ⟨n + 1, hCut⟩

/-- A sequence runs its first part, then the second where that ended. -/
theorem eval_bind (p : Program γ ρ α) (f : α → Program γ ρ β) (s : σ) :
    (p >>= f).eval exec s = (f (p.eval exec s).2).eval exec (p.eval exec s).1 := by
  induction p generalizing s with
  | done a => rfl
  | call c next ih => exact ih (exec s c).2 (exec s c).1

/-- After a part that succeeds the next one runs. -/
theorem eval_andThen_ok {p : ExceptT ε (Program γ ρ) α} {f : α → ExceptT ε (Program γ ρ) β}
    {t : σ} {a : α} (h : p.run.eval exec s = (t, .ok a)) :
    (p >>= f).run.eval exec s = (f a).run.eval exec t := by
  show (p.run >>= ExceptT.bindCont f).eval exec s = _
  rw [eval_bind, h]
  rfl

/-- After a part that fails nothing does. -/
theorem eval_andThen_error {p : ExceptT ε (Program γ ρ) α} {f : α → ExceptT ε (Program γ ρ) β}
    {t : σ} {e : ε} (h : p.run.eval exec s = (t, .error e)) :
    (p >>= f).run.eval exec s = (t, .error e) := by
  show (p.run >>= ExceptT.bindCont f).eval exec s = _
  rw [eval_bind, h]
  rfl

/-- What always holds holds at the end. -/
theorem Always.eval {Q : σ → Option α → Prop} {p : Program γ ρ α} (h : p.Always exec Q s) :
    Q (p.eval exec s).1 (some (p.eval exec s).2) := by
  obtain ⟨n, hCut⟩ := eval_eq_cut exec p s
  have hAt := h n
  rwa [hCut] at hAt

/-- A weaker property holds at least as long. -/
theorem Always.weaken {Q Q' : σ → Option α → Prop} {p : Program γ ρ α} (h : p.Always exec Q s)
    (hQ : ∀ s' r, Q s' r → Q' s' r) : p.Always exec Q' s :=
  fun n => hQ _ _ (h n)

/-- A program without calls is only ever at its end. -/
theorem Always.done {Q : σ → Option α → Prop} {a : α} (h : Q s (some a)) :
    (Program.done a : Program γ ρ α).Always exec Q s := by
  intro n
  cases n <;> exact h

/-- Before the call and ever after it. -/
theorem Always.call {Q : σ → Option α → Prop} {c : γ} {next : ρ c → Program γ ρ α} (hNow : Q s none)
    (hNext : (next (exec s c).2).Always exec Q (exec s c).1) :
    (Program.call c next).Always exec Q s := by
  intro n
  cases n with
  | zero => exact hNow
  | succ n => exact hNext n

/-- What is to hold of a part, if `Q` is to hold of the whole. -/
def Part (exec : σ → (c : γ) → σ × ρ c) (Q : σ → Option β → Prop) (f : α → Program γ ρ β) (s : σ) :
    Option α → Prop
  | none => Q s none
  | some a => (f a).Always exec Q s

/-- **Sequence.** -/
theorem Always.bind {Q : σ → Option β → Prop} {p : Program γ ρ α} {f : α → Program γ ρ β}
    (h : p.Always exec (Part exec Q f) s) : (p >>= f).Always exec Q s := by
  induction p generalizing s with
  | done a => exact h 0
  | call c next ih => exact Always.call (h 0) (ih (exec s c).2 fun n => h (n + 1))

/-- The same where the part may fail: an error is the whole's. -/
def PartOrError (exec : σ → (c : γ) → σ × ρ c) (Q : σ → Option (Except ε β) → Prop)
    (f : α → ExceptT ε (Program γ ρ) β) (s : σ) : Option (Except ε α) → Prop
  | none => Q s none
  | some (.error e) => Q s (some (.error e))
  | some (.ok a) => Always exec Q (f a).run s

/-- Part by part, where an error of the first part is the end. -/
theorem Always.andThen {Q : σ → Option (Except ε β) → Prop} {p : ExceptT ε (Program γ ρ) α}
    {f : α → ExceptT ε (Program γ ρ) β} (h : Always exec (PartOrError exec Q f) p.run s) :
    Always exec Q (p >>= f).run s := by
  refine Always.bind (f := ExceptT.bindCont f) (h.weaken ?_)
  rintro s' (_ | e | a) hPart
  · exact hPart
  · exact Always.done hPart
  · exact hPart

/-- Renaming errors changes nothing else. -/
theorem Always.adapt {ε' : Type} {Q : σ → Option (Except ε' α) → Prop} {f : ε → ε'}
    {p : ExceptT ε (Program γ ρ) α}
    (h : Always exec (fun s' r => Q s' (r.map (Except.mapError f))) p.run s) :
    Always exec Q (ExceptT.adapt f p).run s := by
  refine Always.bind (f := fun r => .done (r.mapError f)) (h.weaken ?_)
  rintro s' (_ | r) hPart
  · exact hPart
  · exact Always.done hPart

-- ---------------------------------------------------------------------------
-- Files
-- ---------------------------------------------------------------------------

section

variable {δ : Type} [DecidableEq δ] {disk : Disk δ β}

theorem eval_read {path : FilePath δ} {f : IoError → ε} :
    (Files.read path f).run.eval Disk.exec disk = (disk, (disk.readFile path).mapError f) := rfl

theorem eval_liftExcept {result : Except ε α} :
    (Files.liftExcept result : Files δ β ε α).run.eval Disk.exec disk = (disk, result) := rfl

/-- A `match` on how a part ends, for what goes on after an error. -/
theorem eval_attempt {p : Files δ β ε α} {ε' : Type} :
    (Files.attempt p : Files δ β ε' (Except ε α)).run.eval Disk.exec disk =
      ((p.run.eval Disk.exec disk).1, .ok (p.run.eval Disk.exec disk).2) := by
  unfold Files.attempt
  rw [ExceptT.run_mk, eval_bind]
  rfl

/-- One step that changes the disk, unless it fails. -/
theorem Always.perform {Q : Disk δ β → Option (Except ε Unit) → Prop} {step : FileStep δ β}
    {f : IoError → ε} (hNow : Q disk none) (hError : ∀ e, Q disk (some (.error (f e))))
    (hStep : ∀ disk', disk.apply step = .ok disk' → Q disk' (some (.ok ()))) :
    Always Disk.exec Q (Files.perform step f).run disk := by
  refine Always.call hNow ?_
  rcases hApply : disk.apply step with e | disk'
  · rw [Disk.exec_perform_error hApply]
    exact Always.done (hError e)
  · rw [Disk.exec_perform hApply]
    exact Always.done (hStep disk' hApply)

/-- A computation without calls cannot be cut off. -/
theorem Always.liftExcept {Q : Disk δ β → Option (Except ε α) → Prop} {result : Except ε α}
    (h : Q disk (some result)) :
    Always Disk.exec Q (Files.liftExcept result : Files δ β ε α).run disk :=
  Always.done h

end

end Program

end Sovra.Lib
