import Sovra.Lib.Guard
import Sovra.Mpc.Exchange

/-!
# Sovra — a party's half of a ceremony

What an adapter does on one `Exchange`: local work, library calls and rounds. A
`Script` is that control flow as data, so that the same text is run by a party
on the network and by the in-memory routing it is compared with. A library call
leaves a mark with its arguments; a round offers an outbox and goes on with the
inbox. `Halt.panic` is an index out of range or an `expect` that fails.

* `Yields`, `Ends` — what a script can end with, whatever the network delivers, and
  a condition on all of that.
* `Ends.bind`, `Ends.skip` — its rules for a sequence.
-/

namespace Sovra.Mpc

/-- Local work ends in `done` or `halt`; in between stand library calls and rounds. -/
inductive Script (κ α : Type)
  | done (a : α)
  | halt (h : Halt)
  | call (c : κ) (next : Script κ α)
  | round (r : UInt8) (outbox : RoundOutbox) (expect : Expect) (next : RoundInbox → Script κ α)

namespace Script

variable {κ α β γ : Type}

/-- `?` and `.await` on what comes after. -/
def bind : Script κ α → (α → Script κ β) → Script κ β
  | .done a, f => f a
  | .halt h, _ => .halt h
  | .call c next, f => .call c (next.bind f)
  | .round r outbox expect next, f => .round r outbox expect fun inbox => (next inbox).bind f

instance : Monad (Script κ) where
  pure := .done
  bind := bind

/-- Nothing comes after. -/
theorem bind_done (s : Script κ α) : s.bind .done = s := by
  induction s with
  | done a => rfl
  | halt h => rfl
  | call c next ih => rw [bind, ih]
  | round r outbox expect next ih =>
    rw [bind]
    congr 1
    exact funext ih

/-- Sequences nest either way. -/
theorem bind_assoc (s : Script κ α) (f : α → Script κ β) (g : β → Script κ γ) :
    (s.bind f).bind g = s.bind fun a => (f a).bind g := by
  induction s with
  | done a => rfl
  | halt h => rfl
  | call c next ih => rw [bind, bind, bind, ih]
  | round r outbox expect next ih =>
    rw [bind, bind, bind]
    congr 1
    exact funext ih

instance : LawfulMonad (Script κ) :=
  LawfulMonad.mk' (Script κ) bind_done (fun _ _ => rfl) bind_assoc

/-- A step that may return early. -/
def ofExcept : Except Halt α → Script κ α
  | .ok a => .done a
  | .error h => .halt h

/-- `?` on an `MpcError`. -/
def attempt (e : Except MpcError α) : Script κ α := ofExcept (e.mapError .error)

/-- A library call is about to be made. -/
def mark (c : κ) : Script κ Unit := .call c (.done ())

/-- `send_round`, then `recv_round`. -/
def exchange (r : UInt8) (outbox : RoundOutbox) (expect : Expect) : Script κ RoundInbox :=
  .round r outbox expect .done

-- ---------------------------------------------------------------------------
-- What a script can end with
-- ---------------------------------------------------------------------------

/-- The script ends with `a` on some inboxes, whatever they hold. -/
inductive Yields : Script κ α → α → Prop
  | done {a : α} : Yields (.done a) a
  | call {c next a} (h : Yields next a) : Yields (.call c next) a
  | round {r outbox expect next a} (inbox : RoundInbox) (h : Yields (next inbox) a) :
      Yields (.round r outbox expect next) a

/-- What the script ends with on these inboxes, one for each round. -/
def feed : Script κ α → List RoundInbox → Option α
  | .done a, _ => some a
  | .halt _, _ => none
  | .call _ next, inboxes => next.feed inboxes
  | .round _ _ _ _, [] => none
  | .round _ _ _ next, inbox :: inboxes => (next inbox).feed inboxes

/-- A script that ends on given inboxes ends on some. -/
theorem yields_of_feed {s : Script κ α} {inboxes : List RoundInbox} {a : α}
    (h : s.feed inboxes = some a) : s.Yields a := by
  induction s generalizing inboxes with
  | done b =>
    obtain rfl := Option.some.inj h
    exact .done
  | halt hHalt => simp [feed] at h
  | call c next ih => exact .call (ih h)
  | round r outbox expect next ih =>
    rcases inboxes with _ | ⟨inbox, inboxes⟩
    · simp [feed] at h
    · exact .round inbox (ih inbox h)

/-- Past a sequence, both halves have ended. -/
theorem Yields.of_bind {s : Script κ α} {f : α → Script κ β} {b : β} (h : (s >>= f).Yields b) :
    ∃ a, s.Yields a ∧ (f a).Yields b := by
  change (s.bind f).Yields b at h
  -- on the first half
  induction s with
  | done a => exact ⟨a, .done, h⟩
  | halt hHalt => cases h
  | call c next ih =>
    cases h with
    | call h =>
      obtain ⟨a, hNext, hRest⟩ := ih h
      exact ⟨a, .call hNext, hRest⟩
  | round r outbox expect next ih =>
    cases h with
    | round inbox h =>
      obtain ⟨a, hNext, hRest⟩ := ih inbox h
      exact ⟨a, .round inbox hNext, hRest⟩

/-- A step that may return early did not, where the script ends. -/
theorem Yields.of_ofExcept {e : Except Halt α} {a : α}
    (h : (ofExcept e : Script κ α).Yields a) : e = .ok a := by
  rcases e with halt | b
  · cases h
  · cases h
    rfl

/-- Nor did one that may fail. -/
theorem Yields.of_attempt {e : Except MpcError α} {a : α}
    (h : (attempt e : Script κ α).Yields a) : e = .ok a :=
  Lib.mapError_eq_ok.mp h.of_ofExcept

/-- Whatever the script ends with meets `P`. -/
def Ends (s : Script κ α) (P : α → Prop) : Prop := ∀ a, s.Yields a → P a

variable {s : Script κ α} {f : α → Script κ β} {P : β → Prop}

/-- A script that just returns. -/
theorem Ends.done {b : β} (h : P b) : (pure b : Script κ β).Ends P := by
  intro a hYields
  cases hYields
  exact h

/-- **Sequence.** What the first half ended with is known to the second. -/
theorem Ends.bind (h : ∀ a, s.Yields a → (f a).Ends P) : (s >>= f).Ends P := by
  intro b hYields
  obtain ⟨a, hFirst, hRest⟩ := hYields.of_bind
  exact h a hFirst b hRest

/-- The same where the first half does not matter. -/
theorem Ends.skip (h : ∀ a, (f a).Ends P) : (s >>= f).Ends P := Ends.bind fun a _ => h a

end Script

end Sovra.Mpc
