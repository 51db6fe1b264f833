import Sovra.Lib.Transition

/-!
# Sovra — one machine inside another

A `Refines` relation lets every step of a concrete machine be followed by the
abstract one, in any number of its own steps. Concrete steps may be conditional
(`P`), so may the abstract ones that follow (`Q`).

Results:

* `Machine.Reach.trans`     — runs compose.
* `Machine.Reach.follows`   — a concrete run is followed by an abstract one.
-/

namespace Sovra.Lib

namespace Machine

variable {σ τ α β : Type} {m : Machine σ α} {m' : Machine τ β} {P : σ → α → Prop}
  {Q : τ → β → Prop}

theorem Reach.trans {s₀ s₁ s₂ : σ} (h : m.Reach P s₀ s₁) (h' : m.Reach P s₁ s₂) :
    m.Reach P s₀ s₂ :=
  Relation.ReflTransGen.trans h h'

/-- From related states, whatever the concrete machine does the abstract one can
follow, and the states stay related. -/
def Refines (m : Machine σ α) (P : σ → α → Prop) (m' : Machine τ β) (Q : τ → β → Prop)
    (R : σ → τ → Prop) : Prop :=
  ∀ s t a s', R s t → P s a → m.step s a = some s' → ∃ t', m'.Reach Q t t' ∧ R s' t'

/-- **Forward simulation.** -/
theorem Reach.follows {R : σ → τ → Prop} (hRefines : m.Refines P m' Q R) {s₀ s : σ} {t₀ : τ}
    (hInit : R s₀ t₀) (h : m.Reach P s₀ s) : ∃ t, m'.Reach Q t₀ t ∧ R s t := by
  induction h with
  | refl => exact ⟨t₀, Reach.refl t₀, hInit⟩
  | tail _ hst ih =>
    obtain ⟨a, hMeets, hStep⟩ := hst
    obtain ⟨t, hReach, hRel⟩ := ih
    obtain ⟨t', hFollow, hRel'⟩ := hRefines _ t a _ hRel hMeets hStep
    exact ⟨t', hReach.trans hFollow, hRel'⟩

end Machine

end Sovra.Lib
