import Mathlib.Tactic.Common

/-!
Runs of a step function, and what they keep under a condition on each step.
-/

namespace PrivChat.Runs

variable {σ ε : Type} (step : σ → ε → σ) (P : σ → ε → Prop)

/-- Each step meets the condition in the state before it. -/
def Given : σ → List ε → Prop
  | _, [] => True
  | s, e :: es => P s e ∧ Given (step s e) es

instance decidableGiven [∀ s e, Decidable (P s e)] : ∀ s es, Decidable (Given step P s es)
  | _, [] => .isTrue trivial
  | s, e :: es =>
    have := decidableGiven (step s e) es
    inferInstanceAs (Decidable (P s e ∧ Given step P (step s e) es))

variable {step P}

/-- **A run keeps what its steps keep.** -/
theorem Given.keeps {I : σ → Prop} (hI : ∀ s e, P s e → I s → I (step s e)) {s : σ} {es : List ε}
    (h : Given step P s es) (hs : I s) : I (es.foldl step s) := by
  induction es generalizing s with
  | nil => exact hs
  | cons e es ih => exact ih h.2 (hI s e h.1 hs)

end PrivChat.Runs
