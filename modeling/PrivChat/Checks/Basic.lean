import Mathlib.Tactic.Common

/-!
Checks one after the other, of which the first that fails gives the error.
-/

namespace PrivChat.Checks

variable {ε ε' α β : Type}

def check (b : Bool) (e : ε) : Except ε Unit := if b then .ok () else .error e

def found (e : ε) : Option α → Except ε α
  | some a => .ok a
  | none => .error e

@[simp] lemma check_ok {b : Bool} {e : ε} {a : Unit} : check b e = .ok a ↔ b = true := by
  cases b <;> simp [check]

@[simp] lemma found_ok {e : ε} {x : Option α} {a : α} : found e x = .ok a ↔ x = some a := by
  cases x <;> simp [found]

@[simp] lemma mapError_ok {x : Except ε α} {f : ε → ε'} {a : α} :
    x.mapError f = .ok a ↔ x = .ok a := by
  cases x <;> simp [Except.mapError]

lemma bind_eq_ok {x : Except ε α} {f : α → Except ε β} {b : β} :
    x >>= f = .ok b ↔ ∃ a, x = .ok a ∧ f a = .ok b := by
  cases x <;> simp [bind, Except.bind]

end PrivChat.Checks
