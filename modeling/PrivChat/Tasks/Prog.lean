import Mathlib.Logic.Function.Basic
import Mathlib.Tactic.Common

/-!
Code that calls operations, one at a time, and tasks that run such code at the same time.

An operation is atomic: it reads and changes the state that all tasks share, and answers. Between
two operations of one task any number of operations of others may run. What the outside world
adds to an operation (that it fails, that the answer is lost) is part of the event.
-/

namespace PrivChat.Tasks

/-- Code that calls operations `Op`, of which each answers with its own type, and that ends
with a result or an error. -/
inductive Prog (Op : Type) (Res : Op → Type) (ε α : Type) : Type
  | ret (a : α)
  | fail (e : ε)
  | call (op : Op) (k : Res op → Prog Op Res ε α)

namespace Prog

variable {Op : Type} {Res : Op → Type} {ε α β γ : Type}

protected def bind : Prog Op Res ε α → (α → Prog Op Res ε β) → Prog Op Res ε β
  | ret a, g => g a
  | fail e, _ => fail e
  | call op k, g => call op fun r => (k r).bind g

instance : Monad (Prog Op Res ε) where
  pure := ret
  bind := Prog.bind

protected lemma bind_assoc (t : Prog Op Res ε α) (f : α → Prog Op Res ε β)
    (g : β → Prog Op Res ε γ) : (t >>= f) >>= g = t >>= fun a => f a >>= g := by
  induction t with
  | ret a => rfl
  | fail e => rfl
  | call op k ih => exact congrArg (call op) (funext ih)

protected lemma bind_ret (t : Prog Op Res ε α) : t >>= ret = t := by
  induction t with
  | ret a => rfl
  | fail e => rfl
  | call op k ih => exact congrArg (call op) (funext ih)

instance : LawfulMonad (Prog Op Res ε) :=
  LawfulMonad.mk' _ Prog.bind_ret (fun _ _ => rfl) Prog.bind_assoc

/-- An error of the code becomes its result. -/
def attempt : Prog Op Res ε α → Prog Op Res ε (Except ε α)
  | ret a => ret (.ok a)
  | fail e => ret (.error e)
  | call op k => call op fun r => (k r).attempt

/-- Another error in the place of one. -/
def mapErr (f : ε → ε) : Prog Op Res ε α → Prog Op Res ε α
  | ret a => ret a
  | fail e => fail (f e)
  | call op k => call op fun r => (k r).mapErr f

lemma mapErr_bind (f : ε → ε) (t : Prog Op Res ε α) (g : α → Prog Op Res ε β) :
    (t >>= g).mapErr f = t.mapErr f >>= fun a => (g a).mapErr f := by
  induction t with
  | ret a => rfl
  | fail e => rfl
  | call op k ih => exact congrArg (call op) (funext ih)

end Prog

/-! ### Tasks at the same time -/

/-- The code of each job, what an operation answers and makes of the shared state, what
happens to the shared state from outside, and when a job may start. -/
structure Machine (σ : Type) (Op : Type) (Res : Op → Type) (ω χ J ε α : Type) where
  prog : J → Prog Op Res ε α
  exec : (op : Op) → ω → σ → Res op × σ
  env : χ → σ → σ
  admits : J → σ → Bool

inductive Task (Op : Type) (Res : Op → Type) (J ε α : Type)
  | free
  | running (j : J) (t : Prog Op Res ε α)
  | finished (j : J) (r : Except ε α)

/-- What a finished task has answered. -/
def Task.result {Op : Type} {Res : Op → Type} {J ε α : Type} :
    Task Op Res J ε α → Option (Except ε α)
  | .finished _ r => some r
  | .free | .running _ _ => none

/-- The operation that comes next, and the job it is for. -/
def Task.next {Op : Type} {Res : Op → Type} {J ε α : Type} : Task Op Res J ε α → Option (J × Op)
  | .running j (.call op _) => some (j, op)
  | .running _ (.ret _) | .running _ (.fail _) | .free | .finished _ _ => none

structure State (σ : Type) (Op : Type) (Res : Op → Type) (J ε α : Type) where
  shared : σ
  tasks : ℕ → Task Op Res J ε α

/-- A task starts on a job, goes on with its next operation, or something happens outside. -/
inductive Event (ω χ J : Type)
  | start (i : ℕ) (j : J)
  | step (i : ℕ) (o : ω)
  | env (x : χ)

variable {σ Op : Type} {Res : Op → Type} {ω χ J ε α : Type}

def State.init (s : σ) : State σ Op Res J ε α := ⟨s, fun _ => .free⟩

/-- One task has changed, and the shared state with it. -/
def State.set (s : State σ Op Res J ε α) (shared : σ) (i : ℕ) (x : Task Op Res J ε α) :
    State σ Op Res J ε α :=
  ⟨shared, Function.update s.tasks i x⟩

@[simp] lemma State.tasks_set_self (s : State σ Op Res J ε α) (shared : σ) (i : ℕ)
    (x : Task Op Res J ε α) : (s.set shared i x).tasks i = x := Function.update_self ..

lemma State.tasks_set_of_ne {s : State σ Op Res J ε α} {shared : σ} {i i' : ℕ} (h : i' ≠ i)
    {x : Task Op Res J ε α} : (s.set shared i x).tasks i' = s.tasks i' :=
  Function.update_of_ne h ..

lemma update_eq_some {f : ℕ → Option α} {i i' : ℕ} {x : Option α} {a : α} :
    Function.update f i x i' = some a ↔ i' = i ∧ x = some a ∨ i' ≠ i ∧ f i' = some a := by
  by_cases h : i' = i
  · simp [h]
  · simp [h]

namespace Machine

variable (M : Machine σ Op Res ω χ J ε α) (s : State σ Op Res J ε α)

def stepTask (i : ℕ) (j : J) (o : ω) : Prog Op Res ε α → State σ Op Res J ε α
  | .ret a => s.set s.shared i (.finished j (.ok a))
  | .fail e => s.set s.shared i (.finished j (.error e))
  | .call op k => s.set (M.exec op o s.shared).2 i (.running j (k (M.exec op o s.shared).1))

def step : Event ω χ J → State σ Op Res J ε α
  | .start i j =>
    match s.tasks i with
    | .free => if M.admits j s.shared then s.set s.shared i (.running j (M.prog j)) else s
    | .running _ _ | .finished _ _ => s
  | .step i o =>
    match s.tasks i with
    | .running j t => M.stepTask s i j o t
    | .free | .finished _ _ => s
  | .env x => ⟨M.env x s.shared, s.tasks⟩

def run (evs : List (Event ω χ J)) : State σ Op Res J ε α :=
  evs.foldl M.step s

lemma run_append (evs evs' : List (Event ω χ J)) :
    M.run s (evs ++ evs') = M.run (M.run s evs) evs' := List.foldl_append

/-- What an event can make of the state. -/
inductive Stepped (s : State σ Op Res J ε α) : Event ω χ J → State σ Op Res J ε α → Prop
  | same {e : Event ω χ J} (idle : ∀ i o, e = .step i o → (s.tasks i).next = none) :
      Stepped s e s
  | start {i : ℕ} {j : J} (free : s.tasks i = .free) (admits : M.admits j s.shared = true) :
      Stepped s (.start i j) (s.set s.shared i (.running j (M.prog j)))
  | ret {i : ℕ} {o : ω} {j : J} {a : α} (running : s.tasks i = .running j (.ret a)) :
      Stepped s (.step i o) (s.set s.shared i (.finished j (.ok a)))
  | fail {i : ℕ} {o : ω} {j : J} {e : ε} (running : s.tasks i = .running j (.fail e)) :
      Stepped s (.step i o) (s.set s.shared i (.finished j (.error e)))
  | call {i : ℕ} {o : ω} {j : J} {op : Op} {k : Res op → Prog Op Res ε α}
      (running : s.tasks i = .running j (.call op k)) : Stepped s (.step i o)
      (s.set (M.exec op o s.shared).2 i (.running j (k (M.exec op o s.shared).1)))
  | env (x : χ) : Stepped s (.env x) ⟨M.env x s.shared, s.tasks⟩

lemma stepped (e : Event ω χ J) : M.Stepped s e (M.step s e) := by
  cases e with
  | start i j =>
    cases ht : s.tasks i with
    | free =>
      by_cases ha : M.admits j s.shared = true
      · simpa only [step, ht, ha, if_true] using .start ht ha
      · simpa only [step, ht, ha] using .same nofun
    | running _ _ | finished _ _ => simpa only [step, ht] using .same nofun
  | step i o =>
    cases ht : s.tasks i with
    | free | finished _ _ =>
      simp only [step, ht]
      refine .same ?_
      rintro _ _ ⟨⟩
      rw [ht]
      rfl
    | running j t =>
      simp only [step, ht]
      cases t with
      | ret a => exact .ret ht
      | fail e => exact .fail ht
      | call op k => exact .call ht
  | env x => exact .env x

/-- Code that runs with nobody beside it may end with `r` in the state `s'`. -/
def Ends {β : Type} : Prog Op Res ε β → σ → Except ε β → σ → Prop
  | .ret a, s, r, s' => r = .ok a ∧ s' = s
  | .fail e, s, r, s' => r = .error e ∧ s' = s
  | .call op k, s, r, s' => ∃ o, Ends (k (M.exec op o s).1) (M.exec op o s).2 r s'

variable {M}

lemma Ends.of_bind {β γ : Type} {t : Prog Op Res ε β} {g : β → Prog Op Res ε γ} {s s' : σ} {c : γ}
    (h : M.Ends (t >>= g) s (.ok c) s') :
    ∃ b s1, M.Ends t s (.ok b) s1 ∧ M.Ends (g b) s1 (.ok c) s' := by
  induction t generalizing s with
  | ret b => exact ⟨b, s, ⟨rfl, rfl⟩, h⟩
  | fail e => cases h.1
  | call op k ih =>
    obtain ⟨o, h⟩ := h
    obtain ⟨b, s1, hk, hg⟩ := ih _ h
    exact ⟨b, s1, ⟨o, hk⟩, hg⟩

lemma Ends.bind {β γ : Type} {t : Prog Op Res ε β} {g : β → Prog Op Res ε γ} {s s1 s' : σ} {b : β}
    {r : Except ε γ} (h : M.Ends t s (.ok b) s1) (hg : M.Ends (g b) s1 r s') :
    M.Ends (t >>= g) s r s' := by
  induction t generalizing s with
  | ret a =>
    obtain ⟨hb, rfl⟩ := h
    cases hb
    exact hg
  | fail e => cases h.1
  | call op k ih =>
    obtain ⟨o, h⟩ := h
    exact ⟨o, ih _ h⟩

lemma ends_mapErr_ok {β : Type} {t : Prog Op Res ε β} {f : ε → ε} {s s' : σ} {b : β} :
    M.Ends (t.mapErr f) s (.ok b) s' ↔ M.Ends t s (.ok b) s' := by
  induction t generalizing s with
  | ret a => exact Iff.rfl
  | fail e =>
    constructor
    · exact fun h => nomatch h.1
    · exact fun h => nomatch h.1
  | call op k ih => exact exists_congr fun o => ih _

end Machine

end PrivChat.Tasks
