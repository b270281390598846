import PrivChat.Tasks.Terms

/-!
Where tasks stand.

The operations a task has called and the answers it got put it at a place. A place says what the
task may call next and what it may end with. `Machine.Guards` is the invariant rule for that: it
speaks of the shared state, of the places of all tasks, and of how many operations of some kind
have been called. A task that has ended stays where it is.
-/

namespace PrivChat.Tasks

variable {σ Op : Type} {Res : Op → Type} {ω χ J ε α β γ D : Type}

/-- Another program in the place of each operation. -/
def Prog.translate {Op' : Type} {Res' : Op' → Type} (f : (op : Op) → Prog Op' Res' ε (Res op)) :
    Prog Op Res ε β → Prog Op' Res' ε β
  | .ret b => .ret b
  | .fail e => .fail e
  | .call op k => f op >>= fun r => (k r).translate f

/-- The job of a task that has nothing left to call, and what it ends with. -/
def Task.decided : Task Op Res J ε α → Option (J × Except ε α)
  | .finished j r => some (j, r)
  | .running j (.ret a) => some (j, .ok a)
  | .running j (.fail e) => some (j, .error e)
  | .running _ (.call _ _) | .free => none

/-- The place a job starts at, the place an answer leads to, what may be called where, and what a
task may end with where. -/
structure Course (Op : Type) (Res : Op → Type) (J ε α D : Type) where
  start : J → D
  next : (op : Op) → Res op → D → D
  ready : J → Op → D → Prop
  rest : J → Except ε α → D → Prop

namespace Course

variable (C : Course Op Res J ε α D)

/-- Code that calls only what may be called, and comes to a place where `Q` holds with what it
has come to. -/
def Leads (j : J) (Q : Except ε β → D → Prop) : Prog Op Res ε β → D → Prop
  | .ret b, d => Q (.ok b) d
  | .fail e, d => Q (.error e) d
  | .call op k, d => C.ready j op d ∧ ∀ r, Leads j Q (k r) (C.next op r d)

variable {C} {j : J} {Q : Except ε β → D → Prop} {R : Except ε γ → D → Prop}
  {t : Prog Op Res ε β} {d : D}

lemma Leads.bind {g : β → Prog Op Res ε γ} (h : C.Leads j Q t d)
    (ha : ∀ b d, Q (.ok b) d → C.Leads j R (g b) d)
    (he : ∀ e d, Q (.error e) d → R (.error e) d) : C.Leads j R (t >>= g) d := by
  induction t generalizing d with
  | ret b => exact ha b d h
  | fail e => exact he e d h
  | call op k ih => exact ⟨h.1, fun r => ih r (h.2 r)⟩

lemma Leads.mono {Q' : Except ε β → D → Prop} (h : C.Leads j Q t d)
    (hQ : ∀ r d, Q r d → Q' r d) : C.Leads j Q' t d := by
  induction t generalizing d with
  | ret b => exact hQ _ d h
  | fail e => exact hQ _ d h
  | call op k ih => exact ⟨h.1, fun r => ih r (h.2 r)⟩

lemma Leads.mapErr {f : ε → ε} (h : C.Leads j (fun r => Q (r.mapError f)) t d) :
    C.Leads j Q (t.mapErr f) d := by
  induction t generalizing d with
  | ret b => exact h
  | fail e => exact h
  | call op k ih => exact ⟨h.1, fun r => ih r (h.2 r)⟩

variable (C) in
/-- A task that runs stands at a place from where its code comes to a rest. -/
def Stands : Task Op Res J ε α → Option D → Prop
  | .free, p => p = none
  | .running j t, p => ∃ d, p = some d ∧ C.Leads j (C.rest j) t d
  | .finished j r, p => ∃ d, p = some d ∧ C.rest j r d

variable {x : Task Op Res J ε α}

lemma Stands.rest {p : Option D} {r : Except ε α} (h : C.Stands x p)
    (hx : x.decided = some (j, r)) : ∃ d, p = some d ∧ C.rest j r d := by
  match x, h, hx with
  | .finished _ _, h, rfl => exact h
  | .running _ (.ret _), h, rfl => exact h
  | .running _ (.fail _), h, rfl => exact h

lemma Stands.decided (h : C.Stands x (some d))
    (hd : ∀ j op, ¬ C.ready j op d) : ∃ j r, x.decided = some (j, r) ∧ C.rest j r d := by
  match x, h with
  | .finished j r, ⟨_, rfl, hrest⟩ => exact ⟨j, r, rfl, hrest⟩
  | .running j (.ret a), ⟨_, rfl, hrest⟩ => exact ⟨j, .ok a, rfl, hrest⟩
  | .running j (.fail e), ⟨_, rfl, hrest⟩ => exact ⟨j, .error e, rfl, hrest⟩
  | .running j (.call op k), ⟨_, rfl, hready, _⟩ => exact absurd hready (hd j op)

end Course

namespace Machine

/-- One if the event is an operation of the kind `p`. -/
def callsAt (p : J → Op → ω → σ → Bool) (s : State σ Op Res J ε α) : Event ω χ J → ℕ
  | .step i o =>
    match (s.tasks i).next with
    | some (j, op) => if p j op o s.shared then 1 else 0
    | none => 0
  | .start _ _ | .env _ => 0

/-- How many operations of the kind `p` are called in a run. -/
def calls (M : Machine σ Op Res ω χ J ε α) (p : J → Op → ω → σ → Bool) :
    State σ Op Res J ε α → List (Event ω χ J) → ℕ
  | _, [] => 0
  | s, e :: evs => callsAt p s e + calls M p (M.step s e) evs

end Machine

/-! ### The rule -/

/-- An invariant of the shared state and the places of the tasks, after so many operations of the
kind `p`. -/
structure Machine.Guards (M : Machine σ Op Res ω χ J ε α) (C : Course Op Res J ε α D)
    (given : ℕ → J → Op → ω → σ → Prop) (p : J → Op → ω → σ → Bool)
    (I : ℕ → σ → (ℕ → Option D) → Prop) : Prop where
  prog : ∀ j, C.Leads j (C.rest j) (M.prog j) (C.start j)
  start : ∀ n i j s place, I n s place → place i = none →
    I n s (Function.update place i (some (C.start j)))
  call : ∀ n i j op o s place d, I n s place → place i = some d → C.ready j op d →
    given i j op o s → I (n + if p j op o s then 1 else 0) (M.exec op o s).2
      (Function.update place i (some (C.next op (M.exec op o s).1 d)))
  env : ∀ n x s place, I n s place → I n (M.env x s) place

namespace Machine.Guards

variable {M : Machine σ Op Res ω χ J ε α} {C : Course Op Res J ε α D}
  {given : ℕ → J → Op → ω → σ → Prop} {p : J → Op → ω → σ → Bool}
  {I : ℕ → σ → (ℕ → Option D) → Prop} {n : ℕ}
  {s : State σ Op Res J ε α} {place : ℕ → Option D}

lemma stands_set (h : ∀ i, C.Stands (s.tasks i) (place i)) (shared : σ) {i : ℕ}
    {x : Task Op Res J ε α} {p : Option D} (hx : C.Stands x p) (i' : ℕ) :
    C.Stands ((s.set shared i x).tasks i') (Function.update place i p i') := by
  by_cases hi : i' = i
  · subst hi
    rwa [State.tasks_set_self, Function.update_self]
  · rw [State.tasks_set_of_ne hi, Function.update_of_ne hi]
    exact h i'

lemma stands_finish (h : ∀ i, C.Stands (s.tasks i) (place i)) {i : ℕ} {j : J} {r : Except ε α}
    {d : D} (hd : place i = some d) (hr : C.rest j r d) (i' : ℕ) :
    C.Stands ((s.set s.shared i (.finished j r)).tasks i') (place i') := by
  have hset := stands_set h s.shared (i := i) (x := .finished j r) ⟨d, hd, hr⟩ i'
  rwa [Function.update_eq_self] at hset

lemma step (hG : M.Guards C given p I) (hI : I n s.shared place)
    (h : ∀ i, C.Stands (s.tasks i) (place i)) (e : Event ω χ J) (hg : GivenAt given s e) :
    ∃ place', I (n + callsAt p s e) (M.step s e).shared place' ∧
      ∀ i, C.Stands ((M.step s e).tasks i) (place' i) := by
  have hstep := M.stepped s e
  generalize M.step s e = s' at hstep ⊢
  cases hstep with
  | same idle =>
    refine ⟨place, ?_, h⟩
    cases e with
    | step i o =>
      rw [callsAt, idle i o rfl]
      exact hI
    | start _ _ | env _ => exact hI
  | @start i j free _ =>
    have hi := h i
    rw [free] at hi
    exact ⟨_, hG.start n i j _ _ hI hi, stands_set h _ ⟨_, rfl, hG.prog j⟩⟩
  | @ret i o j a ht | @fail i o j a ht =>
    have hi := h i
    rw [ht] at hi
    obtain ⟨d, hd, hrest⟩ := hi
    rw [callsAt, ht]
    exact ⟨place, hI, stands_finish h hd hrest⟩
  | @call i o j op k ht =>
    have hi := h i
    rw [ht] at hi
    obtain ⟨d, hd, hready, hk⟩ := hi
    have hgo : given i j op o s.shared := hg (j, op) (by rw [ht]; rfl)
    rw [callsAt, ht]
    exact ⟨_, hG.call n i j op o _ _ d hI hd hready hgo, stands_set h _ ⟨_, rfl, hk _⟩⟩
  | env x => exact ⟨place, hG.env n x s.shared place hI, h⟩

lemma stays (hG : M.Guards C given p I) {i : ℕ} {d : D} (hd : ∀ j op, ¬ C.ready j op d) :
    M.Guards C given p fun n s place => I n s place ∧ place i = some d where
  prog := hG.prog
  start n i' j s place h hi := by
    refine ⟨hG.start n i' j s place h.1 hi, update_eq_some.mpr (.inr ⟨?_, h.2⟩)⟩
    rintro rfl
    cases hi.symm.trans h.2
  call n i' j op o s place d' h hi hready hg := by
    refine ⟨hG.call n i' j op o s place d' h.1 hi hready hg, update_eq_some.mpr (.inr ⟨?_, h.2⟩)⟩
    rintro rfl
    cases hi.symm.trans h.2
    exact hd j op hready
  env n x s place h := ⟨hG.env n x s place h.1, h.2⟩

/-- **The invariant holds along every run**, with some place for each task that runs. -/
theorem run (hG : M.Guards C given p I) (hI : I n s.shared place)
    (h : ∀ i, C.Stands (s.tasks i) (place i)) (evs : List (Event ω χ J))
    (hg : GivenRun M given s evs) : ∃ place', I (n + M.calls p s evs) (M.run s evs).shared place' ∧
      ∀ i, C.Stands ((M.run s evs).tasks i) (place' i) := by
  induction evs generalizing n s place with
  | nil => exact ⟨place, hI, h⟩
  | cons e evs ih =>
    obtain ⟨place', hI', h'⟩ := hG.step hI h e hg.1
    rw [calls, ← Nat.add_assoc]
    exact ih hI' h' hg.2

end Machine.Guards

end PrivChat.Tasks
