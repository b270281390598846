import PrivChat.Tasks.Prog

/-!
What tasks may count on.

All tasks keep to the same terms: an invariant of the shared state, an order along which the
state moves, what a task owes before it calls an operation, and what it is given when the
operation runs. Code keeps to the terms if it pays what it owes wherever the others may have
moved the state; its answer then is as it was promised.

If the state keeps to the terms whatever is called, no matter by whom, then a single task can be
followed through a run: what it owes it pays at each of its calls, and what it has answered with
lasts.
-/

namespace PrivChat.Tasks

variable {σ Op : Type} {Res : Op → Type} {ω χ J ε α β γ : Type}

/-- The terms. What is given may depend on the task and its job. -/
structure Terms (σ Op ω J : Type) where
  inv : σ → Prop
  moves : σ → σ → Prop
  owes : Op → σ → Prop
  given : ℕ → J → Op → ω → σ → Prop
  refl : ∀ s, moves s s
  trans : ∀ {s s' s''}, moves s s' → moves s' s'' → moves s s''

/-- The state keeps to the terms, whatever operation runs and whatever happens outside. -/
structure Machine.Upholds (M : Machine σ Op Res ω χ J ε α) (T : Terms σ Op ω J) : Prop where
  call : ∀ i j op o s, T.inv s → T.owes op s → T.given i j op o s →
    T.inv (M.exec op o s).2 ∧ T.moves s (M.exec op o s).2
  env : ∀ x s, T.inv s → T.inv (M.env x s) ∧ T.moves s (M.env x s)

/-- The code keeps to the terms from the state `s` on, and ends as `Q` says. -/
def Keeps (M : Machine σ Op Res ω χ J ε α) (T : Terms σ Op ω J) (i : ℕ) (j : J)
    (Q : Except ε β → σ → Prop) : Prog Op Res ε β → σ → Prop
  | .ret a, s => ∀ s', T.moves s s' → T.inv s' → Q (.ok a) s'
  | .fail e, s => ∀ s', T.moves s s' → T.inv s' → Q (.error e) s'
  | .call op k, s => ∀ s', T.moves s s' → T.inv s' → T.owes op s' ∧
      ∀ o, T.given i j op o s' → Keeps M T i j Q (k (M.exec op o s').1) (M.exec op o s').2

/-! ### Rules for code -/

section Rules

variable {M : Machine σ Op Res ω χ J ε α} {T : Terms σ Op ω J} {i : ℕ} {j : J}
  {Q : Except ε β → σ → Prop} {t : Prog Op Res ε β} {s s' : σ}

lemma Keeps.later (h : Keeps M T i j Q t s) (hs : T.moves s s') : Keeps M T i j Q t s' := by
  cases t with
  | ret a => exact fun s'' hs' hI => h s'' (T.trans hs hs') hI
  | fail e => exact fun s'' hs' hI => h s'' (T.trans hs hs') hI
  | call op k => exact fun s'' hs' hI => h s'' (T.trans hs hs') hI

lemma keeps_of_later (h : ∀ s', T.moves s s' → T.inv s' → Keeps M T i j Q t s') :
    Keeps M T i j Q t s := by
  cases t with
  | ret a => exact fun s' hs hI => h s' hs hI s' (T.refl s') hI
  | fail e => exact fun s' hs hI => h s' hs hI s' (T.refl s') hI
  | call op k => exact fun s' hs hI => h s' hs hI s' (T.refl s') hI

lemma keeps_call (hU : M.Upholds T) {op : Op} {k : Res op → Prog Op Res ε β}
    (ho : ∀ s', T.moves s s' → T.inv s' → T.owes op s')
    (hk : ∀ o s', T.moves s s' → T.inv s' → T.given i j op o s' →
      T.moves s' (M.exec op o s').2 → T.inv (M.exec op o s').2 →
      Keeps M T i j Q (k (M.exec op o s').1) (M.exec op o s').2) :
    Keeps M T i j Q (.call op k) s := by
  intro s' hs hI
  refine ⟨ho s' hs hI, fun o hg => ?_⟩
  obtain ⟨hI', hs'⟩ := hU.call i j op o s' hI (ho s' hs hI) hg
  exact hk o s' hs hI hg hs' hI'

lemma Keeps.bind (hU : M.Upholds T) {R : Except ε γ → σ → Prop} {g : β → Prog Op Res ε γ}
    (h : Keeps M T i j Q t s)
    (ha : ∀ a s', T.moves s s' → T.inv s' → Q (.ok a) s' → Keeps M T i j R (g a) s')
    (he : ∀ e s', T.moves s s' → T.inv s' → Q (.error e) s' → R (.error e) s') :
    Keeps M T i j R (t >>= g) s := by
  induction t generalizing s with
  | ret a => exact keeps_of_later fun s' hs hI => ha a s' hs hI (h s' hs hI)
  | fail e => exact fun s' hs hI => he e s' hs hI (h s' hs hI)
  | call op k ih =>
    intro s' hs hI
    obtain ⟨ho, hk⟩ := h s' hs hI
    refine ⟨ho, fun o hg => ?_⟩
    have hs' := T.trans hs (hU.call i j op o s' hI ho hg).2
    exact ih _ (hk o hg) (fun a s'' h'' => ha a s'' (T.trans hs' h''))
      fun e s'' h'' => he e s'' (T.trans hs' h'')

lemma Keeps.mono (hU : M.Upholds T) {R : Except ε β → σ → Prop} (h : Keeps M T i j Q t s)
    (hQ : ∀ r s', T.moves s s' → T.inv s' → Q r s' → R r s') : Keeps M T i j R t s := by
  induction t generalizing s with
  | ret a => exact fun s' hs hI => hQ _ s' hs hI (h s' hs hI)
  | fail e => exact fun s' hs hI => hQ _ s' hs hI (h s' hs hI)
  | call op k ih =>
    intro s' hs hI
    obtain ⟨ho, hk⟩ := h s' hs hI
    refine ⟨ho, fun o hg => ih _ (hk o hg) fun r s'' h'' => hQ r s'' ?_⟩
    exact T.trans (T.trans hs (hU.call i j op o s' hI ho hg).2) h''

/-- Code that keeps to the terms does so where more is known and more is given. -/
lemma Keeps.restrict {T' : Terms σ Op ω J} (h : Keeps M T i j Q t s)
    (hinv : ∀ s, T'.inv s → T.inv s) (hmoves : ∀ s s', T'.moves s s' → T.moves s s')
    (howes : ∀ op s, T'.inv s → T.owes op s → T'.owes op s)
    (hgiven : ∀ op o s, T'.given i j op o s → T.given i j op o s) : Keeps M T' i j Q t s := by
  induction t generalizing s with
  | ret a => exact fun s' hs hI => h s' (hmoves _ _ hs) (hinv _ hI)
  | fail e => exact fun s' hs hI => h s' (hmoves _ _ hs) (hinv _ hI)
  | call op k ih =>
    intro s' hs hI
    obtain ⟨ho, hk⟩ := h s' (hmoves _ _ hs) (hinv _ hI)
    exact ⟨howes op s' hI ho, fun o hg => ih _ (hk o (hgiven op o s' hg))⟩

lemma Keeps.attempt {R : Except ε (Except ε β) → σ → Prop}
    (h : Keeps M T i j (fun r s => R (.ok r) s) t s) : Keeps M T i j R t.attempt s := by
  induction t generalizing s with
  | ret a => exact h
  | fail e => exact h
  | call op k ih =>
    intro s' hs hI
    obtain ⟨ho, hk⟩ := h s' hs hI
    exact ⟨ho, fun o hg => ih _ (hk o hg)⟩

lemma Keeps.mapErr {f : ε → ε} (h : Keeps M T i j (fun r s => Q (r.mapError f) s) t s) :
    Keeps M T i j Q (t.mapErr f) s := by
  induction t generalizing s with
  | ret a => exact h
  | fail e => exact h
  | call op k ih =>
    intro s' hs hI
    obtain ⟨ho, hk⟩ := h s' hs hI
    exact ⟨ho, fun o hg => ih _ (hk o hg)⟩

end Rules

/-! ### Runs -/

section Runs

variable (M : Machine σ Op Res ω χ J ε α)

/-- What is given at each call, from the state `s` on. -/
def GivenAt (given : ℕ → J → Op → ω → σ → Prop) (s : State σ Op Res J ε α) : Event ω χ J → Prop
  | .step i o => ∀ x ∈ (s.tasks i).next, given i x.1 x.2 o s.shared
  | .start _ _ | .env _ => True

def GivenRun (given : ℕ → J → Op → ω → σ → Prop) : State σ Op Res J ε α → List (Event ω χ J) → Prop
  | _, [] => True
  | s, e :: evs => GivenAt given s e ∧ GivenRun given (M.step s e) evs

lemma givenRun_true (s : State σ Op Res J ε α) {evs : List (Event ω χ J)} :
    GivenRun M (fun _ _ _ _ _ => True) s evs := by
  induction evs generalizing s with
  | nil => trivial
  | cons e evs ih =>
    refine ⟨?_, ih _⟩
    cases e with
    | step i o => exact fun _ _ => trivial
    | start i j => trivial
    | env x => trivial

lemma givenRun_append {given : ℕ → J → Op → ω → σ → Prop} {s : State σ Op Res J ε α}
    {evs evs' : List (Event ω χ J)} : GivenRun M given s (evs ++ evs') ↔
      GivenRun M given s evs ∧ GivenRun M given (M.run s evs) evs' := by
  induction evs generalizing s with
  | nil => simp [GivenRun, Machine.run]
  | cons e evs ih =>
    have hrun : M.run s (e :: evs) = M.run (M.step s e) evs := rfl
    simp [GivenRun, ih, hrun, and_assoc]

section Decidable

variable {given : ℕ → J → Op → ω → σ → Prop} [∀ i j op o s, Decidable (given i j op o s)]

instance GivenAt.decidable (s : State σ Op Res J ε α) (e : Event ω χ J) :
    Decidable (GivenAt given s e) :=
  match e with
  | .step i o => inferInstanceAs (Decidable (∀ x ∈ (s.tasks i).next, given i x.1 x.2 o s.shared))
  | .start _ _ | .env _ => inferInstanceAs (Decidable True)

instance GivenRun.decidable : (s : State σ Op Res J ε α) → (evs : List (Event ω χ J)) →
    Decidable (GivenRun M given s evs)
  | _, [] => inferInstanceAs (Decidable True)
  | s, e :: evs =>
    have := GivenRun.decidable (M.step s e) evs
    inferInstanceAs (Decidable (GivenAt given s e ∧ GivenRun M given (M.step s e) evs))

end Decidable

structure Healthy (T : Terms σ Op ω J) (P : ℕ → J → Except ε α → Prop)
    (s : State σ Op Res J ε α) : Prop where
  inv : T.inv s.shared
  running : ∀ i j t, s.tasks i = .running j t → Keeps M T i j (fun r _ => P i j r) t s.shared
  finished : ∀ i j r, s.tasks i = .finished j r → P i j r

variable {M} {T : Terms σ Op ω J} {P : ℕ → J → Except ε α → Prop} {s : State σ Op Res J ε α}

lemma healthy_init {s : σ} (h : T.inv s) : Healthy M T P (State.init s) where
  inv := h
  running _ _ _ h := nomatch h
  finished _ _ _ h := nomatch h

lemma Healthy.set (h : Healthy M T P s) {i : ℕ} {x : Task Op Res J ε α} {shared : σ}
    (hI : T.inv shared) (hs : T.moves s.shared shared)
    (hrun : ∀ j t, x = .running j t → Keeps M T i j (fun r _ => P i j r) t shared)
    (hfin : ∀ j r, x = .finished j r → P i j r) : Healthy M T P (s.set shared i x) where
  inv := hI
  running i' j t ht := by
    by_cases hi : i' = i
    · subst hi
      exact hrun j t (by rwa [State.tasks_set_self] at ht)
    · rw [State.tasks_set_of_ne hi] at ht
      exact (h.running i' j t ht).later hs
  finished i' j r hr := by
    by_cases hi : i' = i
    · subst hi
      exact hfin j r (by rwa [State.tasks_set_self] at hr)
    · rw [State.tasks_set_of_ne hi] at hr
      exact h.finished i' j r hr

/-- Every job keeps to the terms from wherever it may start. -/
def Serves (M : Machine σ Op Res ω χ J ε α) (T : Terms σ Op ω J)
    (P : ℕ → J → Except ε α → Prop) : Prop :=
  ∀ i j s, T.inv s → M.admits j s = true → Keeps M T i j (fun r _ => P i j r) (M.prog j) s

lemma Healthy.step (hU : M.Upholds T) (hP : Serves M T P) (h : Healthy M T P s)
    {e : Event ω χ J} (hg : GivenAt T.given s e) :
    Healthy M T P (M.step s e) ∧ T.moves s.shared (M.step s e).shared := by
  have hstep := M.stepped s e
  generalize M.step s e = s' at hstep ⊢
  cases hstep with
  | same => exact ⟨h, T.refl _⟩
  | @start i j _ ha =>
    refine ⟨h.set h.inv (T.refl _) ?_ nofun, T.refl _⟩
    rintro _ _ ⟨⟩
    exact hP i j s.shared h.inv ha
  | ret ht | fail ht =>
    refine ⟨h.set h.inv (T.refl _) nofun ?_, T.refl _⟩
    rintro _ _ ⟨⟩
    exact h.running _ _ _ ht s.shared (T.refl _) h.inv
  | @call i o j op k ht =>
    obtain ⟨ho, hk⟩ := h.running i j _ ht s.shared (T.refl _) h.inv
    have hgo : T.given i j op o s.shared := hg (j, op) (by rw [ht]; rfl)
    obtain ⟨hI, hs⟩ := hU.call i j op o s.shared h.inv ho hgo
    refine ⟨h.set hI hs ?_ nofun, hs⟩
    rintro _ _ ⟨⟩
    exact hk o hgo
  | env x =>
    obtain ⟨hI, hs⟩ := hU.env x _ h.inv
    exact ⟨⟨hI, fun i j t ht => (h.running i j t ht).later hs, h.finished⟩, hs⟩

/-- **Every answer is as promised**, in every run in which the tasks get what they are to be
given. -/
theorem Healthy.run (hU : M.Upholds T) (hP : Serves M T P) (h : Healthy M T P s)
    (evs : List (Event ω χ J)) (hg : GivenRun M T.given s evs) : Healthy M T P (M.run s evs) := by
  induction evs generalizing s with
  | nil => exact h
  | cons e evs ih => exact ih (h.step hU hP hg.1).1 hg.2

lemma Healthy.moves_run (hU : M.Upholds T) (hP : Serves M T P) (h : Healthy M T P s)
    (evs : List (Event ω χ J)) (hg : GivenRun M T.given s evs) :
    T.moves s.shared (M.run s evs).shared := by
  induction evs generalizing s with
  | nil => exact T.refl _
  | cons e evs ih =>
    obtain ⟨h', hs⟩ := h.step hU hP hg.1
    exact T.trans hs (ih h' hg.2)

lemma Machine.shared_run {R : σ → σ → Prop} (hrefl : ∀ s, R s s)
    (htrans : ∀ {s s' s''}, R s s' → R s' s'' → R s s'') (hcall : ∀ op o s, R s (M.exec op o s).2)
    (henv : ∀ x s, R s (M.env x s)) (s : State σ Op Res J ε α) (evs : List (Event ω χ J)) :
    R s.shared (M.run s evs).shared := by
  induction evs generalizing s with
  | nil => exact hrefl _
  | cons e evs ih =>
    refine htrans ?_ (ih (M.step s e))
    have hstep := M.stepped s e
    generalize M.step s e = s' at hstep ⊢
    cases hstep with
    | same | start | ret | fail => exact hrefl _
    | call => exact hcall _ _ s.shared
    | env x => exact henv x s.shared

end Runs

/-- The code keeps to the terms, and what it returns is as `φ` says. -/
def Yields (M : Machine σ Op Res ω χ J ε α) (T : Terms σ Op ω J) (i : ℕ) (j : J)
    (φ : β → σ → Prop) (t : Prog Op Res ε β) (s : σ) : Prop :=
  Keeps M T i j (fun r s' => ∀ b, r = .ok b → φ b s') t s

namespace Yields

variable {M : Machine σ Op Res ω χ J ε α} {T : Terms σ Op ω J} {i : ℕ} {j : J}
  {φ : β → σ → Prop} {ψ : γ → σ → Prop} {t : Prog Op Res ε β} {s s' : σ}

lemma ret {b : β} (h : ∀ s', T.moves s s' → T.inv s' → φ b s') : Yields M T i j φ (.ret b) s := by
  intro s' hs hI b' hb
  cases hb
  exact h s' hs hI

lemma fail {e : ε} : Yields M T i j φ (.fail e) s := fun _ _ _ => nofun

lemma later (h : Yields M T i j φ t s) (hs : T.moves s s') : Yields M T i j φ t s' :=
  Keeps.later h hs

variable (hU : M.Upholds T)
include hU

lemma call {op : Op} {k : Res op → Prog Op Res ε β}
    (ho : ∀ s', T.moves s s' → T.inv s' → T.owes op s')
    (hk : ∀ o s', T.moves s s' → T.inv s' → T.given i j op o s' →
      Yields M T i j φ (k (M.exec op o s').1) (M.exec op o s').2) :
    Yields M T i j φ (.call op k) s :=
  keeps_call hU ho fun o s' hs hI hg _ _ => hk o s' hs hI hg

variable (h : Yields M T i j φ t s)
include h

lemma bind {g : β → Prog Op Res ε γ}
    (hg : ∀ b s', T.moves s s' → T.inv s' → φ b s' → Yields M T i j ψ (g b) s') :
    Yields M T i j ψ (t >>= g) s :=
  Keeps.bind hU h (fun b s' hs hI hb => hg b s' hs hI (hb b rfl)) fun _ _ _ _ _ => nofun

lemma mono {φ' : β → σ → Prop}
    (hφ : ∀ b s', T.moves s s' → T.inv s' → φ b s' → φ' b s') : Yields M T i j φ' t s :=
  Keeps.mono hU h fun _ s' hs hI hr b hb => hφ b s' hs hI (hr b hb)

lemma mapErr {f : ε → ε} : Yields M T i j φ (t.mapErr f) s := by
  refine Keeps.mapErr (Keeps.mono hU h fun r s' _ _ hr b hb => ?_)
  cases r with
  | ok a =>
    cases hb
    exact hr _ rfl
  | error e => cases hb

lemma attempt :
    Yields M T i j (fun r s' => ∀ b, r = .ok b → φ b s') t.attempt s := by
  refine Keeps.attempt (Keeps.mono hU h fun r s' _ _ hr r' hr' => ?_)
  cases hr'
  exact hr

end Yields

/-- Terms of which nothing is asked. -/
def Terms.trivial (σ Op ω J : Type) : Terms σ Op ω J where
  inv _ := True
  moves _ _ := True
  owes _ _ := True
  given _ _ _ _ _ := True
  refl _ := True.intro
  trans _ _ := True.intro

/-! ### Code that runs with nobody beside it -/

namespace Machine

/-- The code may end with `r` in the state `s'`, if all that the outside world adds is as `P`
says. -/
def EndsIn (M : Machine σ Op Res ω χ J ε α) (P : ω → Prop) :
    Prog Op Res ε β → σ → Except ε β → σ → Prop
  | .ret a, s, r, s' => r = .ok a ∧ s' = s
  | .fail e, s, r, s' => r = .error e ∧ s' = s
  | .call op k, s, r, s' => ∃ o, P o ∧ EndsIn M P (k (M.exec op o s).1) (M.exec op o s).2 r s'

/-- However the code ends then, it does so as `Q` says. -/
def Alone (M : Machine σ Op Res ω χ J ε α) (P : ω → Prop) (Q : Except ε β → σ → Prop) :
    Prog Op Res ε β → σ → Prop
  | .ret a, s => Q (.ok a) s
  | .fail e, s => Q (.error e) s
  | .call op k, s => ∀ o, P o → Alone M P Q (k (M.exec op o s).1) (M.exec op o s).2

/-- How the code ends if the outside world adds `o` to each operation. -/
def evalIn (M : Machine σ Op Res ω χ J ε α) (o : ω) : Prog Op Res ε β → σ → Except ε β × σ
  | .ret a, s => (.ok a, s)
  | .fail e, s => (.error e, s)
  | .call op k, s => evalIn M o (k (M.exec op o s).1) (M.exec op o s).2

variable {M : Machine σ Op Res ω χ J ε α} {P : ω → Prop} {Q : Except ε β → σ → Prop}
  {t : Prog Op Res ε β} {s s' : σ}

lemma Alone.endsIn {r : Except ε β} (h : M.Alone P Q t s) (he : M.EndsIn P t s r s') : Q r s' := by
  induction t generalizing s with
  | ret a =>
    obtain ⟨rfl, rfl⟩ := he
    exact h
  | fail e =>
    obtain ⟨rfl, rfl⟩ := he
    exact h
  | call op k ih =>
    obtain ⟨o, ho, he⟩ := he
    exact ih _ (h o ho) he

lemma endsIn_evalIn {o : ω} (ho : P o) (t : Prog Op Res ε β) (s : σ) :
    M.EndsIn P t s (M.evalIn o t s).1 (M.evalIn o t s).2 := by
  induction t generalizing s with
  | ret a => exact ⟨rfl, rfl⟩
  | fail e => exact ⟨rfl, rfl⟩
  | call op k ih => exact ⟨o, ho, ih _ _⟩

lemma Alone.mono {R : Except ε β → σ → Prop} (h : M.Alone P Q t s)
    (hQ : ∀ r s', Q r s' → R r s') : M.Alone P R t s := by
  induction t generalizing s with
  | ret a => exact hQ _ _ h
  | fail e => exact hQ _ _ h
  | call op k ih => exact fun o ho => ih _ (h o ho)

lemma Alone.bind {R : Except ε γ → σ → Prop} {g : β → Prog Op Res ε γ} (h : M.Alone P Q t s)
    (hg : ∀ b s', Q (.ok b) s' → M.Alone P R (g b) s')
    (he : ∀ e s', Q (.error e) s' → R (.error e) s') : M.Alone P R (t >>= g) s := by
  induction t generalizing s with
  | ret a => exact hg a s h
  | fail e => exact he e s h
  | call op k ih => exact fun o ho => ih _ (h o ho)

lemma Alone.mapErr {f : ε → ε} (h : M.Alone P (fun r s' => Q (r.mapError f) s') t s) :
    M.Alone P Q (t.mapErr f) s := by
  induction t generalizing s with
  | ret a => exact h
  | fail e => exact h
  | call op k ih => exact fun o ho => ih _ (h o ho)

end Machine

variable {M : Machine σ Op Res ω χ J ε α} {T : Terms σ Op ω J}

lemma Keeps.endsIn {P : ω → Prop} {i : ℕ}
    {j : J} {Q : Except ε β → σ → Prop} {t : Prog Op Res ε β} {s s' : σ} {r : Except ε β}
    (hU : M.Upholds T) (h : Keeps M T i j Q t s) (hI : T.inv s)
    (hg : ∀ op o s, P o → T.given i j op o s) (he : M.EndsIn P t s r s') :
    Q r s' ∧ T.inv s' ∧ T.moves s s' := by
  induction t generalizing s with
  | ret a =>
    obtain ⟨rfl, rfl⟩ := he
    exact ⟨h _ (T.refl _) hI, hI, T.refl _⟩
  | fail e =>
    obtain ⟨rfl, rfl⟩ := he
    exact ⟨h _ (T.refl _) hI, hI, T.refl _⟩
  | call op k ih =>
    obtain ⟨o, ho, he⟩ := he
    obtain ⟨howes, hk⟩ := h s (T.refl s) hI
    obtain ⟨hI', hs⟩ := hU.call i j op o s hI howes (hg op o s ho)
    obtain ⟨hQ, hI'', hs'⟩ := ih _ (hk o (hg op o s ho)) hI' he
    exact ⟨hQ, hI'', T.trans hs hs'⟩

/-! ### One task among the others -/

lemma Machine.shared_step_of_next {s : State σ Op Res J ε α}
    {i : ℕ} {j : J} {op : Op} (h : (s.tasks i).next = some (j, op)) (o : ω) :
    (M.step s (.step i o)).shared = (M.exec op o s.shared).2 := by
  match ht : s.tasks i, h with
  | .running j' (.call op' k), h =>
    cases h
    simp only [Machine.step, ht, Machine.stepTask, State.set]

/-- No operation breaks the terms, and nothing that happens outside. -/
structure Machine.Steady (M : Machine σ Op Res ω χ J ε α) (T : Terms σ Op ω J) : Prop where
  call : ∀ op o s, T.inv s → T.inv (M.exec op o s).2 ∧ T.moves s (M.exec op o s).2
  env : ∀ x s, T.inv s → T.inv (M.env x s) ∧ T.moves s (M.env x s)

lemma Machine.Steady.upholds (h : M.Steady T) : M.Upholds T where
  call _ _ op o s hI _ _ := h.call op o s hI
  env := h.env

/-- Every job that is started may be started. -/
def StartsAt (may : J → σ → Prop) (s : State σ Op Res J ε α) : Event ω χ J → Prop
  | .start _ j => may j s.shared
  | .step _ _ | .env _ => True

def StartsRun (M : Machine σ Op Res ω χ J ε α) (may : J → σ → Prop) :
    State σ Op Res J ε α → List (Event ω χ J) → Prop
  | _, [] => True
  | s, e :: evs => StartsAt may s e ∧ StartsRun M may (M.step s e) evs

lemma startsRun_true (M : Machine σ Op Res ω χ J ε α) (s : State σ Op Res J ε α)
    (evs : List (Event ω χ J)) : StartsRun M (fun _ _ => True) s evs := by
  induction evs generalizing s with
  | nil => trivial
  | cons e evs ih =>
    refine ⟨?_, ih _⟩
    cases e <;> trivial

section Watch

variable (M : Machine σ Op Res ω χ J ε α) (T : Terms σ Op ω J) (mine : J → Prop)
  (P : J → Except ε α → σ → Prop) (i : ℕ)

/-- If its job is one of those that matter, the task keeps to the terms, and what it has answered
with is as promised. -/
def Watched (x : Task Op Res J ε α) (s : σ) : Prop :=
  match x with
  | .free => True
  | .running j t => mine j → Keeps M T i j (P j) t s
  | .finished j r => mine j → P j r s

variable {M T mine P i} {s : State σ Op Res J ε α} {x : Task Op Res J ε α}

lemma Watched.owes {s : σ} {j : J} {op : Op} (h : Watched M T mine P i x s)
    (hI : T.inv s) (hop : x.next = some (j, op)) (hj : mine j) : T.owes op s := by
  match x, h, hop with
  | .running j' (.call op' k), h, hop =>
    cases hop
    exact (h hj s (T.refl s) hI).1

lemma Watched.later (hlast : ∀ j r s s', T.moves s s' → T.inv s' → P j r s → P j r s')
    {s s' : σ} (h : Watched M T mine P i x s) (hs : T.moves s s')
    (hI : T.inv s') : Watched M T mine P i x s' := by
  cases x with
  | free => trivial
  | running j t => exact fun hj => Keeps.later (h hj) hs
  | finished j r => exact fun hj => hlast j r s s' hs hI (h hj)

variable (hM : M.Steady T) (hgiven : ∀ i j op o s, T.given i j op o s)
  (hlast : ∀ j r s s', T.moves s s' → T.inv s' → P j r s → P j r s')
  (may : J → σ → Prop)
  (hstart : ∀ j s, T.inv s → M.admits j s = true → may j s → mine j →
    Keeps M T i j (P j) (M.prog j) s)

include hlast in
lemma Watched.set (h : Watched M T mine P i (s.tasks i) s.shared) {i' : ℕ}
    {shared : σ} (hI : T.inv shared) (hs : T.moves s.shared shared)
    (hx : i = i' → Watched M T mine P i x shared) :
    Watched M T mine P i ((s.set shared i' x).tasks i) shared := by
  by_cases hi : i = i'
  · subst hi
    rw [State.tasks_set_self]
    exact hx rfl
  · rw [State.tasks_set_of_ne hi]
    exact h.later hlast hs hI

include hM hgiven hlast hstart in
lemma Watched.step (hI : T.inv s.shared) (h : Watched M T mine P i (s.tasks i) s.shared)
    (e : Event ω χ J) (he : StartsAt may s e) :
    T.inv (M.step s e).shared ∧ Watched M T mine P i ((M.step s e).tasks i) (M.step s e).shared :=
    by
  have hstep := M.stepped s e
  generalize M.step s e = s' at hstep ⊢
  cases hstep with
  | same => exact ⟨hI, h⟩
  | @start i' j _ ha =>
    exact ⟨hI, h.set hlast hI (T.refl _) fun _ => hstart j s.shared hI ha he⟩
  | ret ht | fail ht =>
    refine ⟨hI, h.set hlast hI (T.refl _) fun hi => ?_⟩
    rw [hi, ht] at h
    exact fun hj => h hj s.shared (T.refl _) hI
  | @call i' o j op k ht =>
    obtain ⟨hI', hs⟩ := hM.call op o s.shared hI
    refine ⟨hI', h.set hlast hI' hs fun hi => ?_⟩
    subst hi
    rw [ht] at h
    exact fun hj => (h hj s.shared (T.refl _) hI).2 o (hgiven ..)
  | env x => exact ⟨(hM.env x _ hI).1, h.later hlast (hM.env x _ hI).2 (hM.env x _ hI).1⟩

include hM hgiven hlast hstart in
/-- **A task can be followed through a run.** -/
theorem Watched.run (hI : T.inv s.shared) (h : Watched M T mine P i (s.tasks i) s.shared)
    (evs : List (Event ω χ J)) (he : StartsRun M may s evs) : T.inv (M.run s evs).shared ∧
      Watched M T mine P i ((M.run s evs).tasks i) (M.run s evs).shared := by
  induction evs generalizing s with
  | nil => exact ⟨hI, h⟩
  | cons e evs ih =>
    obtain ⟨hI', h'⟩ := h.step hM hgiven hlast may hstart hI e he.1
    exact ih hI' h' he.2

end Watch

end PrivChat.Tasks
