import PrivChat.Db.Answers

/-!
What transactions owe each other, and functions that call functions.

A pact says what holds of every committed state, and what a job may commit with the locks it has
then. A process may rely on what it has seen as long as nobody else, with other locks, may
commit anything that makes it false. Code that keeps the pact on what it may rely on keeps it among
any others that do; what it has seen it may rely on even after its transaction, if no commit at all
makes it false.

A function of the program may run several transactions and call other functions; when it
returns, what it has not committed is given up. Between two transactions others may have committed
anything, so a function that keeps a pact is shown to keep it from any state.
-/

namespace PrivChat.Db

open Tx

variable {σ κ ω ε α β J : Type}

structure Pact (σ κ J : Type) where
  inv : σ → Prop
  commits : J → List κ → σ → σ → Prop

namespace Pact

variable (P : Pact σ κ J)

/-- What nobody without the locks `h` makes false. -/
def Stable (h : List κ) (K : σ → Prop) : Prop :=
  ∀ j h' d d', h.Disjoint h' → P.inv d → P.commits j h' d d' → K d → K d'

variable {P} {h h' : List κ} {K K' : σ → Prop}

lemma Stable.and (hK : P.Stable h K) (hK' : P.Stable h K') : P.Stable h fun d => K d ∧ K' d :=
  fun j g d d' hg hd hc hKd => ⟨hK j g d d' hg hd hc hKd.1, hK' j g d d' hg hd hc hKd.2⟩

lemma Stable.more (hK : P.Stable h K) (hsub : h ⊆ h') : P.Stable h' K :=
  fun j g d d' hg => hK j g d d' fun _ hk => hg (hsub hk)

lemma stable_true : P.Stable h fun _ => True := fun _ _ _ _ _ _ _ _ => trivial

end Pact

variable (P : Pact σ κ J) (j : J)

/-- The code of the job keeps the pact, when it relies on `K`. -/
def Sure (Q : α → (σ → σ) → List κ → (σ → Prop) → Prop) :
    Tx σ κ ω ε α → (σ → σ) → List κ → (σ → Prop) → Prop
  | .ret a, p, h, K => Q a p h K
  | .fail _, _, _, _ => True
  | .lock k c, p, h, K => Sure Q c p (k :: h) K
  | .look _ f, p, h, K => ∀ d, P.inv d → K d →
      ∃ F, F d ∧ P.Stable h F ∧ Sure Q (f (p d)) p h fun d' => K d' ∧ F d'
  | .ask f, p, h, K => ∀ o, Sure Q (f o) p h K
  | .write w c, p, h, K => Sure Q c (w ∘ p) h K
  | .commit c, p, h, K => (∀ d, P.inv d → K d → P.inv (p d) ∧ P.commits j h d (p d)) ∧
      ∃ K', (∀ d, P.inv d → K d → K' (p d)) ∧ P.Stable [] K' ∧ Sure Q c id [] K'
  | .rollback c, _, _, K =>
      ∃ K', (∀ d, P.inv d → K d → K' d) ∧ P.Stable [] K' ∧ Sure Q c id [] K'
  | .snap f, _, _, K => ∀ d, P.inv d → K d →
      ∃ K', K' d ∧ P.Stable [] K' ∧ Sure Q (f d) id [] K'

/-- When the code returns, `Post` of what it returns holds of the committed state. -/
def SureOf (Post : α → σ → Prop) (t : Tx σ κ ω ε α) (p : σ → σ) (h : List κ) (K : σ → Prop) :
    Prop :=
  Sure P j (fun a _ _ K => ∀ d, P.inv d → K d → Post a d) t p h K

/-! ### Rules -/

section Rules

variable {P j} {Q : β → (σ → σ) → List κ → (σ → Prop) → Prop} {p : σ → σ} {h : List κ}
  {K : σ → Prop}

@[simp] lemma sure_fail (e : ε) : Sure P j Q (.fail e : Tx σ κ ω ε β) p h K ↔ True := Iff.rfl

@[simp] lemma sure_acquire {k : κ} {g : Unit → Tx σ κ ω ε β} :
    Sure P j Q (acquire k >>= g) p h K ↔ Sure P j Q (g ()) p (k :: h) K := Iff.rfl

@[simp] lemma sure_observe (q : ω → α) (g : α → Tx σ κ ω ε β) :
    Sure P j Q (observe q >>= g) p h K ↔ ∀ o, Sure P j Q (g (q o)) p h K := Iff.rfl

@[simp] lemma sure_update {w : σ → σ} {g : Unit → Tx σ κ ω ε β} :
    Sure P j Q (update w >>= g) p h K ↔ Sure P j Q (g ()) (w ∘ p) h K := Iff.rfl

@[simp] lemma sure_ensure (b : Bool) (e : ε) (g : Unit → Tx σ κ ω ε β) :
    Sure P j Q (ensure b e >>= g) p h K ↔ (b = true → Sure P j Q (g ()) p h K) := by
  cases b <;> simp [ensure]

@[simp] lemma sure_orFail (x : Option α) (e : ε) (g : α → Tx σ κ ω ε β) :
    Sure P j Q (orFail x e >>= g) p h K ↔ ∀ a, x = some a → Sure P j Q (g a) p h K := by
  cases x <;> simp [orFail]

variable {g : α → Tx σ κ ω ε β} {q : σ → α}

lemma sure_query (hg : ∀ a d, P.inv d → K d → q (p d) = a →
      ∃ F, F d ∧ P.Stable h F ∧ Sure P j Q (g a) p h fun d' => K d' ∧ F d') :
    Sure P j Q (query q >>= g) p h K := fun d hd hK => hg _ d hd hK rfl

lemma sure_query_any (hg : ∀ a, Sure P j Q (g a) p h K) : Sure P j Q (query q >>= g) p h K :=
  sure_query fun a _ _ _ _ => ⟨fun _ => True, trivial, Pact.stable_true, by simpa using hg a⟩

lemma sure_snapshot
    (hg : ∀ a d, P.inv d → K d → q d = a → ∃ K', K' d ∧ P.Stable [] K' ∧ Sure P j Q (g a) id [] K')
    : Sure P j Q (snapshot q >>= g) p h K := fun d hd hK => hg _ d hd hK rfl

lemma sure_done {g : Unit → Tx σ κ ω ε β} (K' : σ → Prop)
    (hc : ∀ d, P.inv d → K d → P.inv (p d) ∧ P.commits j h d (p d))
    (hK : ∀ d, P.inv d → K d → K' (p d)) (hst : P.Stable [] K') (hg : Sure P j Q (g ()) id [] K') :
    Sure P j Q (done >>= g) p h K :=
  ⟨hc, K', hK, hst, hg⟩

lemma sure_undo {g : Unit → Tx σ κ ω ε β} (hg : Sure P j Q (g ()) id [] fun _ => True) :
    Sure P j Q (undo >>= g) p h K :=
  ⟨fun _ => True, fun _ _ _ => trivial, Pact.stable_true, hg⟩

lemma sure_seq {R : α → (σ → σ) → List κ → (σ → Prop) → Prop} {t : Tx σ κ ω ε α}
    (ht : Sure P j R t p h K)
    (hg : ∀ a p h K, R a p h K → Sure P j Q (g a) p h K) : Sure P j Q (t >>= g) p h K := by
  induction t generalizing p h K with
  | ret a => exact hg a p h K ht
  | fail e => trivial
  | lock k c ih => exact ih ht
  | look adm f ih =>
    intro d hd hK
    obtain ⟨F, hF, hst, hs⟩ := ht d hd hK
    exact ⟨F, hF, hst, ih _ hs⟩
  | ask f ih => exact fun o => ih o (ht o)
  | write w c ih => exact ih ht
  | commit c ih =>
    obtain ⟨hc, K', hK, hst, hs⟩ := ht
    exact ⟨hc, K', hK, hst, ih hs⟩
  | rollback c ih =>
    obtain ⟨K', hK, hst, hs⟩ := ht
    exact ⟨K', hK, hst, ih hs⟩
  | snap f ih =>
    intro d hd hK
    obtain ⟨K', hK', hst, hs⟩ := ht d hd hK
    exact ⟨K', hK', hst, ih _ hs⟩

lemma sure_mono {Q' : β → (σ → σ) → List κ → (σ → Prop) → Prop}
    (hQ : ∀ b p h K, Q b p h K → Q' b p h K) {t : Tx σ κ ω ε β} (ht : Sure P j Q t p h K) :
    Sure P j Q' t p h K := by
  rw [← Tx.bind_ret t]
  exact sure_seq ht hQ

end Rules

section Runs

variable (Post : J → α → σ → Prop)

/-- The process keeps the pact from here, on what it may rely on now. -/
def Owes (d : σ) (j : J) (p : Proc σ κ ω ε α) : Prop :=
  ∃ K : σ → Prop, K d ∧ P.Stable p.held K ∧ SureOf P j (Post j) p.code p.pend p.held K

/-- All processes keep the pact, and what they have returned still holds. -/
abbrev Kept (s : Sys σ κ ω ε α J) : Prop :=
  Upheld P.inv (Owes P Post) (fun d j r => ∀ a, r = .ok a → Post j a d) s

variable {P Post} {s : Sys σ κ ω ε α J}

lemma Pact.upholds (hPost : ∀ j a, P.Stable [] (Post j a)) :
    Upholds P.inv P.commits anyAnswer (Owes (ω := ω) (ε := ε) P Post)
      fun d j r => ∀ a, r = .ok a → Post j a d where
  others := by
    rintro d d' j p j' h hi hdis hc ⟨K, hK, hst, hs⟩
    exact ⟨K, hst j' h d d' hdis hi hc hK, hst, hs⟩
  ended hi hc hend a ha := hPost _ a _ _ _ _ (fun _ hl => by cases hl) hi hc (hend a ha)
  error _ ha := by cases ha
  ret := by
    rintro d j p a hi ⟨K, hK, -, hs⟩ hc _ ⟨⟩
    rw [SureOf, hc] at hs
    exact hs d hi hK
  lock := by
    rintro d j p k c ⟨K, hK, hst, hs⟩ hc
    rw [SureOf, hc] at hs
    exact ⟨K, hK, hst.more (List.subset_cons_self _ _), hs⟩
  look := by
    rintro d j p adm f hi ⟨K, hK, hst, hs⟩ hc
    rw [SureOf, hc] at hs
    obtain ⟨F, hF, hFst, hs⟩ := hs d hi hK
    exact ⟨_, ⟨hK, hF⟩, hst.and hFst, hs⟩
  ask := by
    rintro d j p f o ⟨K, hK, hst, hs⟩ hc -
    rw [SureOf, hc] at hs
    exact ⟨K, hK, hst, hs o⟩
  write := by
    rintro d j p w c ⟨K, hK, hst, hs⟩ hc
    rw [SureOf, hc] at hs
    exact ⟨K, hK, hst, hs⟩
  commit := by
    rintro d j p c hi ⟨K, hK, -, hs⟩ hc
    rw [SureOf, hc] at hs
    obtain ⟨hcommit, K', hK', hst, hs⟩ := hs
    exact ⟨(hcommit d hi hK).1, (hcommit d hi hK).2, K', hK' d hi hK, hst, hs⟩
  rollback := by
    rintro d j p c hi ⟨K, hK, -, hs⟩ hc
    rw [SureOf, hc] at hs
    obtain ⟨K', hK', hst, hs⟩ := hs
    exact ⟨K', hK' d hi hK, hst, hs⟩
  snap := by
    rintro d j p f hi ⟨K, hK, -, hs⟩ hc
    rw [SureOf, hc] at hs
    exact hs d hi hK

variable [DecidableEq κ] {prog : J → Tx σ κ ω ε α}

lemma Kept.step (hk : Kept P Post s) (hPost : ∀ j a, P.Stable [] (Post j a)) (e : Event ω ε J)
    (hs : ∀ i j, e = .start i j → SureOf P j (Post j) (prog j) id [] fun _ => True) :
    Kept P Post (s.step prog e) := by
  refine Upheld.step (Pact.upholds hPost) hk ?_ fun i j he =>
    ⟨fun _ => True, trivial, Pact.stable_true, hs i j he⟩
  cases e <;> first | trivial | exact fun _ _ _ => trivial

/-- **The pact is kept in every run** of jobs that keep it. -/
theorem Kept.run (hk : Kept P Post s) (hPost : ∀ j a, P.Stable [] (Post j a))
    {evs : List (Event ω ε J)}
    (hs : ∀ i j, .start i j ∈ evs → SureOf P j (Post j) (prog j) id [] fun _ => True) :
    Kept P Post (s.run prog evs) := by
  induction evs generalizing s with
  | nil => exact hk
  | cons e evs ih =>
    refine ih (hk.step hPost e fun i j he => ?_) fun i j he => hs i j (List.mem_cons_of_mem _ he)
    exact hs i j (by simp [he])

end Runs

variable {σ κ ω ε α β γ J : Type}

namespace Tx

/-- An error of the code becomes its result. The transaction stays open. -/
def attempt : Tx σ κ ω ε α → Tx σ κ ω ε (Except ε α)
  | ret a => ret (.ok a)
  | fail e => ret (.error e)
  | lock k c => lock k c.attempt
  | look adm f => look adm fun s => (f s).attempt
  | ask f => ask fun o => (f o).attempt
  | write w c => write w c.attempt
  | commit c => commit c.attempt
  | rollback c => rollback c.attempt
  | snap f => snap fun s => (f s).attempt

/-- Call a function. Its guards and its transaction end when it returns. -/
def call (t : Tx σ κ ω ε α) : Tx σ κ ω ε (Except ε α) := do
  let r ← t.attempt
  undo
  return r

/-- The result of a call, or its error passed on. -/
def passOn : Except ε α → Tx σ κ ω ε α
  | .ok a => ret a
  | .error e => fail e

/-- Call a function, and fail if it fails. -/
def invoke (t : Tx σ κ ω ε α) : Tx σ κ ω ε α := t.call >>= passOn

end Tx

open Tx

/-! ### Functions that keep a pact -/

section Rules

variable {P : Pact σ κ J} {j : J} {Q : β → (σ → σ) → List κ → (σ → Prop) → Prop} {p : σ → σ}
  {h : List κ} {K : σ → Prop} {g : α → Tx σ κ ω ε β}

lemma sure_peek {adm : σ → σ → Prop} {q : σ → α}
    (hg : ∀ a, Sure P j Q (g a) p h K) : Sure P j Q (peek adm q >>= g) p h K :=
  fun d _ _ => ⟨fun _ => True, trivial, Pact.stable_true,
    (by simpa using hg (q (p d)) : Sure P j Q (g (q (p d))) p h fun d' => K d' ∧ True)⟩

variable {t : Tx σ κ ω ε α}

lemma Tx.Asks.sure (ht : Asks t)
    (hg : ∀ a, Sure P j Q (g a) p h K) : Sure P j Q (t >>= g) p h K := by
  induction ht with
  | ret a => exact hg a
  | fail e => trivial
  | ask _ ih => exact ih

lemma sure_attempt {Q : Except ε α → (σ → σ) → List κ → (σ → Prop) → Prop}
    (ht : Sure P j (fun a => Q (.ok a)) t p h K) (he : ∀ e p h K, Q (.error e) p h K) :
    Sure P j Q t.attempt p h K := by
  induction t generalizing p h K with
  | ret a => exact ht
  | fail e => exact he e p h K
  | lock k c ih => exact ih ht
  | look adm f ih =>
    intro d hd hK
    obtain ⟨F, hF, hst, hs⟩ := ht d hd hK
    exact ⟨F, hF, hst, ih _ hs⟩
  | ask f ih => exact fun o => ih o (ht o)
  | write w c ih => exact ih ht
  | commit c ih =>
    obtain ⟨hc, K', hK, hst, hs⟩ := ht
    exact ⟨hc, K', hK, hst, ih hs⟩
  | rollback c ih =>
    obtain ⟨K', hK, hst, hs⟩ := ht
    exact ⟨K', hK, hst, ih hs⟩
  | snap f ih =>
    intro d hd hK
    obtain ⟨K', hK', hst, hs⟩ := ht d hd hK
    exact ⟨K', hK', hst, ih _ hs⟩

end Rules

/-- A function that keeps the pact, relying on nothing when it is called. -/
def Meets (P : Pact σ κ J) (j : J) (t : Tx σ κ ω ε α) : Prop :=
  Sure P j (fun _ _ _ _ => True) t id [] fun _ => True

section Meets

variable {P : Pact σ κ J} {j : J}

lemma meets_ret {a : α} : Meets P j (.ret a : Tx σ κ ω ε α) := trivial

lemma meets_fail {e : ε} : Meets P j (.fail e : Tx σ κ ω ε α) := trivial

variable {t : Tx σ κ ω ε α}

lemma Meets.of_bind_ret (ht : Meets P j (t >>= .ret)) : Meets P j t := by
  rwa [Tx.bind_ret] at ht

variable {g : α → Tx σ κ ω ε β}

lemma meets_snapshot {q : σ → α} (hg : ∀ a, Meets P j (g a)) : Meets P j (snapshot q >>= g) :=
  sure_snapshot fun a _ _ _ _ => ⟨fun _ => True, trivial, Pact.stable_true, hg a⟩

lemma Tx.Asks.meets (ht : Asks t) (hg : ∀ a, Meets P j (g a)) : Meets P j (t >>= g) := ht.sure hg

lemma meets_call {g : Except ε α → Tx σ κ ω ε β} (ht : Meets P j t)
    (hg : ∀ r, Meets P j (g r)) : Meets P j (t.call >>= g) := by
  rw [call, bind_assoc]
  refine sure_seq (sure_attempt (Q := fun _ _ _ _ => True) ht fun _ _ _ _ => trivial)
    fun r p h K _ => ?_
  exact sure_undo (g := fun _ => g r) (hg r)

lemma meets_invoke (ht : Meets P j t) (hg : ∀ a, Meets P j (g a)) : Meets P j (t.invoke >>= g) := by
  rw [invoke, bind_assoc]
  refine meets_call ht fun r => ?_
  cases r with
  | ok a => exact hg a
  | error e => exact meets_fail

lemma meets_forEach {f : γ → Tx σ κ ω ε α} {g : Unit → Tx σ κ ω ε β} {l : List γ}
    (hf : ∀ b ∈ l, Meets P j (f b)) (hg : Meets P j (g ())) :
    Meets P j (forEach (fun b => (f b).call >>= fun _ => .ret ()) l >>= g) := by
  induction l with
  | nil => exact hg
  | cons b l ih =>
    rw [forEach, bind_assoc, bind_assoc]
    refine meets_call (hf b (by simp)) fun _ => ?_
    exact ih fun c hc => hf c (List.mem_cons_of_mem _ hc)

end Meets

def Tx.isCommit : Tx σ κ ω ε α → Bool
  | .commit _ => true
  | .ret _ | .fail _ | .lock _ _ | .look _ _ | .ask _ | .write _ _ | .rollback _ | .snap _ => false

/-- The job that commits with this event, and the locks it holds. -/
def Sys.committing (s : Sys σ κ ω ε α J) : Event ω ε J → Option (J × List κ)
  | .step i _ =>
    match s.procs i with
    | .running j p => if p.code.isCommit then some (j, p.held) else none
    | .free | .finished _ _ => none
  | .start _ _ | .crash _ _ => none

variable [DecidableEq κ] {prog : J → Tx σ κ ω ε α}

variable (prog) in
/-- Each commit of the run meets the condition on the job, its locks and the state before. -/
def CommitsMeet (K : J → List κ → σ → Prop) : Sys σ κ ω ε α J → List (Event ω ε J) → Prop
  | _, [] => True
  | s, e :: evs => (∀ c ∈ s.committing e, K c.1 c.2 s.db) ∧ CommitsMeet K (s.step prog e) evs

instance decidableCommitsMeet (K : J → List κ → σ → Prop) [∀ j h d, Decidable (K j h d)] :
    ∀ (s : Sys σ κ ω ε α J) (evs), Decidable (CommitsMeet prog K s evs)
  | _, [] => .isTrue trivial
  | s, e :: evs =>
    have := decidableCommitsMeet K (s.step prog e) evs
    inferInstanceAs (Decidable (_ ∧ _))

/-- **What each commit that meets the condition keeps, holds all through a run of them.** -/
theorem Kept.throughout_of_commits {P : Pact σ κ J} {K : J → List κ → σ → Prop} {L : σ → Prop}
    (hP : ∀ j, Meets P j (prog j))
    (hL : ∀ j h d d', P.inv d → P.commits j h d d' → K j h d → L d → L d')
    {s : Sys σ κ ω ε α J} (hk : Kept P (fun _ _ _ => True) s) (h0 : L s.db)
    (evs : List (Event ω ε J)) (hevs : CommitsMeet prog K s evs) : Throughout prog L s evs := by
  have hsure : ∀ j, SureOf P j (fun _ _ => True) (prog j) id [] fun _ => True :=
    fun j => sure_mono (fun _ _ _ _ _ _ _ _ => trivial) (hP j)
  induction evs generalizing s with
  | nil => exact h0
  | cons e evs ih =>
    have hstep : L (s.step prog e).db := by
      rcases s.commit_step prog e with hdb | ⟨i, o, j, p, c, rfl, hp, hc, -, hdb⟩
      · rwa [hdb]
      · have hown := (Pact.upholds fun _ _ => Pact.stable_true).commit hk.inv (hk.ok i j p hp) hc
        rw [hdb]
        refine hL j p.held _ _ hk.inv hown.2.1 (hevs.1 (j, p.held) ?_) h0
        simp [Sys.committing, hp, hc, isCommit]
    have hnext := hk.step (fun _ _ => Pact.stable_true) e fun _ j _ => hsure j
    exact ⟨h0, ih hnext hstep hevs.2⟩

end PrivChat.Db
