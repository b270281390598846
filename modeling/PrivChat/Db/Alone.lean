import PrivChat.Db.Routine

/-!
A job that runs with nobody beside it.

`alone` runs the code from one committed state to another, given the answers it gets from
outside, in order. `Ends` is the rule by which facts about the end of all such runs are proved.
-/

namespace PrivChat.Db

variable {σ κ ω ε α β γ : Type}

namespace Tx

/-- Run the code, of which `n` questions have been answered, with `d` committed and `v` seen: what
it returns, how many questions it has asked, what is committed and what it sees then. -/
def alone (os : ℕ → ω) : Tx σ κ ω ε α → ℕ → σ → σ → Except ε α × ℕ × σ × σ
  | ret a, n, d, v => (.ok a, n, d, v)
  | fail e, n, d, v => (.error e, n, d, v)
  | lock _ c, n, d, v => c.alone os n d v
  | look _ f, n, d, v => (f v).alone os n d v
  | ask f, n, d, v => (f (os n)).alone os (n + 1) d v
  | write w c, n, d, v => c.alone os n d (w v)
  | commit c, n, _, v => c.alone os n v v
  | rollback c, n, d, _ => c.alone os n d d
  | snap f, n, d, _ => (f d).alone os n d d

/-- What the code returns when it runs alone, and what is committed then. -/
def exec (os : ℕ → ω) (t : Tx σ κ ω ε α) (d : σ) : Except ε α × σ :=
  let r := t.alone os 0 d d
  (r.1, r.2.2.1)

/-- However the answers are, if they are in `O`, the code ends with `Q` of what it returns, what is
committed and what it sees. -/
def Ends (O : ω → Prop) (Q : Except ε α → σ → σ → Prop) : Tx σ κ ω ε α → σ → σ → Prop
  | ret a, d, v => Q (.ok a) d v
  | fail e, d, v => Q (.error e) d v
  | lock _ c, d, v => c.Ends O Q d v
  | look _ f, d, v => (f v).Ends O Q d v
  | ask f, d, v => ∀ o, O o → (f o).Ends O Q d v
  | write w c, d, v => c.Ends O Q d (w v)
  | commit c, _, v => c.Ends O Q v v
  | rollback c, d, _ => c.Ends O Q d d
  | snap f, d, _ => (f d).Ends O Q d d

variable {O : ω → Prop} {d v : σ} {t : Tx σ κ ω ε α} {os : ℕ → ω} {Q : Except ε α → σ → σ → Prop}

lemma Ends.alone (ht : t.Ends O Q d v) (hO : ∀ n, O (os n)) (n : ℕ)
    : Q (t.alone os n d v).1 (t.alone os n d v).2.2.1 (t.alone os n d v).2.2.2 := by
  induction t generalizing n d v with
  | ret a => exact ht
  | fail e => exact ht
  | lock k c ih => exact ih ht n
  | look adm f ih => exact ih v ht n
  | ask f ih => exact ih (os n) (ht (os n) (hO n)) (n + 1)
  | write w c ih => exact ih ht n
  | commit c ih => exact ih ht n
  | rollback c ih => exact ih ht n
  | snap f ih => exact ih d ht n

/-- **Where the code ends by the rules, it ends when it runs alone.** -/
theorem Ends.exec
    (ht : t.Ends O Q d d) (hO : ∀ n, O (os n)) : ∃ v, Q (t.exec os d).1 (t.exec os d).2 v :=
  ⟨_, ht.alone hO 0⟩

/-! ### The rule for each statement -/

lemma ends_mono {Q' : Except ε α → σ → σ → Prop} (hQ : ∀ r d v, Q r d v → Q' r d v)
    (ht : t.Ends O Q d v) : t.Ends O Q' d v := by
  induction t generalizing d v with
  | ret a => exact hQ _ _ _ ht
  | fail e => exact hQ _ _ _ ht
  | lock k c ih => exact ih ht
  | look adm f ih => exact ih v ht
  | ask f ih => exact fun o ho => ih o (ht o ho)
  | write w c ih => exact ih ht
  | commit c ih => exact ih ht
  | rollback c ih => exact ih ht
  | snap f ih => exact ih d ht

lemma ends_true (t : Tx σ κ ω ε α) (d v : σ) : t.Ends O (fun _ _ _ => True) d v := by
  induction t generalizing d v with
  | ret a => trivial
  | fail e => trivial
  | lock k c ih => exact ih d v
  | look adm f ih => exact ih v d v
  | ask f ih => exact fun o _ => ih o d v
  | write w c ih => exact ih d (w v)
  | commit c ih => exact ih v v
  | rollback c ih => exact ih d d
  | snap f ih => exact ih d d d

variable {Q : Except ε β → σ → σ → Prop} {g : α → Tx σ κ ω ε β}

lemma ends_bind :
    (t >>= g).Ends O Q d v ↔ t.Ends O (fun r d v => match r with
      | .ok a => (g a).Ends O Q d v
      | .error e => Q (.error e) d v) d v := by
  induction t generalizing d v with
  | ret a => rfl
  | fail e => rfl
  | lock k c ih => exact ih
  | look adm f ih => exact ih v
  | ask f ih => exact forall₂_congr fun o _ => ih o
  | write w c ih => exact ih
  | commit c ih => exact ih
  | rollback c ih => exact ih
  | snap f ih => exact ih d

lemma ends_seq {P : Except ε α → σ → σ → Prop}
    (ht : t.Ends O P d v) (hg : ∀ a d v, P (.ok a) d v → (g a).Ends O Q d v)
    (he : ∀ e d v, P (.error e) d v → Q (.error e) d v) : (t >>= g).Ends O Q d v := by
  refine ends_bind.mpr (ends_mono (fun r d v hr => ?_) ht)
  cases r with
  | ok a => exact hg a d v hr
  | error e => exact he e d v hr

lemma ends_attempt {Q : Except ε (Except ε α) → σ → σ → Prop} :
    t.attempt.Ends O Q d v ↔ t.Ends O (fun r => Q (.ok r)) d v := by
  induction t generalizing d v with
  | ret a => rfl
  | fail e => rfl
  | lock k c ih => exact ih
  | look adm f ih => exact ih v
  | ask f ih => exact forall₂_congr fun o _ => ih o
  | write w c ih => exact ih
  | commit c ih => exact ih
  | rollback c ih => exact ih
  | snap f ih => exact ih d

@[simp] lemma ends_acquire {k : κ} {g : Unit → Tx σ κ ω ε β} :
    (acquire k >>= g).Ends O Q d v ↔ (g ()).Ends O Q d v := Iff.rfl

variable {q : σ → α}

@[simp] lemma ends_query :
    (query q >>= g).Ends O Q d v ↔ (g (q v)).Ends O Q d v := Iff.rfl

@[simp] lemma ends_peek {adm : σ → σ → Prop} :
    (peek adm q >>= g).Ends O Q d v ↔ (g (q v)).Ends O Q d v := Iff.rfl

@[simp] lemma ends_observe {q : ω → α} :
    (observe q >>= g).Ends O Q d v ↔ ∀ o, O o → (g (q o)).Ends O Q d v := Iff.rfl

@[simp] lemma ends_update {w : σ → σ} {g : Unit → Tx σ κ ω ε β} :
    (update w >>= g).Ends O Q d v ↔ (g ()).Ends O Q d (w v) := Iff.rfl

@[simp] lemma ends_done {g : Unit → Tx σ κ ω ε β} :
    (done >>= g).Ends O Q d v ↔ (g ()).Ends O Q v v := Iff.rfl

@[simp] lemma ends_undo {g : Unit → Tx σ κ ω ε β} :
    (undo >>= g).Ends O Q d v ↔ (g ()).Ends O Q d d := Iff.rfl

@[simp] lemma ends_ensure {b : Bool} {e : ε} {g : Unit → Tx σ κ ω ε β} :
    (ensure b e >>= g).Ends O Q d v ↔
      if b then (g ()).Ends O Q d v else Q (.error e) d v := by
  cases b <;> rfl

variable {P : Except ε α → σ → Prop}

lemma ends_call
    {g : Except ε α → Tx σ κ ω ε β} (ht : t.Ends O (fun r d _ => P r d) d v)
    (hg : ∀ r d, P r d → (g r).Ends O Q d d) : (t.call >>= g).Ends O Q d v := by
  rw [call, bind_assoc, ends_bind, ends_attempt]
  exact ends_mono (fun r d _ hr => hg r d hr) ht

lemma Asks.ends (ht : Asks t)
    (hg : ∀ a, (g a).Ends O Q d v) (he : ∀ e, Q (.error e) d v) : (t >>= g).Ends O Q d v := by
  induction ht with
  | ret a => exact hg a
  | fail e => exact he e
  | ask _ ih => exact fun o _ => ih o

lemma ends_forEach {f : γ → Tx σ κ ω ε Unit} {g : Unit → Tx σ κ ω ε β} {l : List γ}
    (I : List γ → σ → σ → Prop) (h0 : I l d v)
    (hf : ∀ b rest d v, b ∈ l → I (b :: rest) d v →
      (f b).Ends O (fun r d v => match r with
        | .ok _ => I rest d v
        | .error e => Q (.error e) d v) d v)
    (hg : ∀ d v, I [] d v → (g ()).Ends O Q d v) : (forEach f l >>= g).Ends O Q d v := by
  induction l generalizing d v with
  | nil => exact hg d v h0
  | cons b l ih =>
    rw [forEach, bind_assoc]
    refine ends_seq (hf b l d v (by simp) h0) (fun _ d v hI => ?_) fun e d v he => he
    exact ih hI fun c rest d v hc => hf c rest d v (List.mem_cons_of_mem _ hc)

/-- However the code ends, `P` holds of what it returns and what is committed then. -/
def Leaves (O : ω → Prop) (P : Except ε α → σ → Prop) (t : Tx σ κ ω ε α) (d : σ) : Prop :=
  t.Ends O (fun r d' _ => P r d') d d

/-- If there is a result, `P` holds of it. -/
def okThen (P : α → σ → Prop) : Except ε α → σ → Prop
  | .ok a, d => P a d
  | .error _, _ => True

lemma Leaves.exec
    (ht : Leaves O P t d) (hO : ∀ n, O (os n)) : P (t.exec os d).1 (t.exec os d).2 := by
  obtain ⟨-, h⟩ := Ends.exec ht hO
  exact h

variable {P : Except ε α → σ → Prop} {R : Except ε β → σ → Prop}

lemma Leaves.mono {P' : Except ε α → σ → Prop} (ht : Leaves O P t d)
    (hP : ∀ r d, P r d → P' r d) : Leaves O P' t d := ends_mono (fun r d _ => hP r d) ht

lemma Leaves.ok_mono {P P' : α → σ → Prop} (ht : Leaves O (okThen P) t d)
    (hP : ∀ a d, P a d → P' a d) : Leaves O (okThen P') t d := by
  refine ht.mono fun r d hr => ?_
  cases r with
  | ok a => exact hP a d hr
  | error e => trivial

lemma Leaves.of_bind_ret (ht : Leaves O P (t >>= ret) d) : Leaves O P t d := by
  rwa [Tx.bind_ret] at ht

lemma leaves_ret {b : β} (h : R (.ok b) d) : Leaves O R (ret b : Tx σ κ ω ε β) d := h

lemma leaves_fail {e : ε} (h : R (.error e) d) : Leaves O R (fail e : Tx σ κ ω ε β) d := h

variable {k : α → Tx σ κ ω ε β}

lemma leaves_snapshot (hk : Leaves O R (k (q d)) d) :
    Leaves O R (snapshot q >>= k) d := hk

lemma leaves_observe {q : ω → α} (hk : ∀ o, O o → Leaves O R (k (q o)) d) :
    Leaves O R (observe q >>= k) d := hk

lemma leaves_asks (ht : Asks t)
    (hk : ∀ a, Leaves O R (k a) d) (he : ∀ e, R (.error e) d) : Leaves O R (t >>= k) d :=
  ht.ends hk he

lemma leaves_call {k : Except ε α → Tx σ κ ω ε β} (ht : Leaves O P t d)
    (hk : ∀ r d', P r d' → Leaves O R (k r) d') : Leaves O R (t.call >>= k) d :=
  ends_call ht hk

lemma leaves_invoke (ht : Leaves O P t d) (hk : ∀ a d', P (.ok a) d' → Leaves O R (k a) d')
    (he : ∀ e d', P (.error e) d' → R (.error e) d') : Leaves O R (t.invoke >>= k) d := by
  rw [invoke, bind_assoc]
  refine leaves_call ht fun r d' hr => ?_
  cases r with
  | ok a => exact hk a d' hr
  | error e => exact he e d' hr

lemma leaves_invoke_tail (ht : Leaves O P t d) : Leaves O P t.invoke d := by
  rw [← Tx.bind_ret t.invoke]
  exact leaves_invoke ht (fun _ _ h => h) fun _ _ h => h

variable {R : β → σ → Prop}

lemma leaves_invoke_ok {P : α → σ → Prop} (ht : Leaves O (okThen P) t d)
    (hk : ∀ a d', P a d' → Leaves O (okThen R) (k a) d') : Leaves O (okThen R) (t.invoke >>= k) d :=
  leaves_invoke ht hk fun _ _ _ => trivial

lemma leaves_map {P : α → σ → Prop} {f : α → β} (ht : Leaves O (okThen P) t d)
    (hR : ∀ a d, P a d → R (f a) d) : Leaves O (okThen R) (f <$> t) d := by
  refine ends_bind.mpr (ends_mono (fun r d _ hr => ?_) ht)
  cases r with
  | ok a => exact hR a d hr
  | error e => trivial

end Tx

end PrivChat.Db
