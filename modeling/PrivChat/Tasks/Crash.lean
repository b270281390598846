import PrivChat.Tasks.Prog

/-!
Code that may crash between any two of its operations, and requests that come one after the
other, each of which runs such code.

A crash gives no answer and leaves the state as the last operation left it. So what is to hold
after a crash has to hold in every state on the way, and what is to hold after an answer has to
hold where the code ends.
-/

namespace PrivChat.Tasks

variable {σ Op : Type} {Res : Op → Type} {ω J ε α β : Type}

section

variable (exec : (op : Op) → ω → σ → Res op × σ)

/-- The code runs as long as there is something for the outside world to add to its next
operation. After that it has crashed. -/
def Prog.until : Prog Op Res ε α → List ω → σ → Option (Except ε α) × σ
  | .ret a, _, s => (some (.ok a), s)
  | .fail e, _, s => (some (.error e), s)
  | .call _ _, [], s => (none, s)
  | .call op k, o :: os, s => (k (exec op o s).1).until os (exec op o s).2

/-- How the code ends if the outside world adds `o` to each operation. -/
def Prog.evaluate (o : ω) : Prog Op Res ε α → σ → Except ε α × σ
  | .ret a, s => (.ok a, s)
  | .fail e, s => (.error e, s)
  | .call op k, s => (k (exec op o s).1).evaluate o (exec op o s).2

/-- Every operation is called as `P` says, which speaks of the operation, of what the outside
world adds to it and of the state it is called in. -/
def Prog.Meets (P : Op → ω → σ → Prop) : Prog Op Res ε α → List ω → σ → Prop
  | .ret _, _, _ | .fail _, _, _ | .call _ _, [], _ => True
  | .call op k, o :: os, s => P op o s ∧ (k (exec op o s).1).Meets P os (exec op o s).2

/-- As long as every operation is called as `P` says, `I` holds in every state on the way and the
code ends as `Q` says. -/
def Throughout (P : Op → ω → σ → Prop) (I : σ → Prop) (Q : Except ε α → σ → Prop) :
    Prog Op Res ε α → σ → Prop
  | .ret a, s => I s ∧ Q (.ok a) s
  | .fail e, s => I s ∧ Q (.error e) s
  | .call op k, s => I s ∧ ∀ o, P op o s → Throughout P I Q (k (exec op o s).1) (exec op o s).2

/-- From a state with `I`, as long as every operation is called as `P` says: `I` holds in every
state on the way, and `F` where the code succeeds. -/
def Gives (P : Op → ω → σ → Prop) (I : σ → Prop) (F : α → σ → Prop) (t : Prog Op Res ε α) (s : σ) :
    Prop :=
  I s → Throughout exec P I (fun r s => ∀ a, r = .ok a → F a s) t s

/-- The requests run one after the other, and what they have answered is written down. -/
def serve (prog : J → Prog Op Res ε α) (calls : List (J × List ω))
    (x : List (J × Option (Except ε α)) × σ) : List (J × Option (Except ε α)) × σ :=
  calls.foldl (fun x c =>
    (x.1 ++ [(c.1, ((prog c.1).until exec c.2 x.2).1)], ((prog c.1).until exec c.2 x.2).2)) x

/-- The operations of all the requests are called as `P` says. -/
def ServesGiven (P : Op → ω → σ → Prop) (prog : J → Prog Op Res ε α) : List (J × List ω) → σ → Prop
  | [], _ => True
  | c :: calls, s => (prog c.1).Meets exec P c.2 s ∧
      ServesGiven P prog calls ((prog c.1).until exec c.2 s).2

variable {exec} {P : Op → ω → σ → Prop} [∀ op o s, Decidable (P op o s)]

instance Prog.decidableMeets : (t : Prog Op Res ε α) → (os : List ω) → (s : σ) →
    Decidable (t.Meets exec P os s)
  | .ret _, _, _ | .fail _, _, _ | .call _ _, [], _ => .isTrue trivial
  | .call op k, o :: os, s =>
    have := (k (exec op o s).1).decidableMeets os (exec op o s).2
    inferInstanceAs (Decidable (P op o s ∧ _))

instance decidableServesGiven (prog : J → Prog Op Res ε α) : (calls : List (J × List ω)) → (s : σ) →
    Decidable (ServesGiven exec P prog calls s)
  | [], _ => .isTrue trivial
  | c :: calls, s =>
    have := decidableServesGiven prog calls ((prog c.1).until exec c.2 s).2
    inferInstanceAs (Decidable ((prog c.1).Meets exec P c.2 s ∧ _))

end

variable {exec : (op : Op) → ω → σ → Res op × σ} {P : Op → ω → σ → Prop} {I I' : σ → Prop}
  {Q Q' : Except ε α → σ → Prop} {t : Prog Op Res ε α} {s : σ}

namespace Throughout

lemma mono (h : Throughout exec P I Q t s) (hI : ∀ s, I s → I' s)
    (hQ : ∀ r s, I s → Q r s → Q' r s) : Throughout exec P I' Q' t s := by
  induction t generalizing s with
  | ret a => exact ⟨hI _ h.1, hQ _ _ h.1 h.2⟩
  | fail e => exact ⟨hI _ h.1, hQ _ _ h.1 h.2⟩
  | call op k ih => exact ⟨hI _ h.1, fun o ho => ih _ (h.2 o ho)⟩

lemma bind {g : α → Prog Op Res ε β} {R : Except ε β → σ → Prop} (h : Throughout exec P I Q t s)
    (hok : ∀ a s, I s → Q (.ok a) s → Throughout exec P I R (g a) s)
    (herr : ∀ e s, I s → Q (.error e) s → R (.error e) s) : Throughout exec P I R (t >>= g) s := by
  induction t generalizing s with
  | ret a => exact hok a s h.1 h.2
  | fail e => exact ⟨h.1, herr e s h.1 h.2⟩
  | call op k ih => exact ⟨h.1, fun o ho => ih _ (h.2 o ho)⟩

lemma until_state (h : Throughout exec P I Q t s) {os : List ω} (hos : t.Meets exec P os s) :
    I (t.until exec os s).2 := by
  induction t generalizing s os with
  | ret a => exact h.1
  | fail e => exact h.1
  | call op k ih =>
    cases os with
    | nil => exact h.1
    | cons o os => exact ih _ (h.2 o hos.1) hos.2

lemma until_answer (h : Throughout exec P I Q t s) {os : List ω} (hos : t.Meets exec P os s)
    {r : Except ε α} (hr : (t.until exec os s).1 = some r) : Q r (t.until exec os s).2 := by
  induction t generalizing s os with
  | ret a =>
    cases hr
    exact h.2
  | fail e =>
    cases hr
    exact h.2
  | call op k ih =>
    cases os with
    | nil => cases hr
    | cons o os => exact ih _ (h.2 o hos.1) hos.2 hr

end Throughout

section Gives

variable {F : α → σ → Prop} {G : β → σ → Prop} {a : α} {e : ε}

lemma gives_ret (h : F a s) : Gives exec P I F (.ret a : Prog Op Res ε α) s := by
  refine fun hI => ⟨hI, ?_⟩
  rintro _ ⟨⟩
  exact h

lemma gives_fail : Gives exec P I F (.fail e : Prog Op Res ε α) s := fun hI => ⟨hI, nofun⟩

lemma Gives.bind {g : α → Prog Op Res ε β} (h : Gives exec P I F t s)
    (hg : ∀ a s, F a s → Gives exec P I G (g a) s) : Gives exec P I G (t >>= g) s :=
  fun hI => (h hI).bind (fun a s hs hF => hg a s (hF a rfl) hs) fun _ _ _ _ => nofun

lemma Gives.mono {F' : α → σ → Prop} (h : Gives exec P I F t s) (hF : ∀ a s, F a s → F' a s) :
    Gives exec P I F' t s :=
  fun hI => (h hI).mono (fun _ => id) fun _ s _ hr a ha => hF a s (hr a ha)

lemma Gives.attempt (h : Gives exec P I F t s) :
    Gives exec P I (fun r s => ∀ a, r = .ok a → F a s) t.attempt s := by
  intro hI
  have h' := h hI
  clear h hI
  induction t generalizing s with
  | ret a => exact ⟨h'.1, by rintro _ ⟨⟩; exact h'.2⟩
  | fail e => exact ⟨h'.1, by rintro _ ⟨⟩; exact h'.2⟩
  | call op k ih => exact ⟨h'.1, fun o ho => ih _ (h'.2 o ho)⟩

end Gives

section Evaluate

variable {o : ω} {s' : σ}

lemma Prog.evaluate_bind_ok {g : α → Prog Op Res ε β} {a : α}
    (h : t.evaluate exec o s = (.ok a, s')) :
    (t >>= g).evaluate exec o s = (g a).evaluate exec o s' := by
  induction t generalizing s with
  | ret b =>
    cases h
    rfl
  | fail e => cases h
  | call op k ih => exact ih _ h

lemma Prog.evaluate_attempt_ok {a : α} (h : t.evaluate exec o s = (.ok a, s'))
    : t.attempt.evaluate exec o s = (.ok (.ok a), s') := by
  induction t generalizing s with
  | ret b =>
    cases h
    rfl
  | fail e => cases h
  | call op k ih => exact ih _ h

end Evaluate

section Within

variable {Op' : Type} {Res' : Op' → Type} {ε' : Type}

/-- Each operation becomes code over other operations, and each error another one. -/
def Prog.within (f : (op : Op) → Prog Op' Res' ε' (Res op)) (g : ε → ε') :
    Prog Op Res ε α → Prog Op' Res' ε' α
  | .ret a => .ret a
  | .fail e => .fail (g e)
  | .call op k => f op >>= fun r => (k r).within f g

/-- The code calls no other operations. -/
def Prog.Only (ok : Op → Prop) : Prog Op Res ε α → Prop
  | .ret _ | .fail _ => True
  | .call op k => ok op ∧ ∀ r, (k r).Only ok

variable {ok : Op → Prop}

lemma Prog.Only.bind {g : α → Prog Op Res ε β}
    (ht : t.Only ok) (hg : ∀ a, (g a).Only ok) : (t >>= g).Only ok := by
  induction t with
  | ret a => exact hg a
  | fail e => trivial
  | call op k ih => exact ⟨ht.1, fun r => ih r (ht.2 r)⟩

lemma Prog.Only.attempt (ht : t.Only ok) : t.attempt.Only ok := by
  induction t with
  | ret a => trivial
  | fail e => trivial
  | call op k ih => exact ⟨ht.1, fun r => ih r (ht.2 r)⟩

lemma throughout_within {σ' : Type} {exec' : (op : Op') → ω → σ' → Res' op × σ'}
    {P' : Op' → ω → σ' → Prop} {I' : σ' → Prop}
    {f : (op : Op) → Prog Op' Res' ε' (Res op)} {g : ε → ε'} (ht : t.Only ok)
    (hop : ∀ op, ok op → ∀ s, I' s → Throughout exec' P' I' (fun _ _ => True) (f op) s) (s : σ')
    (hs : I' s) : Throughout exec' P' I' (fun _ _ => True) (t.within f g) s := by
  induction t generalizing s with
  | ret a => exact ⟨hs, trivial⟩
  | fail e => exact ⟨hs, trivial⟩
  | call op k ih =>
    exact (hop op ht.1 s hs).bind (fun r s' hs' _ => ih r (ht.2 r) s' hs') (fun _ _ _ _ => trivial)

end Within

lemma Prog.meets_true {t : Prog Op Res ε α} (os : List ω) (s : σ) :
    t.Meets exec (fun _ _ _ => True) os s := by
  induction t generalizing os s with
  | ret a => trivial
  | fail e => trivial
  | call op k ih =>
    cases os with
    | nil => trivial
    | cons o os => exact ⟨trivial, ih _ os _⟩

lemma servesGiven_true (prog : J → Prog Op Res ε α) {calls : List (J × List ω)} (s : σ) :
    ServesGiven exec (fun _ _ _ => True) prog calls s := by
  induction calls generalizing s with
  | nil => trivial
  | cons c calls ih => exact ⟨Prog.meets_true _ _, ih _⟩

variable {prog : J → Prog Op Res ε α} {P' : Op → ω → σ → Prop}

lemma Prog.Meets.mono (hP : ∀ op o s, P op o s → P' op o s)
    {os : List ω} (h : t.Meets exec P os s) : t.Meets exec P' os s := by
  induction t generalizing os s with
  | ret a => trivial
  | fail e => trivial
  | call op k ih =>
    cases os with
    | nil => trivial
    | cons o os => exact ⟨hP _ _ _ h.1, ih _ h.2⟩

variable {calls : List (J × List ω)}

lemma ServesGiven.mono (hP : ∀ op o s, P op o s → P' op o s) (h : ServesGiven exec P prog calls s) :
    ServesGiven exec P' prog calls s := by
  induction calls generalizing s with
  | nil => trivial
  | cons c calls ih => exact ⟨h.1.mono hP, ih h.2⟩

/-- **What every request keeps, whether it answers or crashes, holds after any requests.** It
may speak of the requests so far and their answers. -/
theorem serve_keeps {R : List (J × Option (Except ε α)) → σ → Prop}
    {x : List (J × Option (Except ε α)) × σ} (hstep : ∀ log, ∀ c ∈ calls, ∀ s, R log s →
      Throughout exec P (fun s' => R (log ++ [(c.1, none)]) s')
        (fun r s' => R (log ++ [(c.1, some r)]) s') (prog c.1) s)
    (hcalls : ServesGiven exec P prog calls x.2) (hx : R x.1 x.2) :
    R (serve exec prog calls x).1 (serve exec prog calls x).2 := by
  induction calls generalizing x with
  | nil => exact hx
  | cons c calls ih =>
    refine ih (fun log c' hc' => hstep log c' (List.mem_cons_of_mem _ hc')) hcalls.2 ?_
    have h := hstep x.1 c List.mem_cons_self x.2 hx
    cases hr : ((prog c.1).until exec c.2 x.2).1 with
    | none => simpa only [hr] using h.until_state hcalls.1
    | some r => simpa only [hr] using h.until_answer hcalls.1 hr

end PrivChat.Tasks
