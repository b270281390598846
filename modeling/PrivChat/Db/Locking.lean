import PrivChat.Db.Interleave
import Mathlib.Data.Setoid.Basic

/-!
Two-phase locking.

Each lock guards a part of the state. Code that takes the lock before it reads what it relies
on, and before it writes, is disciplined; and its commits change nothing but what the locks it
holds guard.
-/

namespace PrivChat.Db

open Tx

variable {σ κ ω ε α β γ J : Type}

/-- What each lock guards: two states may be the same there. -/
structure Guards (κ σ : Type) where
  part : κ → Setoid σ

namespace Guards

variable (G : Guards κ σ)

def same (k : κ) (d d' : σ) : Prop := G.part k d' d

/-- The states differ at most in what the locks guard. -/
def Frame (h : List κ) (d d' : σ) : Prop := ∀ k, k ∉ h → G.same k d d'

/-- The states agree in what the locks guard. -/
def Agree (h : List κ) (d d' : σ) : Prop := ∀ k ∈ h, G.same k d d'

/-- What the writes make of a part depends on that part alone. -/
def Local (p : σ → σ) : Prop := ∀ k d d', G.same k d d' → G.same k (p d) (p d')

/-- The write changes nothing but what the lock guards. -/
structure Under (k : κ) (w : σ → σ) : Prop where
  isLocal : G.Local w
  frame : ∀ k' d, k' ≠ k → G.same k' d (w d)

variable {G} {h h' : List κ} {a b c : σ}

lemma Frame.trans (h1 : G.Frame h a b) (h2 : G.Frame h b c) : G.Frame h a c :=
  fun k hk => (G.part k).trans' (h2 k hk) (h1 k hk)

lemma Frame.mono (hsub : h ⊆ h') (hf : G.Frame h a b) : G.Frame h' a b :=
  fun k hk => hf k fun hk' => hk (hsub hk')

lemma Frame.agree (hf : G.Frame h' a b) (hdis : h.Disjoint h') : G.Agree h a b :=
  fun k hk => hf k (hdis hk)

lemma Agree.trans (h1 : G.Agree h a b) (h2 : G.Agree h b c) : G.Agree h a c :=
  fun k hk => (G.part k).trans' (h2 k hk) (h1 k hk)

variable {w : σ → σ}

lemma Under.of_update {τ : Type} {k : κ} {get : σ → τ} (f : τ → τ) (hpart : G.part k = .ker get)
    (hown : ∀ d, get (w d) = f (get d)) (hf : ∀ k' d, k' ≠ k → G.same k' d (w d)) :
    G.Under k w := by
  refine ⟨fun k' d d' hs => ?_, hf⟩
  by_cases hk : k' = k
  · subst hk
    rw [same, hpart, Setoid.ker_def] at hs ⊢
    rw [hown, hown, hs]
  · exact (G.part k').trans' ((G.part k').trans' (hf k' d' hk) hs) ((G.part k').symm' (hf k' d hk))

lemma Under.of_none {k : κ} (hf : ∀ k' d, G.same k' d (w d)) : G.Under k w :=
  ⟨fun k d d' hs => (G.part k).trans' ((G.part k).trans' (hf k d') hs) ((G.part k).symm' (hf k d)),
    fun k' d _ => hf k' d⟩

lemma local_id : G.Local id := fun _ _ _ => id

lemma Local.comp {p : σ → σ} (hw : G.Local w) (hp : G.Local p) : G.Local (w ∘ p) :=
  fun k d d' hk => hw k _ _ (hp k d d' hk)

end Guards

variable {G : Guards κ σ} {Q : β → List κ → Prop} {h : List κ}

/-- The code reads and writes under its locks, and returns with `Q`. -/
def Locked (G : Guards κ σ) (Q : α → List κ → Prop) : Tx σ κ ω ε α → List κ → Prop
  | .ret a, h => Q a h
  | .fail _, _ => True
  | .lock k c, h => Locked G Q c (k :: h)
  | .look adm f, h => (∀ d d', G.Agree h d d' → ∃ s, adm d' s ∧ f s = f d) ∧
      ∀ d, Locked G Q (f d) h
  | .ask f, h => ∀ o, Locked G Q (f o) h
  | .write w c, h => G.Local w ∧ (∀ d, G.Frame h d (w d)) ∧ Locked G Q c h
  | .commit c, _ => Locked G Q c []
  | .rollback c, _ => Locked G Q c []
  | .snap f, _ => ∀ d, Locked G Q (f d) []

variable {t : Tx σ κ ω ε α} {g : α → Tx σ κ ω ε β}

lemma locked_seq {P : α → List κ → Prop} (ht : Locked G P t h)
    (hg : ∀ a h, P a h → Locked G Q (g a) h) : Locked G Q (t >>= g) h := by
  induction t generalizing h with
  | ret a => exact hg a h ht
  | fail e => trivial
  | lock k c ih => exact ih ht
  | look adm f ih =>
    refine ⟨fun d d' hd => ?_, fun d => ih d (ht.2 d)⟩
    obtain ⟨s, hs, he⟩ := ht.1 d d' hd
    exact ⟨s, hs, congrArg (· >>= g) he⟩
  | ask f ih => exact fun o => ih o (ht o)
  | write w c ih => exact ⟨ht.1, ht.2.1, ih ht.2.2⟩
  | commit c ih => exact ih ht
  | rollback c ih => exact ih ht
  | snap f ih => exact fun d => ih d (ht d)

@[simp] lemma locked_fail (e : ε) : Locked G Q (.fail e : Tx σ κ ω ε β) h ↔ True := Iff.rfl

@[simp] lemma locked_acquire (k : κ) (g : Unit → Tx σ κ ω ε β) :
    Locked G Q (acquire k >>= g) h ↔ Locked G Q (g ()) (k :: h) := Iff.rfl

@[simp] lemma locked_observe (q : ω → α) (g : α → Tx σ κ ω ε β) :
    Locked G Q (observe q >>= g) h ↔ ∀ o, Locked G Q (g (q o)) h := Iff.rfl

@[simp] lemma locked_ensure (b : Bool) (e : ε) (g : Unit → Tx σ κ ω ε β) :
    Locked G Q (ensure b e >>= g) h ↔ (b = true → Locked G Q (g ()) h) := by
  cases b <;> simp [ensure]

@[simp] lemma locked_orFail (x : Option α) (e : ε) (g : α → Tx σ κ ω ε β) :
    Locked G Q (orFail x e >>= g) h ↔ ∀ a, x = some a → Locked G Q (g a) h := by
  cases x <;> simp [orFail]

lemma locked_query {q : σ → α} (hq : ∀ d d', G.Agree h d d' → q d' = q d)
    (hg : ∀ a, Locked G Q (g a) h) : Locked G Q (query q >>= g) h :=
  ⟨fun d d' hd => ⟨d', rfl, congrArg g (hq d d' hd)⟩, fun _ => hg _⟩

lemma locked_peek {q : σ → α} (hg : ∀ a, Locked G Q (g a) h) :
    Locked G Q (peek (fun _ _ => True) q >>= g) h :=
  ⟨fun d _ _ => ⟨d, trivial, rfl⟩, fun _ => hg _⟩

variable {g : Unit → Tx σ κ ω ε β}

lemma locked_update {k : κ} {w : σ → σ} (hw : G.Under k w)
    (hk : k ∈ h) (hg : Locked G Q (g ()) h) : Locked G Q (update w >>= g) h :=
  ⟨hw.isLocal, fun d k' hk' => hw.frame k' d fun he => hk' (he ▸ hk), hg⟩

lemma locked_forEach {f : γ → Tx σ κ ω ε Unit} {l : List γ}
    (hf : ∀ b h', h ⊆ h' → Locked G (fun _ h'' => h' ⊆ h'') (f b) h')
    (hg : ∀ h', h ⊆ h' → Locked G Q (g ()) h') : Locked G Q (forEach f l >>= g) h := by
  induction l generalizing h with
  | nil => exact hg h (List.Subset.refl h)
  | cons b l ih =>
    rw [forEach, bind_assoc]
    refine locked_seq (hf b h (List.Subset.refl h)) fun _ h' hh => ih (fun b' h'' hh' => ?_) ?_
    · exact hf b' h'' (List.Subset.trans hh hh')
    · exact fun h'' hh' => hg h'' (List.Subset.trans hh hh')

lemma Locked.at {W : List κ → ω → Prop} {Q : α → List κ → Prop} {d v : σ} {c : Tx σ κ ω ε α}
    (ht : Locked G Q t []) (ha : At W d t c v h) : Locked G Q c h ∧ G.Frame h d v := by
  induction ha with
  | start => exact ⟨ht, fun k _ => (G.part k).refl' d⟩
  | lock _ ih => exact ⟨ih.1, ih.2.mono (List.subset_cons_self _ _)⟩
  | look s _ _ ih => exact ⟨ih.1.2 s, ih.2⟩
  | ask o _ _ ih => exact ⟨ih.1 o, ih.2⟩
  | write _ ih => exact ⟨ih.1.2.2, ih.2.trans (ih.1.2.1 _)⟩

variable {prog : J → Tx σ κ ω ε α} {E : Env σ ε} {A : Allow σ κ ω J} {j : J} {d d' : σ}
  {Q : α → List κ → Prop}

lemma Seg.locked (hl : ∀ j, Locked G Q (prog j) []) (ht : Seg prog j t) : Locked G Q t [] := by
  induction ht with
  | start => exact hl j
  | @after t c d v h d' c' _ hat he ih =>
    have hc := (ih.at hat).1
    cases c with
    | commit | rollback => cases he; exact hc
    | snap f => cases he; exact hc d
    | ret | fail | lock | look | ask | write => simp [Tx.after] at he

/-- **A commit changes nothing but what the locks guard.** -/
theorem Commits.frame (hl : ∀ j, Locked G Q (prog j) []) (hc : Commits prog A j h d d') :
    G.Frame h d d' := by
  obtain ⟨t, c, hs, hat⟩ := hc
  exact ((hs.locked hl).at hat).2

lemma Rely.agree (hl : ∀ j, Locked G Q (prog j) []) (hr : Rely prog E h d d') : G.Agree h d d' := by
  obtain ⟨-, j, h', hdis, hc⟩ := hr
  exact (hc.frame hl).agree hdis

lemma Locked.disc {R : List κ → σ → σ → Prop} (hR : ∀ h d d', R h d d' → G.Agree h d d') {p : σ → σ}
    (ht : Locked G Q t h) (hp : G.Local p) : Disc E R (fun _ _ _ => True) t p h := by
  induction t generalizing p h with
  | ret a => trivial
  | fail e => trivial
  | lock k c ih => exact ih ht hp
  | look adm f ih =>
    intro d0 _
    refine .inr ⟨G.Agree h d0, fun k _ => (G.part k).refl' d0,
      fun d d' hr ha => ha.trans (hR _ _ _ hr), fun d ha => ?_, ih _ (ht.2 _) hp⟩
    exact ht.1 _ _ fun k hk => hp k _ _ (ha k hk)
  | ask f ih => exact fun o => ih o (ht o) hp
  | write w c ih => exact ih ht.2.2 (ht.1.comp hp)
  | commit c ih => exact ih ht Guards.local_id
  | rollback c ih => exact ih ht Guards.local_id
  | snap f ih => exact fun d _ => ih d (ht d) Guards.local_id

/-- **Two-phase locking is a discipline.** -/
theorem disciplined_of_locked (hl : ∀ j, Locked G Q (prog j) [])
    (hinv : ∀ j h d d', E.inv d → Commits prog anyAnswer j h d d' → E.inv d')
    (hA : ∀ j h o d d', G.Agree h d d' → A j h d o → A j h d' o) : Disciplined prog E A where
  inv := hinv
  allow j h o d d' hr := hA j h o d d' (hr.agree hl)
  disc j := (hl j).disc (fun _ _ _ hr => hr.agree hl) Guards.local_id

end PrivChat.Db
