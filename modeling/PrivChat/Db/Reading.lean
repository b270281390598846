import PrivChat.Db.Answers

/-!
Jobs that end with one reading.

The answer of such a job is what it made of the state it read. In a run among others that was
the committed state of one moment of the run, while the job was running.
-/

namespace PrivChat.Db

open Tx

variable {σ κ ω ε α β J : Type}

namespace Tx

/-- Code that has read all it will, and gives a result in `Q` or fails. -/
def Yields (Q : α → Prop) : Tx σ κ ω ε α → Prop
  | ret a => Q a
  | fail _ => True
  | commit c => c.Yields Q
  | lock _ _ | look _ _ | ask _ | write _ _ | rollback _ | snap _ => False

/-- The code can fail with the error, whatever it reads. -/
def CanFail (e : ε) : Tx σ κ ω ε α → Prop
  | ret _ => False
  | fail e' => e' = e
  | lock _ c | write _ c | commit c | rollback c => c.CanFail e
  | look _ f | snap f => ∃ s, (f s).CanFail e
  | ask f => ∃ o, (f o).CanFail e

/-- Code that has read all it will. -/
abbrev Settled (t : Tx σ κ ω ε α) : Prop := t.Yields fun _ => True

/-- Alone from here, the code ends no transaction before it fails or comes to the reading that
its result in `Q` is made of. -/
def Reads (W : List κ → ω → Prop) (Q : α → Prop) : Tx σ κ ω ε α → σ → List κ → Prop
  | fail _, _, _ => True
  | lock k c, v, h => Reads W Q c v (k :: h)
  | look adm f, v, h =>
    ((f v).Yields Q ∧ ∀ s, (f s).Settled) ∨ ∀ s, adm v s → Reads W Q (f s) v h
  | ask f, v, h => ∀ o, W h o → Reads W Q (f o) v h
  | write w c, v, h => Reads W Q c (w v) h
  | ret _, _, _ | commit _, _, _ | rollback _, _, _ | snap _, _, _ => False

variable {W : List κ → ω → Prop} {Q : α → Prop} {v : σ} {h : List κ} {e : ε}

variable {g : Unit → Tx σ κ ω ε α} {b : Bool}

lemma yields_ensure (hg : b = true → (g ()).Yields Q) : (ensure b e >>= g).Yields Q := by
  cases b
  · trivial
  · exact hg rfl

lemma canFail_ensure {e' : ε} (hf : (ensure b e >>= g).CanFail e') :
    e' = e ∨ (g ()).CanFail e' := by
  cases b
  · exact .inl (Eq.symm hf)
  · exact .inr hf

lemma reads_bind {t : Tx σ κ ω ε β} {g : β → Tx σ κ ω ε α} (ht : wp W (fun _ _ _ => False)
    (fun _ => True) (fun b v h => Reads W Q (g b) v h) t v h) : Reads W Q (t >>= g) v h := by
  induction t generalizing v h with
  | ret b => exact ht
  | fail e => trivial
  | lock k c ih => exact ih ht
  | look adm f ih => exact .inr fun s hs => ih s (ht s hs)
  | ask f ih => exact fun o ho => ih o (ht o ho)
  | write w c ih => exact ih ht
  | _ => exact ht.elim

lemma Reads.at {d : σ} {t c : Tx σ κ ω ε α} (ht : Reads W Q t d []) (ha : At W d t c v h) :
    Reads W Q c v h ∨ c.Settled := by
  induction ha with
  | start => exact .inl ht
  | lock _ ih | write _ ih => exact .inl (ih.resolve_right id)
  | look s _ hadm ih => exact (ih.resolve_right id).symm.imp (fun hf => hf s hadm) fun hf => hf.2 s
  | ask o _ ho ih => exact .inl (ih.resolve_right id o ho)

lemma Reads.phase {P : Prop} {t : Tx σ κ ω ε α} (ht : Reads W Q t v h) (hP : P) :
    P ∧ ¬ t.Settled ∨ t.Yields Q := by
  cases t with
  | fail => exact .inr trivial
  | ret | commit => exact ht.elim
  | _ => exact .inl ⟨hP, id⟩

lemma canFail_bind {t : Tx σ κ ω ε β} {g : β → Tx σ κ ω ε α} (hf : (t >>= g).CanFail e) :
    t.CanFail e ∨ ∃ b, (g b).CanFail e := by
  induction t with
  | ret b => exact .inr ⟨b, hf⟩
  | fail e => exact .inl hf
  | lock k c ih | write w c ih | commit c ih | rollback c ih => exact ih hf
  | look adm f ih | ask f ih | snap f ih =>
    obtain ⟨x, hf⟩ := hf
    exact (ih x hf).imp_left fun h => ⟨x, h⟩

end Tx

/-! ### In a run -/

variable {prog : J → Tx σ κ ω ε α} {E : Env σ ε} {A : Allow σ κ ω J} {j : J} {M : α → Prop}
  {X : ε → Prop} {s : Sys σ κ ω ε α J} {i : ℕ} {p : Proc σ κ ω ε α}

/-- The code, in the transaction that the job began with, has not read yet, or its result is one
in `M`; and it fails only with errors in `X`. -/
structure OnWay (t : Tx σ κ ω ε α) (M : α → Prop) (X : ε → Prop) (p : Proc σ κ ω ε α) : Prop where
  phase : p.seg = t ∧ ¬ p.code.Settled ∨ p.code.Yields M
  errors : ∀ e, p.code.CanFail e → X e

/-- A result in `M` or an error in `X`. -/
def Ends (M : α → Prop) (X : ε → Prop) : Except ε α → Prop
  | .ok a => M a
  | .error e => X e

/-- The process, if its job is `j`, is on its way to a result in `M` or an error in `X`, or
there. -/
abbrev Fated (prog : J → Tx σ κ ω ε α) (M : α → Prop) (X : ε → Prop) (j : J) (i : ℕ)
    (s : Sys σ κ ω ε α J) : Prop :=
  Follows (fun _ => OnWay (prog j) M X) (fun _ => Ends M X) j i s

variable [DecidableEq κ]

lemma Fated.stepProc (hg : Good prog E A s) (hr : s.procs i = .running j p) {o : ω}
    (ho : A j p.held s.db o) (hreads : Reads (fun h o => A j h s.db o) M (prog j) s.db [])
    (hf : Fated prog M X j i s) : Fated prog M X j i (s.stepProc i j p o) := by
  obtain ⟨hphase, herr⟩ := hf.running p hr
  have hok := hg.ok i j p hr
  -- what the code, alone, would do next
  have hat : ∀ c, p.code = c → ¬ c.Settled → p.seg = prog j →
      Reads (fun h o => A j h s.db o) M c (p.pend s.db) p.held := by
    rintro c rfl hc hseg
    have hat := hok.at_self fun e _ he => hc (he ▸ trivial)
    exact ((hseg ▸ hreads).at hat).resolve_right hc
  unfold Sys.stepProc
  cases hc : p.code with
  | ret a =>
    rw [hc] at hphase
    exact follows_finished Sys.set_procs_self fun _ => hphase.resolve_left fun h => h.2 trivial
  | fail e =>
    rw [hc] at herr
    exact follows_finished Sys.set_procs_self fun _ => herr e rfl
  | lock k c =>
    rw [hc] at hphase herr
    obtain ⟨hseg, -⟩ := hphase.resolve_right id
    dsimp only
    split
    · exact follows_running Sys.set_procs_self fun _ =>
        ⟨Reads.phase (t := c) (hat (.lock k c) hc id hseg) hseg, herr⟩
    · exact hf
  | look adm f =>
    rw [hc] at hphase herr
    obtain ⟨hseg, -⟩ := hphase.resolve_right id
    refine follows_running Sys.set_procs_self fun _ => ⟨?_, fun e he => herr e ⟨_, he⟩⟩
    rcases hat _ hc id hseg with h | h
    · exact .inr h.1
    · -- what it sees is what it might see alone
      have hdisc := hok.disc
      rw [hc] at hdisc
      rcases hdisc s.db hg.inv with ⟨e, -, he⟩ | ⟨P, hP, -, hadm, -⟩
      · exact .inr (by rw [he]; trivial)
      · obtain ⟨s', hs', he⟩ := hadm s.db hP
        exact (he ▸ h s' hs').phase hseg
  | ask f =>
    rw [hc] at hphase herr
    obtain ⟨hseg, -⟩ := hphase.resolve_right id
    exact follows_running Sys.set_procs_self fun _ =>
      ⟨(hat _ hc id hseg o ho).phase hseg, fun e he => herr e ⟨_, he⟩⟩
  | write w c =>
    rw [hc] at hphase herr
    obtain ⟨hseg, -⟩ := hphase.resolve_right id
    exact follows_running Sys.set_procs_self fun _ =>
      ⟨Reads.phase (t := c) (hat (.write w c) hc id hseg) hseg, herr⟩
  | commit c =>
    rw [hc] at hphase herr
    refine follows_running Sys.set_procs_self fun _ => ⟨.inr ?_, herr⟩
    exact hphase.resolve_left fun h => hat _ hc h.2 h.1
  | rollback c | snap c =>
    rw [hc] at hphase
    exact (hat _ hc id (hphase.resolve_right id).1).elim

/-- **The moment of the reading.** If, at each moment of the run when the process is on its job,
the job alone would read what a result in `M` is made of, then it has ended with such a result, or
with an error of its code, or it was stopped. -/
theorem Fated.run {evs : List (Event ω ε J)} (hD : Disciplined prog E A) (hg : Good prog E A s)
    (hevs : AllowedRun prog A s evs) (hX : ∀ e, (prog j).CanFail e ∨ .crash i e ∈ evs → X e)
    (hreads : ∀ evs1 evs2 p, evs = evs1 ++ evs2 → (s.run prog evs1).procs i = .running j p →
      Reads (fun h o => A j h (s.run prog evs1).db o) M (prog j) (s.run prog evs1).db [])
    (hf : Fated prog M X j i s) : Fated prog M X j i (s.run prog evs) := by
  induction evs generalizing s with
  | nil => exact hf
  | cons e evs ih =>
    have hnow := fun p => hreads [] (e :: evs) p rfl
    have hnext := fun p => hreads [e] evs p rfl
    have hstep : Fated prog M X j i (s.step prog e) := by
      refine hf.step (fun he hfree => ?_) (fun o p he hr => ?_) (fun x hx => ?_)
        fun _ => ⟨fun _ => id, fun _ => id⟩
      · subst he
        refine ⟨(hnext (.fresh (prog j)) ?_).phase rfl, fun e he => hX e (.inl he)⟩
        simp [Sys.run, Sys.step, hfree]
      · subst he
        exact hf.stepProc hg hr (hevs.1 _ _ hr) (hnow p hr)
      · exact hX x (.inr (by simp [hx]))
    exact ih (hg.step hD hevs.1) hevs.2 (fun x hx => hX x (hx.imp_right (List.mem_cons_of_mem _)))
      (fun evs1 evs2 p he => hreads (e :: evs1) evs2 p (by rw [he]; rfl)) hstep

end PrivChat.Db
