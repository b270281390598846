import PrivChat.Db.Interleave

/-!
What a finished process has answered.

A job that keeps a promise, run alone, keeps it among others too, if what the promise says
about the committed state stays true under the commits of others. And what becomes of a process: it
was started on its job, it stays with the answer it is about to give, and left alone it comes to an
end.
-/

namespace PrivChat.Db

open Tx

variable {σ κ ω ε α J : Type} {prog : J → Tx σ κ ω ε α} {E : Env σ ε} {A : Allow σ κ ω J}
  {L : σ → Prop} {j : J} {d : σ} {i : ℕ} {s : Sys σ κ ω ε α J}

/-- All states of the run satisfy `L`. -/
def Throughout [DecidableEq κ] (prog : J → Tx σ κ ω ε α) (L : σ → Prop) :
    Sys σ κ ω ε α J → List (Event ω ε J) → Prop
  | s, [] => L s.db
  | s, e :: evs => L s.db ∧ Throughout prog L (s.step prog e) evs

variable {evs : List (Event ω ε J)}

lemma Throughout.and [DecidableEq κ] {L' : σ → Prop} (h : Throughout prog L s evs)
    (h' : Throughout prog L' s evs) : Throughout prog (fun d => L d ∧ L' d) s evs := by
  induction evs generalizing s with
  | nil => exact ⟨h, h'⟩
  | cons e evs ih => exact ⟨⟨h.1, h'.1⟩, ih h.2 h'.2⟩

lemma Throughout.last [DecidableEq κ] (h : Throughout prog L s evs) : L (s.run prog evs).db := by
  induction evs generalizing s with
  | nil => exact h
  | cons e evs ih => exact ih h.2

lemma throughout_of_run [DecidableEq κ]
    (h : ∀ evs1 evs2, evs = evs1 ++ evs2 → L (s.run prog evs1).db) : Throughout prog L s evs := by
  induction evs generalizing s with
  | nil => exact h [] [] rfl
  | cons e evs ih =>
    exact ⟨h [] (e :: evs) rfl, ih fun evs1 evs2 he => h (e :: evs1) evs2 (by rw [he]; rfl)⟩

section Jobs

variable [DecidableEq κ]

lemma Sys.run_append (s : Sys σ κ ω ε α J) {evs evs' : List (Event ω ε J)} :
    s.run prog (evs ++ evs') = (s.run prog evs).run prog evs' := by
  simp [Sys.run, List.foldl_append]

lemma allowedRun_of_forall
    (h : ∀ evs1 e evs2, evs = evs1 ++ e :: evs2 → Allowed A (s.run prog evs1) e) :
    AllowedRun prog A s evs := by
  induction evs generalizing s with
  | nil => trivial
  | cons e evs ih =>
    exact ⟨h [] e evs rfl, ih fun evs1 e' evs2 he => h (e :: evs1) e' evs2 (by rw [he]; rfl)⟩

variable {p : Proc σ κ ω ε α}

lemma Sys.stepProc_procs_of_ne {k : ℕ} {j' : J} {o : ω} (hk : i ≠ k) :
    (s.stepProc k j' p o).procs i = s.procs i := by
  unfold Sys.stepProc
  split
  case h_3 => split <;> simp [Sys.set, hk]
  all_goals simp [Sys.set, Sys.release, hk]

lemma Sys.stepProc_job {j' : J} {o : ω} (hr : s.procs i = .running j' p) :
    (∃ p', (s.stepProc i j' p o).procs i = .running j' p') ∨
      ∃ r, (s.stepProc i j' p o).procs i = .finished j' r := by
  unfold Sys.stepProc
  split
  case h_3 =>
    split
    · exact .inl ⟨_, by simp [Sys.set]; rfl⟩
    · exact .inl ⟨p, hr⟩
  all_goals first
    | exact .inl ⟨_, Sys.set_procs_self⟩
    | exact .inr ⟨_, Sys.set_procs_self⟩

def Slot.job : Slot σ κ ω ε α J → Option J
  | .free => none
  | .running j _ => some j
  | .finished j _ => some j

omit [DecidableEq κ] in
lemma Slot.exists_finished {x : Slot σ κ ω ε α J} (hj : x.job = some j)
    (hr : x.result.isSome) : ∃ r, x = .finished j r := by
  cases x with
  | free => simp [Slot.job] at hj
  | running j' p => simp [Slot.result] at hr
  | finished j' r => exact ⟨r, by simp_all [Slot.job]⟩

/-- What an event makes of the system, as one process sees it: the event is another's, or leaves
what is committed, or it is a start, a statement or a crash of this process. -/
inductive Sys.Turn (prog : J → Tx σ κ ω ε α) (s : Sys σ κ ω ε α J) (i : ℕ) :
    Event ω ε J → Sys σ κ ω ε α J → Prop
  | other {e : Event ω ε J} {s' : Sys σ κ ω ε α J} (procs : s'.procs i = s.procs i)
      (idle : ∀ o, e = .step i o → s'.db = s.db) : Turn prog s i e s'
  | start {j : J} (free : s.procs i = .free) :
      Turn prog s i (.start i j) (s.set i (.running j (.fresh (prog j))))
  | step {o : ω} {j : J} {p : Proc σ κ ω ε α} (running : s.procs i = .running j p) :
      Turn prog s i (.step i o) (s.stepProc i j p o)
  | crash {x : ε} {j : J} {p : Proc σ κ ω ε α} (running : s.procs i = .running j p)
      (statement : p.code.isStatement) :
      Turn prog s i (.crash i x) ((s.release i).set i (.finished j (.error x)))

lemma Sys.turn (s : Sys σ κ ω ε α J) (prog : J → Tx σ κ ω ε α) (e : Event ω ε J) (i : ℕ) :
    s.Turn prog i e (s.step prog e) := by
  cases e with
  | start k j =>
    simp only [Sys.step]
    split
    · rename_i hfree
      by_cases hk : i = k
      · subst hk
        exact .start hfree
      · exact .other (Sys.set_procs_of_ne hk) fun _ h => by cases h
    · exact .other rfl fun _ h => by cases h
  | step k o =>
    simp only [Sys.step]
    split
    · rename_i hr
      by_cases hk : i = k
      · subst hk
        exact .step hr
      · exact .other (Sys.stepProc_procs_of_ne hk) fun _ h => absurd (Event.step.inj h).1.symm hk
    · exact .other rfl fun _ _ => rfl
  | crash k x =>
    simp only [Sys.step]
    split
    · rename_i hr
      split
      · rename_i hst
        by_cases hk : i = k
        · subst hk
          exact .crash hr hst
        · exact .other (Sys.set_procs_of_ne hk) fun _ h => by cases h
      · exact .other rfl fun _ h => by cases h
    · exact .other rfl fun _ h => by cases h

lemma Sys.step_job (s : Sys σ κ ω ε α J) {prog : J → Tx σ κ ω ε α} (e : Event ω ε J) (i : ℕ) :
    ((s.step prog e).procs i).job = (s.procs i).job ∨
      ∃ j, e = .start i j ∧ ((s.step prog e).procs i).job = some j := by
  have hturn := s.turn prog e i
  generalize s.step prog e = s' at hturn ⊢
  cases hturn with
  | other procs => exact .inl (by rw [procs])
  | start => exact .inr ⟨_, rfl, by simp [Slot.job]⟩
  | @step o _ _ hr =>
    rcases Sys.stepProc_job hr with ⟨p', hp⟩ | ⟨r, hp⟩ <;>
      exact .inl (by rw [hp, hr]; rfl)
  | crash hr => exact .inl (by rw [Sys.set_procs_self, hr]; rfl)

lemma Sys.run_job (h : ∀ j, .start i j ∉ evs) :
    ((s.run prog evs).procs i).job = (s.procs i).job := by
  induction evs generalizing s with
  | nil => rfl
  | cons e evs ih =>
    rw [show s.run prog (e :: evs) = (s.step prog e).run prog evs from rfl,
      ih fun j hj => h j (by simp [hj])]
    rcases s.step_job e i with he | ⟨j, rfl, -⟩
    · exact he
    · exact absurd (h j) (by simp)

end Jobs

/-- The process `i`, if its job is `j`, is in `R` while it runs and has ended in `F`. -/
structure Follows (R : σ → Proc σ κ ω ε α → Prop) (F : σ → Except ε α → Prop) (j : J) (i : ℕ)
    (s : Sys σ κ ω ε α J) : Prop where
  running : ∀ p, s.procs i = .running j p → R s.db p
  finished : ∀ r, s.procs i = .finished j r → F s.db r

section Follows

variable {R : σ → Proc σ κ ω ε α → Prop} {F : σ → Except ε α → Prop} {j' : J}

lemma follows_free (h : s.procs i = .free) : Follows R F j i s :=
  ⟨by simp [h], by simp [h]⟩

lemma follows_running {p : Proc σ κ ω ε α} (h : s.procs i = .running j' p)
    (hp : j' = j → R s.db p) : Follows R F j i s := by
  refine ⟨fun q hq => ?_, by simp [h]⟩
  rw [h, Slot.running.injEq] at hq
  exact hq.2 ▸ hp hq.1

lemma follows_finished {r : Except ε α} (h : s.procs i = .finished j' r)
    (hr : j' = j → F s.db r) : Follows R F j i s := by
  refine ⟨by simp [h], fun q hq => ?_⟩
  rw [h, Slot.finished.injEq] at hq
  exact hq.2 ▸ hr hq.1

lemma Follows.step [DecidableEq κ] (h : Follows R F j i s) {e : Event ω ε J}
    (hstart : e = .start i j → s.procs i = .free → R s.db (.fresh (prog j)))
    (hstep : ∀ o p, e = .step i o → s.procs i = .running j p →
      Follows R F j i (s.stepProc i j p o))
    (hcrash : ∀ x, e = .crash i x → F s.db (.error x))
    (hother : (∀ o, e = .step i o → (s.step prog e).db = s.db) →
      (∀ p, R s.db p → R (s.step prog e).db p) ∧ ∀ r, F s.db r → F (s.step prog e).db r) :
    Follows R F j i (s.step prog e) := by
  have hturn := s.turn prog e i
  generalize s.step prog e = s' at hturn hother ⊢
  cases hturn with
  | other procs idle =>
    obtain ⟨hR, hF⟩ := hother idle
    exact ⟨fun p hp => hR p (h.running p (procs ▸ hp)),
      fun r hr => hF r (h.finished r (procs ▸ hr))⟩
  | start hfree =>
    refine follows_running Sys.set_procs_self ?_
    rintro rfl
    exact hstart rfl hfree
  | @step o j' p hr =>
    by_cases hj : j' = j
    · subst hj
      exact hstep o p rfl hr
    · rcases Sys.stepProc_job hr with ⟨q, hq⟩ | ⟨r, hq⟩
      · exact follows_running hq fun h => (hj h).elim
      · exact follows_finished hq fun h => (hj h).elim
  | crash => exact follows_finished Sys.set_procs_self fun _ => hcrash _ rfl

end Follows

/-! ### Promises -/

/-- What is known of a job: of the code it starts a transaction with, and of how it ends, each
together with the committed state. -/
structure Promise (σ κ ω ε α : Type) where
  known : σ → Tx σ κ ω ε α → Prop
  ends : σ → Except ε α → Prop

/-- Each transaction of the job, run alone from a state in `L`, makes the promise good or hands
it on, and no commit of a job in `O` takes it back. -/
structure Keeps (prog : J → Tx σ κ ω ε α) (E : Env σ ε) (A : Allow σ κ ω J) (L : σ → Prop)
    (O : J → Prop) (P : Promise σ κ ω ε α) (j : J) : Prop where
  segment : ∀ d t, L d → P.known d t → wp (fun h o => A j h d o)
    (fun v _ c => ∀ d' c', c.after d v = some (d', c') → L d' → P.known d' c')
    (fun e => P.ends d (.error e)) (fun a _ _ => P.ends d (.ok a)) t d []
  known : ∀ j' h d d' t, O j' → E.inv d → L d → L d' → Commits prog A j' h d d' →
    P.known d t → P.known d' t
  ends : ∀ j' h d d' r, O j' → E.inv d → L d → L d' → Commits prog A j' h d d' →
    P.ends d r → P.ends d' r
  letGo : ∀ e d, E.letGo e → P.ends d (.error e)

/-- The process `i`, if its job is `j`, is on its way to what is promised, or there. -/
abbrev Tells (P : Promise σ κ ω ε α) (j : J) (i : ℕ) (s : Sys σ κ ω ε α J) : Prop :=
  Follows (fun d p => P.known d p.seg) P.ends j i s

variable {P : Promise σ κ ω ε α} {O : J → Prop} [DecidableEq κ]

lemma Tells.stepProc {p : Proc σ κ ω ε α} (hg : Good prog E A s) (hk : Keeps prog E A L O P j)
    (ht : Tells P j i s) (hr : s.procs i = .running j p) (o : ω) (hL : L s.db)
    (hL' : L (s.stepProc i j p o).db) : Tells P j i (s.stepProc i j p o) := by
  have hok := hg.ok i j p hr
  have hseg := ht.running p hr
  -- what the transaction, alone, would meet where the code stands
  have hat : ∀ c, p.code = c → (∀ e, E.letGo e → c ≠ .fail e) →
      wp _ _ _ _ c (p.pend s.db) p.held := fun c hc hf =>
    wp_at (hk.segment s.db p.seg hL hseg) (hc ▸ hok.at_self (hc ▸ hf))
  unfold Sys.stepProc at hL' ⊢
  split
  · rename_i a hc
    exact follows_finished Sys.set_procs_self fun _ => hat _ hc (by simp)
  · rename_i e hc
    refine follows_finished Sys.set_procs_self fun _ => ?_
    by_cases hl : E.letGo e
    · exact hk.letGo e _ hl
    · exact hat _ hc fun e' he' h => hl (by cases h; exact he')
  · split
    · exact follows_running Sys.set_procs_self fun _ => hseg
    · exact ht
  · exact follows_running Sys.set_procs_self fun _ => hseg
  · exact follows_running Sys.set_procs_self fun _ => hseg
  · exact follows_running Sys.set_procs_self fun _ => hseg
  · rename_i c hc
    simp only [hc] at hL'
    exact follows_running Sys.set_procs_self fun _ => hat _ hc (by simp) _ _ rfl hL'
  · rename_i c hc
    exact follows_running Sys.set_procs_self fun _ => hat _ hc (by simp) _ _ rfl hL
  · rename_i f hc
    exact follows_running Sys.set_procs_self fun _ => hat _ hc (by simp) _ _ rfl hL

/-- What has to hold of a run for a promise to be kept in it: the process is stopped only if
that is in the promise, is started when the promise can be made, and shares the run with jobs
in `O` only. -/
structure Watched (prog : J → Tx σ κ ω ε α) (P : Promise σ κ ω ε α) (O : J → Prop) (j : J) (i : ℕ)
    (s : Sys σ κ ω ε α J) (evs : List (Event ω ε J)) : Prop where
  crash : ∀ e d, .crash i e ∈ evs → P.ends d (.error e)
  start : ∀ evs1 evs2, evs = evs1 ++ .start i j :: evs2 → (s.run prog evs1).procs i = .free →
    P.known (s.run prog evs1).db (prog j)
  others : ∀ k j', k ≠ i → (s.procs k).job = some j' ∨ .start k j' ∈ evs → O j'

lemma Watched.tail {e : Event ω ε J}
    (h : Watched prog P O j i s (e :: evs)) : Watched prog P O j i (s.step prog e) evs where
  crash x d hx := h.crash x d (List.mem_cons_of_mem _ hx)
  start evs1 evs2 he hf := h.start (e :: evs1) evs2 (by rw [he]; rfl) hf
  others k j' hk hj := by
    refine h.others k j' hk ?_
    rcases hj with hj | hj
    · rcases s.step_job e k with he | ⟨j'', rfl, he⟩
      · exact .inl (he ▸ hj)
      · rw [he, Option.some.injEq] at hj
        exact .inr (by simp [hj])
    · exact .inr (List.mem_cons_of_mem _ hj)

/-- **Answers.** A process that has not started yet will, when it has finished, have answered as
its job does alone. -/
theorem Tells.run (hD : Disciplined prog E A) (hk : Keeps prog E A L O P j)
    (hg : Good prog E A s) (ht : Tells P j i s) (evs : List (Event ω ε J))
    (hevs : AllowedRun prog A s evs) (hw : Watched prog P O j i s evs)
    (hL : Throughout prog L s evs) : Tells P j i (s.run prog evs) := by
  induction evs generalizing s with
  | nil => exact ht
  | cons e evs ih =>
    have hL' : L (s.step prog e).db := by
      cases evs with
      | nil => exact hL.2
      | cons => exact hL.2.1
    have hstep : Tells P j i (s.step prog e) := by
      refine ht.step (fun he hf => hw.start [] evs (by rw [he]; rfl) hf) (fun o p he hr => ?_)
        (fun x hx => hw.crash x _ (by simp [hx])) fun idle => ?_
      · subst he
        simp only [Sys.step, hr] at hL'
        exact ht.stepProc hg hk hr o hL.1 hL'
      · rcases hg.db_step e with h | ⟨k, o, j', p, hek, hr, hc⟩
        · exact ⟨fun _ => h ▸ id, fun _ => h ▸ id⟩
        · by_cases hki : k = i
          · have h := idle o (hki ▸ hek)
            exact ⟨fun _ => h ▸ id, fun _ => h ▸ id⟩
          · have hO : O j' := hw.others k j' hki (.inl (by rw [hr]; rfl))
            exact ⟨fun p => hk.known j' _ _ _ p.seg hO hg.inv hL.1 hL' hc,
              fun r => hk.ends j' _ _ _ r hO hg.inv hL.1 hL' hc⟩
    exact ih (hg.step hD hevs.1) hstep hevs.2 hw.tail hL.2

lemma Good.throughout (hD : Disciplined prog E A)
    (hL : ∀ j h d d', E.inv d → L d → Commits prog A j h d d' → L d') (hg : Good prog E A s)
    (h0 : L s.db) (hevs : AllowedRun prog A s evs) : Throughout prog L s evs := by
  induction evs generalizing s with
  | nil => exact h0
  | cons e evs ih =>
    refine ⟨h0, ih (hg.step hD hevs.1) ?_ hevs.2⟩
    rcases hg.db_step e with h | ⟨i, o, j, p, -, -, h⟩
    · rw [h]
      exact h0
    · exact hL j p.held _ _ hg.inv h0 h

variable {Post : α → σ → Prop}

/-- The code is an answer that satisfies the postcondition, or a failure. -/
def Answered (Post : α → σ → Prop) (d : σ) : Tx σ κ ω ε α → Prop
  | .ret a => Post a d
  | .fail _ => True
  | _ => False

omit [DecidableEq κ] in
lemma Answered.mono {d' : σ} (hP : ∀ a, Post a d → Post a d') {c : Tx σ κ ω ε α}
    (h : Answered Post d c) : Answered Post d' c := by
  cases c with
  | ret a => exact hP a h
  | fail e => trivial
  | _ => exact h

omit [DecidableEq κ] in
lemma Answered.wp {t : Tx σ κ ω ε α} (ht : Answered Post d t) {W : List κ → ω → Prop}
    {C : σ → List κ → Tx σ κ ω ε α → Prop} :
    wp W C (fun e => ∀ a, Except.error e = .ok a → Post a d)
      (fun a _ _ => ∀ b, Except.ok (ε := ε) a = .ok b → Post b d) t d [] := by
  cases t with
  | ret a => exact fun b hb => Except.ok.inj hb ▸ ht
  | fail e => nofun
  | _ => exact ht.elim

/-- Run alone from a state in `L`, the job commits once at most, and its answer satisfies the
postcondition. -/
def Serves (prog : J → Tx σ κ ω ε α) (A : Allow σ κ ω J) (L : σ → Prop) (Post : α → σ → Prop)
    (j : J) : Prop :=
  ∀ d, L d → wp (fun h o => A j h d o)
    (fun v _ c => ∃ c', c = .commit c' ∧ (L v → Answered Post v c'))
    (fun _ => True) (fun a _ _ => Post a d) (prog j) d []

/-- The job has not committed yet, or it is about to answer. -/
def Promise.once (prog : J → Tx σ κ ω ε α) (Post : α → σ → Prop) (j : J) : Promise σ κ ω ε α where
  known d t := t = prog j ∨ Answered Post d t
  ends d r := ∀ a, r = .ok a → Post a d

omit [DecidableEq κ] in
lemma Serves.keeps (hs : Serves prog A L Post j)
    (hP : ∀ j' h d d' a, E.inv d → L d → L d' → Commits prog A j' h d d' → Post a d → Post a d') :
    Keeps prog E A L (fun _ => True) (Promise.once prog Post j) j where
  segment d t hL ht := by
    rcases ht with rfl | ht
    · refine wp_mono (fun v h c hc d' c' hnext hL' => ?_) (fun _ _ => nofun)
        (fun a _ _ ha b hb => Except.ok.inj hb ▸ ha) _ _ _ (hs d hL)
      obtain ⟨c, rfl, hans⟩ := hc
      simp only [after, Option.some.injEq, Prod.mk.injEq] at hnext
      obtain ⟨rfl, rfl⟩ := hnext
      exact .inr (hans hL')
    · exact ht.wp
  known j' h d d' t _ hI hL hL' hc ht :=
    ht.imp_right (Answered.mono fun a => hP j' h d d' a hI hL hL' hc)
  ends j' h d d' r _ hI hL hL' hc hr a ha := hP j' h d d' a hI hL hL' hc (hr a ha)
  letGo _ _ _ := nofun

lemma watched_once : Watched prog (Promise.once prog Post j) (fun _ => True) j i s evs :=
  ⟨fun _ _ _ => nofun, fun _ _ _ _ => .inl rfl, fun _ _ _ _ => trivial⟩

variable {σ κ ω ε α J : Type} [DecidableEq κ] {prog : J → Tx σ κ ω ε α} {E : Env σ ε}
  {A : Allow σ κ ω J} {s : Sys σ κ ω ε α J} {i : ℕ} {j : J} {evs : List (Event ω ε J)}
  {evs' : List (Event ω ε J)}

lemma AllowedRun.append (h : AllowedRun prog A s (evs ++ evs')) :
    AllowedRun prog A s evs ∧ AllowedRun prog A (s.run prog evs) evs' := by
  induction evs generalizing s with
  | nil => exact ⟨trivial, h⟩
  | cons e evs ih => exact ⟨⟨h.1, (ih h.2).1⟩, (ih h.2).2⟩

/-- The process is about to return the answer, or has returned it. -/
def Settled (s : Sys σ κ ω ε α J) (i : ℕ) (j : J) (a : α) : Prop :=
  (∃ p, s.procs i = .running j p ∧ p.code = .ret a) ∨ s.procs i = .finished j (.ok a)

lemma Settled.step {a : α} (h : Settled s i j a) {e : Event ω ε J} :
    Settled (s.step prog e) i j a := by
  have hturn := s.turn prog e i
  generalize s.step prog e = s' at hturn ⊢
  cases hturn with
  | other procs => simpa only [Settled, procs] using h
  | start hfree => rcases h with ⟨p, hp, -⟩ | hp <;> simp [hfree] at hp
  | step hr =>
    rcases h with ⟨p, hp, hc⟩ | hp
    · rw [hr, Slot.running.injEq] at hp
      obtain ⟨rfl, rfl⟩ := hp
      exact .inr (by simp [Sys.stepProc, hc])
    · simp [hr] at hp
  | crash hr hst =>
    rcases h with ⟨p, hp, hc⟩ | hp
    · rw [hr, Slot.running.injEq] at hp
      simp [hp.2, hc, isStatement] at hst
    · simp [hr] at hp

lemma Settled.run {a : α} (h : Settled s i j a) : Settled (s.run prog evs) i j a := by
  induction evs generalizing s with
  | nil => exact h
  | cons e evs ih => exact ih h.step

/-- **A job that answers after its commit and fails has committed nothing.** -/
theorem Good.failed_unchanged (hD : Disciplined prog E A) (hg : Good prog E A s)
    (hret : ∀ j W d v t c h, Seg prog j t → At W d t (.commit c) v h → ∃ a, c = .ret a)
    {o : ω} {e : ε} (hevs : AllowedRun prog A s (evs ++ .step i o :: evs'))
    (hf : (s.run prog (evs ++ .step i o :: evs')).procs i = .finished j (.error e)) :
    (s.run prog (evs ++ [.step i o])).db = (s.run prog evs).db := by
  have hg' := hg.run hD hevs.append.1
  rw [s.run_append]
  rcases hg'.commit_step (.step i o) with h | ⟨i', o', j', p, c, he, -, -, hp, hs, hat⟩
  · exact h
  · cases he
    obtain ⟨a, rfl⟩ := hret _ _ _ _ _ _ _ hs hat
    have hset : Settled ((s.run prog evs).step prog (.step i o)) i j' a := .inl ⟨_, hp, rfl⟩
    rw [s.run_append] at hf
    rcases hset.run with ⟨p', hp', -⟩ | hp'
    · exact absurd (hp'.symm.trans hf) (by simp)
    · exact absurd (hp'.symm.trans hf) (by simp)

/-- The job that takes a step. -/
def Sys.actor (s : Sys σ κ ω ε α J) : Event ω ε J → Option J
  | .step i _ => (s.procs i).job
  | .start _ _ | .crash _ _ => none

/-- How much the jobs singled out by `who` add to a table in the run. -/
def added (prog : J → Tx σ κ ω ε α) (who : J → Bool) (size : σ → ℕ) :
    Sys σ κ ω ε α J → List (Event ω ε J) → ℕ
  | _, [] => 0
  | s, e :: evs =>
    (if (s.actor e).any who then size (s.step prog e).db - size s.db else 0) +
      added prog who size (s.step prog e) evs

/-- **Once.** If such a job needs `free` to commit, adds one row and ends `free` for good, and
others do not touch it, at most one row is added, and one exactly if `free` has ended. -/
theorem added_once {who : J → Bool} {size : σ → ℕ} {free : σ → Prop} [DecidablePred free]
    (hD : Disciplined prog E A) (hwho : ∀ j h d d', who j = true → Commits prog A j h d d' →
      free d ∧ ¬ free d' ∧ size d' = size d + 1)
    (hother : ∀ j h d d', who j = false → Commits prog A j h d d' → (free d' ↔ free d))
    (hg : Good prog E A s) (hevs : AllowedRun prog A s evs) :
    (free (s.run prog evs).db → free s.db) ∧
      added prog who size s evs = if free s.db ∧ ¬ free (s.run prog evs).db then 1 else 0 := by
  induction evs generalizing s with
  | nil => simp [added, Sys.run]
  | cons e evs ih =>
    obtain ⟨hback, hrest⟩ := ih (hg.step hD hevs.1) hevs.2
    have hrun : s.run prog (e :: evs) = (s.step prog e).run prog evs := rfl
    rw [added, hrest, hrun]
    rcases hg.db_step e with h | ⟨i, o, j, p, rfl, hr, hc⟩
    · rw [h] at hback ⊢
      simp only [Nat.sub_self, ite_self, Nat.zero_add]
      exact ⟨hback, trivial⟩
    · have hact : s.actor (.step i o : Event ω ε J) = some j := by simp [Sys.actor, hr, Slot.job]
      rw [hact, Option.any_some]
      cases hw : who j with
      | true =>
        obtain ⟨hfree, hend, hsize⟩ := hwho j _ _ _ hw hc
        have hlast : ¬ free ((s.step prog (.step i o)).run prog evs).db := fun h => hend (hback h)
        simp [hfree, hend, hlast, hsize]
      | false =>
        have hiff := hother j _ _ _ hw hc
        simp only [hiff] at hback ⊢
        simpa using hback

/-! ### Coming to an end -/

/-- Nobody but the process holds a lock. -/
def Alone (s : Sys σ κ ω ε α J) (i : ℕ) : Prop := ∀ k i', s.locks k = some i' → i' = i

omit [DecidableEq κ] in
lemma Alone.release (h : Alone s i) (x : Slot σ κ ω ε α J) : Alone ((s.release i).set i x) i := by
  intro k i' hk
  simp only [Sys.set_locks, Sys.release] at hk
  split at hk
  · cases hk
  · exact h k i' hk

def stepsOf (i : ℕ) (o : ℕ → ω) (n : ℕ) : List (Event ω ε J) :=
  (List.range n).map fun m => .step i (o m)

omit [DecidableEq κ] in
lemma stepsOf_succ (i : ℕ) (o : ℕ → ω) (n : ℕ) : (stepsOf i o (n + 1) : List (Event ω ε J)) =
      .step i (o 0) :: stepsOf i (fun m => o (m + 1)) n := by
  simp [stepsOf, List.range_succ_eq_map, Function.comp_def]

variable (prog) in
/-- With these answers the process comes to an end. -/
def Finishes (s : Sys σ κ ω ε α J) (i : ℕ) (j : J) (o : ℕ → ω) : Prop :=
  ∃ n r, (s.run prog (stepsOf i o n)).procs i = .finished j r

lemma finishes_now {o : ℕ → ω} {r : Except ε α} (h : s.procs i = .finished j r) :
    Finishes prog s i j o :=
  ⟨0, r, h⟩

lemma Finishes.step {p : Proc σ κ ω ε α} {o : ℕ → ω} {s' : Sys σ κ ω ε α J}
    (hr : s.procs i = .running j p) (hs : s.stepProc i j p (o 0) = s')
    (h : Finishes prog s' i j fun m => o (m + 1)) : Finishes prog s i j o := by
  obtain ⟨n, r, h⟩ := h
  refine ⟨n + 1, r, ?_⟩
  rw [stepsOf_succ]
  simpa [Sys.run, Sys.step, hr, hs] using h

/-- **Left alone, a process comes to an end, whatever the answers.** -/
theorem alone_finishes {p : Proc σ κ ω ε α} (hr : s.procs i = .running j p) (hl : Alone s i)
    (o : ℕ → ω) : Finishes prog s i j o := by
  obtain ⟨c, hc⟩ : ∃ c, p.code = c := ⟨_, rfl⟩
  -- the code gets smaller with every statement
  induction c generalizing s p o with
  | ret a => exact .step hr (by rw [Sys.stepProc, hc]) (finishes_now Sys.set_procs_self)
  | fail e => exact .step hr (by rw [Sys.stepProc, hc]) (finishes_now Sys.set_procs_self)
  | lock k c ih =>
    have hfree : s.locks k = none ∨ s.locks k = some i := by
      cases hk : s.locks k with
      | none => exact .inl rfl
      | some i' => exact .inr (by rw [hl k i' hk])
    have hs : s.stepProc i j p (o 0) =
        { s.set i (.running j { p with code := c, held := k :: p.held }) with
          locks := Function.update s.locks k (some i) } := by
      rw [Sys.stepProc, hc]
      exact if_pos hfree
    refine .step hr hs (ih (p := { p with code := c, held := k :: p.held }) ?_ ?_ _ rfl)
    · exact Sys.set_procs_self
    intro k' i' hk'
    by_cases hkk : k' = k
    · subst hkk
      simpa [eq_comm] using hk'
    · exact hl k' i' (by simpa [Function.update_of_ne hkk] using hk')
  | look adm f ih =>
    exact .step hr (by rw [Sys.stepProc, hc]) (ih _ Sys.set_procs_self hl _ rfl)
  | ask f ih => exact .step hr (by rw [Sys.stepProc, hc]) (ih _ Sys.set_procs_self hl _ rfl)
  | write w c ih => exact .step hr (by rw [Sys.stepProc, hc]) (ih Sys.set_procs_self hl _ rfl)
  | commit c ih =>
    have hs : s.stepProc i j p (o 0) =
        { (s.release i).set i (.running j (.fresh c)) with db := p.pend s.db } := by
      rw [Sys.stepProc, hc]
    refine .step hr hs (ih (p := .fresh c) ?_ ?_ _ rfl)
    · exact Sys.set_procs_self
    · exact hl.release (.running j (.fresh c))
  | rollback c ih =>
    exact .step hr (by rw [Sys.stepProc, hc]) (ih Sys.set_procs_self (hl.release _) _ rfl)
  | snap f ih =>
    exact .step hr (by rw [Sys.stepProc, hc]) (ih _ Sys.set_procs_self (hl.release _) _ rfl)

end PrivChat.Db
