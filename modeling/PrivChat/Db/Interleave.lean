import PrivChat.Db.Tx

/-!
Transactions running at the same time.

A statement of one transaction may run between any two statements of another. A statement
sees what is committed when it runs, together with the writes of its own transaction; a
lock is held to the end of the transaction; at a commit the writes appear at once.

A transaction is disciplined if it relies, to its end, only on answers that the locks it
holds keep stable. Disciplined transactions commit one after the other: each commit takes
the committed state to where the transaction, run alone from that state, would take it.
-/

namespace PrivChat.Db

open Tx

variable {σ κ ω ε α β J : Type}

/-- Code on its way: the code at the start of its transaction, the code still to run, the
writes not yet committed, and the locks. -/
structure Proc (σ κ ω ε α : Type) where
  seg : Tx σ κ ω ε α
  code : Tx σ κ ω ε α
  pend : σ → σ
  held : List κ

/-- The code at the start of a transaction. -/
def Proc.fresh (t : Tx σ κ ω ε α) : Proc σ κ ω ε α := ⟨t, t, id, []⟩

inductive Slot (σ κ ω ε α J : Type)
  | free
  | running (j : J) (p : Proc σ κ ω ε α)
  | finished (j : J) (r : Except ε α)

def Slot.result : Slot σ κ ω ε α J → Option (Except ε α)
  | .finished _ r => some r
  | .free | .running _ _ => none

structure Sys (σ κ ω ε α J : Type) where
  db : σ
  locks : κ → Option ℕ
  procs : ℕ → Slot σ κ ω ε α J

def Sys.init (d : σ) : Sys σ κ ω ε α J := ⟨d, fun _ => none, fun _ => .free⟩

/-- A process starts on a job, runs its next statement with an answer at hand should it
ask for one, or is stopped because the statement fails in the database. -/
inductive Event (ω ε J : Type)
  | start (i : ℕ) (j : J)
  | step (i : ℕ) (o : ω)
  | crash (i : ℕ) (e : ε)

namespace Sys

variable (s : Sys σ κ ω ε α J)

def set (i : ℕ) (x : Slot σ κ ω ε α J) : Sys σ κ ω ε α J :=
  { s with procs := Function.update s.procs i x }

def release (i : ℕ) : Sys σ κ ω ε α J :=
  { s with locks := fun k => if s.locks k = some i then none else s.locks k }

variable [DecidableEq κ]

/-- The next statement of a process. A lock that another process holds blocks it. -/
def stepProc (i : ℕ) (j : J) (p : Proc σ κ ω ε α) (o : ω) : Sys σ κ ω ε α J :=
  match p.code with
  | .ret a => (s.release i).set i (.finished j (.ok a))
  | .fail e => (s.release i).set i (.finished j (.error e))
  | .lock k c =>
    if s.locks k = none ∨ s.locks k = some i then
      { s.set i (.running j { p with code := c, held := k :: p.held }) with
        locks := Function.update s.locks k (some i) }
    else s
  | .look _ f => s.set i (.running j { p with code := f (p.pend s.db) })
  | .ask f => s.set i (.running j { p with code := f o })
  | .write w c => s.set i (.running j { p with code := c, pend := w ∘ p.pend })
  | .commit c => { (s.release i).set i (.running j (.fresh c)) with db := p.pend s.db }
  | .rollback c => (s.release i).set i (.running j (.fresh c))
  | .snap f => (s.release i).set i (.running j (.fresh (f s.db)))

def step (prog : J → Tx σ κ ω ε α) : Event ω ε J → Sys σ κ ω ε α J
  | .start i j =>
    match s.procs i with
    | .free => s.set i (.running j (.fresh (prog j)))
    | _ => s
  | .step i o =>
    match s.procs i with
    | .running j p => s.stepProc i j p o
    | _ => s
  | .crash i e =>
    match s.procs i with
    | .running j p =>
      if p.code.isStatement then (s.release i).set i (.finished j (.error e)) else s
    | _ => s

def run (prog : J → Tx σ κ ω ε α) (evs : List (Event ω ε J)) : Sys σ κ ω ε α J :=
  evs.foldl (fun s e => s.step prog e) s

end Sys

/-- The answers a job with these locks may get while the state is what it is. -/
abbrev Allow (σ κ ω J : Type) := J → List κ → σ → ω → Prop

def anyAnswer : Allow σ κ ω J := fun _ _ _ _ => True

def Allowed (A : Allow σ κ ω J) (s : Sys σ κ ω ε α J) : Event ω ε J → Prop
  | .step i o => ∀ j p, s.procs i = .running j p → A j p.held s.db o
  | _ => True

/-! ### Processes on their way -/

section Upheld

variable (inv : σ → Prop) (commits : J → List κ → σ → σ → Prop) (A : Allow σ κ ω J)
  (Ok : σ → J → Proc σ κ ω ε α → Prop) (End : σ → J → Except ε α → Prop)

/-- What is to be shown of one process: its own statements keep `Ok`, and end with `End`; and so do
the commits of others, under other locks. -/
structure Upholds : Prop where
  others : ∀ {d d' j p j' h}, inv d → p.held.Disjoint h → commits j' h d d' → Ok d j p → Ok d' j p
  ended : ∀ {d d' j r j' h}, inv d → commits j' h d d' → End d j r → End d' j r
  ret : ∀ {d j p a}, inv d → Ok d j p → p.code = .ret a → End d j (.ok a)
  error : ∀ {d j e}, End d j (.error e)
  lock : ∀ {d j p k c}, Ok d j p → p.code = .lock k c →
    Ok d j { p with code := c, held := k :: p.held }
  look : ∀ {d j p adm f}, inv d → Ok d j p → p.code = .look adm f →
    Ok d j { p with code := f (p.pend d) }
  ask : ∀ {d j p f o}, Ok d j p → p.code = .ask f → A j p.held d o → Ok d j { p with code := f o }
  write : ∀ {d j p w c}, Ok d j p → p.code = .write w c →
    Ok d j { p with code := c, pend := w ∘ p.pend }
  commit : ∀ {d j p c}, inv d → Ok d j p → p.code = .commit c →
    inv (p.pend d) ∧ commits j p.held d (p.pend d) ∧ Ok (p.pend d) j (.fresh c)
  rollback : ∀ {d j p c}, inv d → Ok d j p → p.code = .rollback c → Ok d j (.fresh c)
  snap : ∀ {d j p f}, inv d → Ok d j p → p.code = .snap f → Ok d j (.fresh (f d))

structure Upheld (s : Sys σ κ ω ε α J) : Prop where
  inv : inv s.db
  ok : ∀ i j p, s.procs i = .running j p → Ok s.db j p
  finished : ∀ i j r, s.procs i = .finished j r → End s.db j r
  locks : ∀ i j p k, s.procs i = .running j p → k ∈ p.held → s.locks k = some i

variable {inv commits A Ok End} {s : Sys σ κ ω ε α J} {i : ℕ} {j : J} {p : Proc σ κ ω ε α}

lemma upheld_init {d : σ} (h : inv d) : Upheld inv Ok End (Sys.init d : Sys σ κ ω ε α J) :=
  ⟨h, fun i j p hp => by simp [Sys.init] at hp, fun i j r hp => by simp [Sys.init] at hp,
    fun i j p k hp => by simp [Sys.init] at hp⟩

variable {x : Slot σ κ ω ε α J}

@[simp] lemma Sys.set_db (x : Slot σ κ ω ε α J) : (s.set i x).db = s.db := rfl
@[simp] lemma Sys.set_locks (x : Slot σ κ ω ε α J) : (s.set i x).locks = s.locks := rfl
@[simp] lemma Sys.set_procs_self : (s.set i x).procs i = x := by
  simp [Sys.set]
lemma Sys.set_procs_of_ne {k : ℕ} (h : k ≠ i) : (s.set i x).procs k = s.procs k := by
  simp [Sys.set, h]
@[simp] lemma Sys.release_db : (s.release i).db = s.db := rfl
@[simp] lemma Sys.release_procs : (s.release i).procs = s.procs := rfl

lemma Sys.release_locks_of_ne {k : ℕ} {l : κ} (hk : k ≠ i) (h : s.locks l = some k) :
    (s.release i).locks l = some k := by
  simp [Sys.release, h, hk]

variable (hR : Upholds inv commits A Ok End) (hu : Upheld inv Ok End s)

include hR hu

/-- Process `i` goes from one system state to another: the others stay where they are and
keep their locks, and what is committed stays or moves by a commit of process `i`. -/
lemma Upheld.update {s' : Sys σ κ ω ε α J} (hi : inv s'.db)
    (hx : s'.procs = Function.update s.procs i x)
    (hl : ∀ k l, k ≠ i → s.locks l = some k → s'.locks l = some k)
    (hdb : s'.db = s.db ∨ ∃ j h, (∀ l ∈ h, s.locks l = some i) ∧ commits j h s.db s'.db)
    (hrun : ∀ j p, x = .running j p → Ok s'.db j p ∧ ∀ l ∈ p.held, s'.locks l = some i)
    (hend : ∀ j r, x = .finished j r → End s'.db j r) : Upheld inv Ok End s' := by
  have hself : s'.procs i = x := by rw [hx, Function.update_self]
  have hother : ∀ k, k ≠ i → s'.procs k = s.procs k :=
    fun k hk => by rw [hx, Function.update_of_ne hk]
  refine ⟨hi, fun k j p hk => ?_, fun k j r hk => ?_, fun k j p l hk hl' => ?_⟩
  · by_cases hki : k = i
    · subst hki
      exact (hrun j p (hself.symm.trans hk)).1
    · rw [hother k hki] at hk
      rcases hdb with hdb | ⟨j', h', hown, hc⟩
      · exact hdb ▸ hu.ok k j p hk
      · refine hR.others hu.inv (fun l hl1 hl2 => hki ?_) hc (hu.ok k j p hk)
        have h1 := hu.locks k j p l hk hl1
        rw [hown l hl2] at h1
        exact (Option.some.inj h1).symm
  · by_cases hki : k = i
    · subst hki
      exact hend j r (hself.symm.trans hk)
    · rw [hother k hki] at hk
      rcases hdb with hdb | ⟨j', h', -, hc⟩
      · exact hdb ▸ hu.finished k j r hk
      · exact hR.ended hu.inv hc (hu.finished k j r hk)
  · by_cases hki : k = i
    · subst hki
      exact (hrun j p (hself.symm.trans hk)).2 l hl'
    · exact hl k l hki (hu.locks k j p l (hother k hki ▸ hk) hl')

lemma Upheld.ends {r : Except ε α}
    (hend : End s.db j r) : Upheld inv Ok End ((s.release i).set i (.finished j r)) := by
  refine hu.update hR hu.inv rfl (fun k l hk hl => Sys.release_locks_of_ne hk hl) (.inl rfl)
    (fun _ _ h => by cases h) fun _ _ h => ?_
  cases h
  exact hend

lemma Upheld.renews {t : Tx σ κ ω ε α} (hok : Ok s.db j (.fresh t)) :
    Upheld inv Ok End ((s.release i).set i (.running j (.fresh t))) := by
  refine hu.update hR hu.inv rfl (fun k l hk hl => Sys.release_locks_of_ne hk hl) (.inl rfl)
    (fun _ _ h => ?_) fun _ _ h => by cases h
  cases h
  exact ⟨hok, fun l hl => by cases hl⟩

lemma Upheld.move {p' : Proc σ κ ω ε α} (hr : s.procs i = .running j p) (hok : Ok s.db j p')
    (hh : p'.held = p.held) : Upheld inv Ok End (s.set i (.running j p')) := by
  refine hu.update hR hu.inv rfl (fun _ _ _ hl => hl) (.inl rfl) (fun _ _ h => ?_)
    fun _ _ h => by cases h
  cases h
  exact ⟨hok, fun l hl => hu.locks i j p l hr (hh ▸ hl)⟩

variable [DecidableEq κ]

lemma Upheld.stepProc (hr : s.procs i = .running j p) (o : ω) (ho : A j p.held s.db o) :
    Upheld inv Ok End (s.stepProc i j p o) := by
  have hok := hu.ok i j p hr
  unfold Sys.stepProc
  cases hc : p.code with
  | ret a => exact hu.ends hR (hR.ret hu.inv hok hc)
  | fail e => exact hu.ends hR hR.error
  | lock k c =>
    dsimp only
    split
    · rename_i hfree
      refine hu.update hR hu.inv rfl (fun m l hm hl => ?_) (.inl rfl) (fun _ _ h => ?_)
        fun _ _ h => by cases h
      · by_cases hlk : l = k
        · -- the lock just taken was not another's
          rcases hfree with h | h <;> simp_all
        · simpa [Function.update_of_ne hlk] using hl
      · cases h
        refine ⟨hR.lock hok hc, fun l hl => ?_⟩
        by_cases hlk : l = k
        · simp [hlk]
        · have hmem : l ∈ p.held := by simpa [hlk] using hl
          simpa [Function.update_of_ne hlk] using hu.locks i j p l hr hmem
    · exact hu
  | look adm f => exact hu.move hR hr (hR.look hu.inv hok hc) rfl
  | ask f => exact hu.move hR hr (hR.ask hok hc ho) rfl
  | write w c => exact hu.move hR hr (hR.write hok hc) rfl
  | commit c =>
    obtain ⟨hinv, hcommit, hfresh⟩ := hR.commit hu.inv hok hc
    refine hu.update hR hinv rfl (fun k l hk hl => Sys.release_locks_of_ne hk hl)
      (.inr ⟨j, p.held, fun l hl => hu.locks i j p l hr hl, hcommit⟩) (fun _ _ h => ?_)
      fun _ _ h => by cases h
    cases h
    exact ⟨hfresh, fun l hl => by cases hl⟩
  | rollback c => exact hu.renews hR (hR.rollback hu.inv hok hc)
  | snap f => exact hu.renews hR (hR.snap hu.inv hok hc)

variable {prog : J → Tx σ κ ω ε α}

/-- **Each step upholds it**, if the job of a process that starts is one that does. -/
theorem Upheld.step {e : Event ω ε J}
    (he : Allowed A s e) (hs : ∀ i j, e = .start i j → Ok s.db j (.fresh (prog j))) :
    Upheld inv Ok End (s.step prog e) := by
  cases e with
  | start i j =>
    simp only [Sys.step]
    split
    · refine hu.update hR hu.inv rfl (fun _ _ _ hl => hl) (.inl rfl) (fun _ _ h => ?_)
        fun _ _ h => by cases h
      cases h
      exact ⟨hs i j rfl, fun l hl => by cases hl⟩
    · exact hu
  | step i o =>
    simp only [Sys.step]
    split
    · rename_i hr
      exact hu.stepProc hR hr o (he _ _ hr)
    · exact hu
  | crash i e =>
    simp only [Sys.step]
    split
    · split
      · exact hu.ends hR hR.error
      · exact hu
    · exact hu

variable (prog s) in
omit hR hu in
/-- A step that moves the committed state is the commit of a process, and the process goes on
with the code after it. -/
lemma Sys.commit_step (e : Event ω ε J) : (s.step prog e).db = s.db ∨
    ∃ i o j p c, e = .step i o ∧ s.procs i = .running j p ∧ p.code = .commit c ∧
      (s.step prog e).procs i = .running j (.fresh c) ∧ (s.step prog e).db = p.pend s.db := by
  cases e with
  | start i j => simp only [Sys.step]; split <;> exact .inl rfl
  | crash i e =>
    simp only [Sys.step]
    split
    · split <;> exact .inl rfl
    · exact .inl rfl
  | step i o =>
    simp only [Sys.step]
    split
    · rename_i j p hr
      unfold Sys.stepProc
      split
      case h_7 c hc => exact .inr ⟨i, o, j, p, c, rfl, hr, hc, Sys.set_procs_self, rfl⟩
      case h_3 => split <;> exact .inl rfl
      all_goals exact .inl rfl
    · exact .inl rfl

end Upheld

/-! ### The discipline -/

/-- What holds of every committed state, and the errors whose reasons need not last to the end
of the transaction that fails with them. -/
structure Env (σ ε : Type) where
  inv : σ → Prop
  letGo : ε → Prop

variable (prog : J → Tx σ κ ω ε α) (E : Env σ ε) (A : Allow σ κ ω J)

/-- The code a job starts its transactions with. -/
inductive Seg (j : J) : Tx σ κ ω ε α → Prop
  | start : Seg j (prog j)
  | after {t c d v h d' c'} : Seg j t → At (fun _ _ => True) d t c v h →
      c.after d v = some (d', c') → Seg j c'

/-- A job, alone, takes the committed state `d` to `d'` and holds the locks `h` then. -/
def Commits (j : J) (h : List κ) (d d' : σ) : Prop :=
  ∃ t c, Seg prog j t ∧ At (fun h o => A j h d o) d t (.commit c) d' h

variable {prog A} in
lemma Commits.any {j : J} {h : List κ} {d d' : σ} (hc : Commits prog A j h d d') :
    Commits prog anyAnswer j h d d' := by
  obtain ⟨t, c, hs, hat⟩ := hc
  exact ⟨t, c, hs, hat.mono fun _ _ _ => trivial⟩

/-- What others may commit while the locks `h` are held. -/
def Rely (h : List κ) (d d' : σ) : Prop :=
  E.inv d ∧ ∃ j h', h.Disjoint h' ∧ Commits prog anyAnswer j h' d d'

def Stable (R : List κ → σ → σ → Prop) (h : List κ) (P : σ → Prop) : Prop :=
  ∀ d d', R h d d' → P d → P d'

/-- Every answer the code goes on with is one that stays good under `R`. -/
def Disc (E : Env σ ε) (R : List κ → σ → σ → Prop) (Q : α → (σ → σ) → List κ → Prop) :
    Tx σ κ ω ε α → (σ → σ) → List κ → Prop
  | .ret a, p, h => Q a p h
  | .fail _, _, _ => True
  | .lock k c, p, h => Disc E R Q c p (k :: h)
  | .look adm f, p, h => ∀ d0, E.inv d0 → (∃ e, E.letGo e ∧ f (p d0) = .fail e) ∨
      ∃ P : σ → Prop, P d0 ∧ Stable R h P ∧
        (∀ d, P d → ∃ s, adm (p d) s ∧ f s = f (p d0)) ∧ Disc E R Q (f (p d0)) p h
  | .ask f, p, h => ∀ o, Disc E R Q (f o) p h
  | .write w c, p, h => Disc E R Q c (w ∘ p) h
  | .commit c, _, _ => Disc E R Q c id []
  | .rollback c, _, _ => Disc E R Q c id []
  | .snap f, _, _ => ∀ d, E.inv d → Disc E R Q (f d) id []

/-- The code has come where its transaction, run alone from `d`, would have come; and this
stays so under `R`. Code about to fail may be let go. -/
def Tracked (E : Env σ ε) (R : List κ → σ → σ → Prop) (W : List κ → σ → ω → Prop) (d : σ)
    (p : Proc σ κ ω ε α) : Prop :=
  (∃ e, E.letGo e ∧ p.code = .fail e) ∨
    ∃ P : σ → Prop, P d ∧ Stable R p.held P ∧
      ∀ d, P d → At (fun h o => W h d o) d p.seg p.code (p.pend d) p.held

structure ProcOk (d : σ) (j : J) (p : Proc σ κ ω ε α) : Prop where
  seg : Seg prog j p.seg
  disc : Disc E (Rely prog E) (fun _ _ _ => True) p.code p.pend p.held
  tracked : Tracked E (Rely prog E) (A j) d p

abbrev Good (s : Sys σ κ ω ε α J) : Prop := Upheld E.inv (ProcOk prog E A) (fun _ _ _ => True) s

def AllowedRun [DecidableEq κ] : Sys σ κ ω ε α J → List (Event ω ε J) → Prop
  | _, [] => True
  | s, e :: evs => Allowed A s e ∧ AllowedRun (s.step prog e) evs

instance [∀ j h d o, Decidable (A j h d o)] (s : Sys σ κ ω ε α J) : ∀ e, Decidable (Allowed A s e)
  | .step i o =>
    match hs : s.procs i with
    | .running j p => decidable_of_iff (A j p.held s.db o) (by simp [Allowed, hs])
    | .free | .finished _ _ => .isTrue (by simp [Allowed, hs])
  | .start _ _ | .crash _ _ => .isTrue trivial

instance decidableAllowedRun [DecidableEq κ] [∀ j h d o, Decidable (A j h d o)] :
    ∀ (s : Sys σ κ ω ε α J) (evs), Decidable (AllowedRun prog A s evs)
  | _, [] => .isTrue trivial
  | s, e :: evs =>
    have := decidableAllowedRun (s.step prog e) evs
    inferInstanceAs (Decidable (_ ∧ _))

variable {prog E A} {s : Sys σ κ ω ε α J} {i : ℕ} {j : J} {p : Proc σ κ ω ε α} {d : σ}

/-- What the code is about to do, unless it is let go, its transaction alone would do too. -/
lemma ProcOk.at_self (h : ProcOk prog E A d j p) (hf : ∀ e, E.letGo e → p.code ≠ .fail e) :
    At (fun h o => A j h d o) d p.seg p.code (p.pend d) p.held := by
  rcases h.tracked with ⟨e, hl, he⟩ | ⟨P, h0, -, hat⟩
  · exact absurd he (hf e hl)
  · exact hat d h0

lemma ProcOk.fresh {t : Tx σ κ ω ε α} (hs : Seg prog j t)
    (hd : Disc E (Rely prog E) (fun _ _ _ => True) t id []) : ProcOk prog E A d j (.fresh t) :=
  ⟨hs, hd, .inr ⟨fun _ => True, trivial, fun _ _ _ _ => trivial, fun _ _ => .start⟩⟩

/-- A step that follows the serial rules, whatever the state, keeps the process tracked. -/
lemma ProcOk.advance {p' : Proc σ κ ω ε α} (h : ProcOk prog E A d j p) (hseg : p'.seg = p.seg)
    (hsub : p.held ⊆ p'.held) (hf : ∀ e, p.code ≠ .fail e)
    (hd : Disc E (Rely prog E) (fun _ _ _ => True) p'.code p'.pend p'.held)
    (hat : ∀ d, At (fun h o => A j h d o) d p.seg p.code (p.pend d) p.held →
      At (fun h o => A j h d o) d p.seg p'.code (p'.pend d) p'.held) : ProcOk prog E A d j p' := by
  refine ⟨hseg ▸ h.seg, hd, .inr ?_⟩
  rcases h.tracked with ⟨e, -, he⟩ | ⟨P, h0, hst, hP⟩
  · exact absurd he (hf e)
  · refine ⟨P, h0, fun d d' hR => hst d d' ?_, fun d hd => hseg ▸ hat d (hP d hd)⟩
    obtain ⟨hi, j', h', hdis, hc⟩ := hR
    exact ⟨hi, j', h', fun k hk => hdis (hsub hk), hc⟩

lemma ProcOk.look {adm : σ → σ → Prop} {f : σ → Tx σ κ ω ε α} (h : ProcOk prog E A d j p)
    (hI : E.inv d) (hc : p.code = .look adm f) : ProcOk prog E A d j { p with code := f (p.pend d) }
    := by
  have hdisc := h.disc
  rw [hc] at hdisc
  rcases h.tracked with ⟨e, -, he⟩ | ⟨P, h0, hst, hP⟩
  · simp [hc] at he
  rcases hdisc d hI with ⟨e, hl, he⟩ | ⟨P', h0', hst', hadm, hd⟩
  · exact ⟨h.seg, by simp only [he, Disc], .inl ⟨e, hl, he⟩⟩
  · refine ⟨h.seg, hd, .inr ⟨fun d => P d ∧ P' d, ⟨h0, h0'⟩, fun d d' hR hp =>
      ⟨hst d d' hR hp.1, hst' d d' hR hp.2⟩, fun d' hp => ?_⟩⟩
    obtain ⟨s, hs, he⟩ := hadm d' hp.2
    have hat := hP d' hp.1
    rw [hc] at hat
    exact he ▸ At.look s hat hs

lemma ProcOk.ask {f : ω → Tx σ κ ω ε α} {o : ω} (h : ProcOk prog E A d j p) (hc : p.code = .ask f)
    (ho : A j p.held d o) (hA : Stable (Rely prog E) p.held fun d => A j p.held d o) :
    ProcOk prog E A d j { p with code := f o } := by
  have hdisc := h.disc
  rw [hc] at hdisc
  rcases h.tracked with ⟨e, -, he⟩ | ⟨P, h0, hst, hP⟩
  · simp [hc] at he
  · refine ⟨h.seg, hdisc o, .inr ⟨fun d => P d ∧ A j p.held d o, ⟨h0, ho⟩, fun d d' hR hp =>
      ⟨hst d d' hR hp.1, hA d d' hR hp.2⟩, fun d' hp => ?_⟩⟩
    have hat := hP d' hp.1
    rw [hc] at hat
    exact .ask o hat hp.2

lemma ProcOk.commit_other {j' : J} {h' : List κ} {d' : σ} (h : ProcOk prog E A d j p) (hi : E.inv d)
    (hdis : p.held.Disjoint h') (hc : Commits prog anyAnswer j' h' d d') : ProcOk prog E A d' j p :=
    by
  refine ⟨h.seg, h.disc, ?_⟩
  rcases h.tracked with he | ⟨P, h0, hst, hP⟩
  · exact .inl he
  · exact .inr ⟨P, hst d d' ⟨hi, j', h', hdis, hc⟩ h0, hst, hP⟩

/-! ### Commit order -/

variable (prog E A) in
/-- What the serial reading of the runs rests on: the commits keep the invariant, an answer that
is allowed stays so, and the code of every job is disciplined. -/
structure Disciplined : Prop where
  inv : ∀ j h d d', E.inv d → Commits prog anyAnswer j h d d' → E.inv d'
  allow : ∀ j h o, Stable (Rely prog E) h fun d => A j h d o
  disc : ∀ j, Disc E (Rely prog E) (fun _ _ _ => True) (prog j) id []

variable [DecidableEq κ]

omit [DecidableEq κ] in
lemma Disciplined.upholds (hD : Disciplined prog E A) :
    Upholds E.inv (Commits prog anyAnswer) A (ProcOk prog E A) fun _ _ _ => True where
  others hi hdis hc hok := hok.commit_other hi hdis hc
  ended _ _ _ := trivial
  ret _ _ _ := trivial
  error := trivial
  lock hok hc := by
    have hdisc := hok.disc
    rw [hc] at hdisc
    exact hok.advance rfl (List.subset_cons_self _ _) (by simp [hc]) hdisc
      fun d hat => .lock (hc ▸ hat)
  look hi hok hc := hok.look hi hc
  ask hok hc ho := hok.ask hc ho (hD.allow _ _ _)
  write {d j p w c} hok hc := by
    have hdisc := hok.disc
    rw [hc] at hdisc
    exact hok.advance rfl (List.Subset.refl _) (by simp [hc]) hdisc
      fun d hat => At.write (v := p.pend d) (hc ▸ hat)
  commit {d j p c} hi hok hc := by
    have hdisc := hok.disc
    have hat := hok.at_self (by simp [hc])
    rw [hc] at hdisc hat
    have hcm : Commits prog anyAnswer j p.held d (p.pend d) := Commits.any ⟨p.seg, c, hok.seg, hat⟩
    exact ⟨hD.inv j p.held _ _ hi hcm, hcm,
      .fresh (hok.seg.after (hat.mono fun _ _ _ => trivial) rfl) hdisc⟩
  rollback hi hok hc := by
    have hdisc := hok.disc
    have hat := hok.at_self (by simp [hc])
    rw [hc] at hdisc hat
    exact .fresh (hok.seg.after (hat.mono fun _ _ _ => trivial) rfl) hdisc
  snap hi hok hc := by
    have hdisc := hok.disc
    have hat := hok.at_self (by simp [hc])
    rw [hc] at hdisc hat
    exact .fresh (hok.seg.after (hat.mono fun _ _ _ => trivial) rfl) (hdisc _ hi)

lemma Good.step (hD : Disciplined prog E A) (hg : Good prog E A s) {e : Event ω ε J}
    (he : Allowed A s e) : Good prog E A (s.step prog e) :=
  Upheld.step hD.upholds hg he fun _ j _ => .fresh .start (hD.disc j)

lemma allowedRun_any (s : Sys σ κ ω ε α J) {evs : List (Event ω ε J)} :
    AllowedRun prog anyAnswer s evs := by
  induction evs generalizing s with
  | nil => trivial
  | cons e evs ih =>
    refine ⟨?_, ih _⟩
    cases e with
    | start => trivial
    | step => exact fun _ _ _ => trivial
    | crash => trivial

omit [DecidableEq κ] in
lemma good_init (h : E.inv d) : Good prog E A (Sys.init d) := upheld_init h

/-- **Every state of every run is good.** -/
theorem Good.run (hD : Disciplined prog E A) (hg : Good prog E A s) {evs : List (Event ω ε J)}
    (hevs : AllowedRun prog A s evs) : Good prog E A (s.run prog evs) := by
  induction evs generalizing s with
  | nil => exact hg
  | cons e evs ih => exact ih (hg.step hD hevs.1) hevs.2

lemma Good.commit_step (hg : Good prog E A s) (e : Event ω ε J) :
    (s.step prog e).db = s.db ∨ ∃ i o j p c, e = .step i o ∧ s.procs i = .running j p ∧
      p.code = .commit c ∧ (s.step prog e).procs i = .running j (.fresh c) ∧ Seg prog j p.seg ∧
      At (fun h o => A j h s.db o) s.db p.seg (.commit c) (s.step prog e).db p.held := by
  rcases s.commit_step prog e with hdb | ⟨i, o, j, p, c, he, hp, hc, hp', hdb⟩
  · exact .inl hdb
  · have hok := hg.ok i j p hp
    have hat := hok.at_self (by simp [hc])
    rw [hc, ← hdb] at hat
    exact .inr ⟨i, o, j, p, c, he, hp, hc, hp', hok.seg, hat⟩

/-- **Commit order.** A step leaves the committed state as it is, or takes it where the job
of the process that takes the step, run alone from it, takes it. -/
theorem Good.db_step (hg : Good prog E A s) (e : Event ω ε J) :
    (s.step prog e).db = s.db ∨ ∃ i o j p, e = .step i o ∧ s.procs i = .running j p ∧
      Commits prog A j p.held s.db (s.step prog e).db := by
  rcases hg.commit_step e with h | ⟨i, o, j, p, c, he, hp, -, -, hs, hat⟩
  · exact .inl h
  · exact .inr ⟨i, o, j, p, he, hp, p.seg, c, hs, hat⟩

/-- A relation kept by every commit holds between any two committed states of a run. -/
theorem Good.db_run {T : σ → σ → Prop} (hrefl : ∀ d, T d d)
    (htrans : ∀ {a b c}, T a b → T b c → T a c) (hD : Disciplined prog E A)
    (hT : ∀ j h d d', E.inv d → Commits prog A j h d d' → T d d') (hg : Good prog E A s)
    (evs : List (Event ω ε J)) (hevs : AllowedRun prog A s evs) : T s.db (s.run prog evs).db := by
  induction evs generalizing s with
  | nil => exact hrefl _
  | cons e evs ih =>
    refine htrans ?_ (ih (hg.step hD hevs.1) hevs.2)
    rcases hg.db_step e with h | ⟨i, o, j, p, -, -, h⟩
    · rw [h]; exact hrefl _
    · exact hT j p.held _ _ hg.inv h

variable {σ κ ω ε α β γ J : Type}

/-! ### The rule for each statement -/

section Rules

variable {E : Env σ ε} {R : List κ → σ → σ → Prop} {Q : β → (σ → σ) → List κ → Prop}
  {p : σ → σ} {h : List κ}

@[simp] lemma disc_fail (e : ε) : Disc E R Q (.fail e : Tx σ κ ω ε β) p h ↔ True := Iff.rfl

variable (g : Unit → Tx σ κ ω ε β)

@[simp] lemma disc_acquire (k : κ) :
    Disc E R Q (acquire k >>= g) p h ↔ Disc E R Q (g ()) p (k :: h) := Iff.rfl

@[simp] lemma disc_update (w : σ → σ) :
    Disc E R Q (update w >>= g) p h ↔ Disc E R Q (g ()) (w ∘ p) h := Iff.rfl

@[simp] lemma disc_done :
    Disc E R Q (done >>= g) p h ↔ Disc E R Q (g ()) id [] := Iff.rfl

@[simp] lemma disc_ensure (b : Bool) (e : ε) :
    Disc E R Q (ensure b e >>= g) p h ↔ (b = true → Disc E R Q (g ()) p h) := by
  cases b <;> simp [ensure]

variable {g : α → Tx σ κ ω ε β} {t : Tx σ κ ω ε α} {q : σ → α}

/-- Whatever the answer is, it stays the answer, unless the code fails on it and is let go. -/
lemma disc_query (hg : ∀ a, (∃ e, E.letGo e ∧ g a = .fail e) ∨
      (Stable R h (fun d => q (p d) = a) ∧ Disc E R Q (g a) p h)) :
    Disc E R Q (query q >>= g) p h := by
  intro d0 _
  rcases hg (q (p d0)) with he | ⟨hst, hd⟩
  · exact .inl he
  · exact .inr ⟨fun d => q (p d) = q (p d0), rfl, hst, fun d hd => ⟨p d, rfl, congrArg g hd⟩, hd⟩

lemma disc_query_ensure {q : σ → Bool} {e : ε} {g : Unit → Tx σ κ ω ε β}
    (he : E.letGo e) (hst : Stable R h (fun d => q (p d) = false)) (hg : Disc E R Q (g ()) p h) :
    Disc E R Q (query q >>= fun b => ensure (!b) e >>= g) p h := by
  refine disc_query fun b => ?_
  cases b
  · exact .inr ⟨hst, hg⟩
  · exact .inl ⟨e, he, rfl⟩

lemma disc_peek {adm : σ → σ → Prop} (hrefl : ∀ d, E.inv d → adm (p d) (p d))
    (hst : ∀ d0, Stable R h (fun d => adm (p d) (p d0))) (hg : ∀ a, Disc E R Q (g a) p h) :
    Disc E R Q (peek adm q >>= g) p h :=
  fun d0 hI => .inr ⟨fun d => adm (p d) (p d0), hrefl d0 hI, hst d0,
    fun _ hd => ⟨p d0, hd, rfl⟩, hg _⟩

lemma disc_seq {K : α → (σ → σ) → List κ → Prop} (ht : Disc E R K t p h)
    (hg : ∀ a p h, K a p h → Disc E R Q (g a) p h) : Disc E R Q (t >>= g) p h := by
  induction t generalizing p h with
  | ret a => exact hg a p h ht
  | fail e => trivial
  | lock k c ih => exact ih ht
  | look adm f ih =>
    intro d0 hI
    rcases ht d0 hI with ⟨e, hl, he⟩ | ⟨P, h0, hst, had, hd⟩
    · exact .inl ⟨e, hl, by show f (p d0) >>= g = _; rw [he]; rfl⟩
    · refine .inr ⟨P, h0, hst, fun d hd => ?_, ih _ hd⟩
      obtain ⟨s, hs, he⟩ := had d hd
      exact ⟨s, hs, congrArg (· >>= g) he⟩
  | ask f ih => exact fun o => ih o (ht o)
  | write w c ih => exact ih ht
  | commit c ih => exact ih ht
  | rollback c ih => exact ih ht
  | snap f ih => exact fun d hI => ih d (ht d hI)

lemma Tx.Asks.disc (ht : Asks t) (hg : ∀ a, Disc E R Q (g a) p h) : Disc E R Q (t >>= g) p h := by
  induction ht with
  | ret a => exact hg a
  | fail e => trivial
  | ask _ ih => exact ih

lemma disc_forEach {f : γ → Tx σ κ ω ε Unit} {g : Unit → Tx σ κ ω ε β} {l : List γ}
    (K : (σ → σ) → List κ → Prop) (h0 : K p h)
    (hf : ∀ b p h, b ∈ l → K p h → Disc E R (fun _ p h => K p h) (f b) p h)
    (hg : ∀ p h, K p h → Disc E R Q (g ()) p h) : Disc E R Q (forEach f l >>= g) p h := by
  induction l generalizing p h with
  | nil => exact hg p h h0
  | cons b l ih =>
    rw [forEach, bind_assoc]
    refine disc_seq (hf b p h (by simp) h0) fun _ p h hK => ih hK fun c p h hc => ?_
    exact hf c p h (List.mem_cons_of_mem _ hc)

end Rules

variable {prog : J → Tx σ κ ω ε α} {j : J}

/-- A property of code that every transaction hands on holds of all the code a job starts its
transactions with. -/
lemma Seg.of_closed {S : J → Tx σ κ ω ε α → Prop} (h0 : ∀ j, S j (prog j))
    (hS : ∀ j t d, S j t → wp (fun _ _ => True)
      (fun v _ c => ∀ d' c', c.after d v = some (d', c') → S j c')
      (fun _ => True) (fun _ _ _ => True) t d []) {t : Tx σ κ ω ε α}
    (ht : Seg prog j t) : S j t := by
  induction ht with
  | start => exact h0 j
  | @after t c d v h d' c' _ hat he ih =>
    have hw := wp_at (hS j t d ih) hat
    cases c with
    | commit | rollback | snap => exact hw d' c' he
    | ret | fail | lock | look | ask | write => simp [Tx.after] at he

lemma Commits.of_wp {A : Allow σ κ ω J} {P : σ → List κ → σ → Prop} {h : List κ} {d d' : σ}
    (hw : ∀ t, Seg prog j t → wp (fun h o => A j h d o)
      (fun v h c => ∀ c', c = .commit c' → P d h v) (fun _ => True) (fun _ _ _ => True) t d [])
    (hc : Commits prog A j h d d') : P d h d' := by
  obtain ⟨t, c, hs, hat⟩ := hc
  exact wp_at (hw t hs) hat c rfl

end PrivChat.Db
