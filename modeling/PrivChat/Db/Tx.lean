import Mathlib.Tactic.Common

/-!
Database transactions, one statement at a time.

A transaction is a tree: it takes locks, reads, asks the world outside the database,
writes, and in the end commits, rolls back or fails. What it writes stays private until
the commit. `At` runs a transaction alone against one committed state; `wp` is the rule by
which facts about all such runs are proved.
-/

namespace PrivChat.Db

/-- Code running against a database with states `σ` and lock keys `κ`, answers `ω` from
outside the database, errors `ε` and results `α`.

`look adm f` is a statement that reads: it goes on with `f` of the state it sees. The
relation `adm` says how that state may differ from the state at the commit; it does not
change what the statement does. `snap f` reads outside any transaction: it sees what is
committed, and holds nothing afterwards. -/
inductive Tx (σ κ ω ε α : Type) : Type
  | ret (a : α)
  | fail (e : ε)
  | lock (k : κ) (c : Tx σ κ ω ε α)
  | look (adm : σ → σ → Prop) (f : σ → Tx σ κ ω ε α)
  | ask (f : ω → Tx σ κ ω ε α)
  | write (w : σ → σ) (c : Tx σ κ ω ε α)
  | commit (c : Tx σ κ ω ε α)
  | rollback (c : Tx σ κ ω ε α)
  | snap (f : σ → Tx σ κ ω ε α)

namespace Tx

variable {σ κ ω ε α β : Type}

protected def bind : Tx σ κ ω ε α → (α → Tx σ κ ω ε β) → Tx σ κ ω ε β
  | ret a, g => g a
  | fail e, _ => fail e
  | lock k c, g => lock k (c.bind g)
  | look adm f, g => look adm fun s => (f s).bind g
  | ask f, g => ask fun o => (f o).bind g
  | write w c, g => write w (c.bind g)
  | commit c, g => commit (c.bind g)
  | rollback c, g => rollback (c.bind g)
  | snap f, g => snap fun s => (f s).bind g

instance : Monad (Tx σ κ ω ε) where
  pure := ret
  bind := Tx.bind

@[simp] lemma pure_eq (a : α) : (pure a : Tx σ κ ω ε α) = ret a := rfl
@[simp] lemma ret_bind (a : α) (g : α → Tx σ κ ω ε β) : ret a >>= g = g a := rfl
@[simp] lemma fail_bind (e : ε) (g : α → Tx σ κ ω ε β) : fail e >>= g = fail e := rfl
@[simp] lemma look_bind (adm : σ → σ → Prop) (f : σ → Tx σ κ ω ε α)
    (g : α → Tx σ κ ω ε β) : look adm f >>= g = look adm fun s => f s >>= g := rfl

protected lemma bind_assoc {γ : Type} (t : Tx σ κ ω ε α) (f : α → Tx σ κ ω ε β)
    (g : β → Tx σ κ ω ε γ) : (t >>= f) >>= g = t >>= fun a => f a >>= g := by
  induction t with
  | ret a => rfl
  | fail e => rfl
  | lock k c ih => exact congrArg (lock k) ih
  | look adm f ih => exact congrArg (look adm) (funext ih)
  | ask f ih => exact congrArg ask (funext ih)
  | write w c ih => exact congrArg (write w) ih
  | commit c ih => exact congrArg commit ih
  | rollback c ih => exact congrArg rollback ih
  | snap f ih => exact congrArg snap (funext ih)

protected lemma bind_ret (t : Tx σ κ ω ε α) : t >>= ret = t := by
  induction t with
  | ret a => rfl
  | fail e => rfl
  | lock k c ih => exact congrArg (lock k) ih
  | look adm f ih => exact congrArg (look adm) (funext ih)
  | ask f ih => exact congrArg ask (funext ih)
  | write w c ih => exact congrArg (write w) ih
  | commit c ih => exact congrArg commit ih
  | rollback c ih => exact congrArg rollback ih
  | snap f ih => exact congrArg snap (funext ih)

instance : LawfulMonad (Tx σ κ ω ε) :=
  LawfulMonad.mk' _ Tx.bind_ret (fun _ _ => rfl) Tx.bind_assoc

def isStatement : Tx σ κ ω ε α → Bool
  | ret _ | fail _ => false
  | lock _ _ | look _ _ | ask _ | write _ _ | commit _ | rollback _ | snap _ => true

/-- Where the end of a transaction leads: the committed state and the code that goes on, when
the transaction runs at `d` and has made a `v` of it. -/
def after (d v : σ) : Tx σ κ ω ε α → Option (σ × Tx σ κ ω ε α)
  | commit c => some (v, c)
  | rollback c => some (d, c)
  | snap f => some (d, f d)
  | ret _ | fail _ | lock _ _ | look _ _ | ask _ | write _ _ => none

/-- Take a lock, to be held until the transaction ends. -/
def acquire (k : κ) : Tx σ κ ω ε Unit := lock k (ret ())

/-- A query whose answer the transaction relies on to the end. -/
def query (q : σ → α) : Tx σ κ ω ε α := look Eq fun s => ret (q s)

/-- A query whose answer may have drifted by the time of the commit. -/
def peek (adm : σ → σ → Prop) (q : σ → α) : Tx σ κ ω ε α := look adm fun s => ret (q s)

/-- An answer from outside the database. -/
def observe (q : ω → α) : Tx σ κ ω ε α := ask fun o => ret (q o)

def update (w : σ → σ) : Tx σ κ ω ε Unit := write w (ret ())

/-- Commit, after which the code goes on outside the transaction. -/
def done : Tx σ κ ω ε Unit := commit (ret ())

/-- Give up the transaction, after which the code goes on outside it. -/
def undo : Tx σ κ ω ε Unit := rollback (ret ())

/-- A query outside any transaction. -/
def snapshot (q : σ → α) : Tx σ κ ω ε α := snap fun s => ret (q s)

def ensure (b : Bool) (e : ε) : Tx σ κ ω ε Unit := if b then ret () else fail e

def orFail (x : Option α) (e : ε) : Tx σ κ ω ε α :=
  match x with
  | some a => ret a
  | none => fail e

def forEach (f : β → Tx σ κ ω ε Unit) : List β → Tx σ κ ω ε Unit
  | [] => ret ()
  | b :: bs => do f b; forEach f bs

/-- Code that only asks, and gives a result or fails. -/
inductive Asks : Tx σ κ ω ε α → Prop
  | ret (a : α) : Asks (ret a)
  | fail (e : ε) : Asks (fail e)
  | ask {f : ω → Tx σ κ ω ε α} : (∀ o, Asks (f o)) → Asks (ask f)

variable {g : α → Tx σ κ ω ε β} {t : Tx σ κ ω ε α}

lemma Asks.bind (ht : Asks t) (hg : ∀ a, Asks (g a)) : Asks (t >>= g) := by
  induction ht with
  | ret a => exact hg a
  | fail e => exact .fail e
  | ask _ ih => exact .ask ih

lemma asks_observe {q : ω → α} : Asks (observe q : Tx σ κ ω ε α) := .ask fun _ => .ret _

lemma asks_ensure {b : Bool} {e : ε} : Asks (ensure b e : Tx σ κ ω ε Unit) := by
  cases b
  · exact .fail e
  · exact .ret ()

lemma asks_orFail {x : Option α} {e : ε} : Asks (orFail x e : Tx σ κ ω ε α) := by
  cases x
  · exact .fail e
  · exact .ret _

lemma asks_ite {c : Prop} [Decidable c] {t' : Tx σ κ ω ε α} (ht : Asks t) (ht' : Asks t') :
    Asks (if c then t else t') := by
  split
  · exact ht
  · exact ht'

lemma asks_forEach {f : β → Tx σ κ ω ε Unit} (hf : ∀ b, Asks (f b)) (l : List β) :
    Asks (forEach f l) := by
  induction l with
  | nil => exact .ret ()
  | cons b l ih => exact (hf b).bind fun _ => ih

/-! ### A transaction alone -/

/-- Run alone from the committed state `d`, the transaction `t` has come to the code `c`:
it sees the state `v` and holds the locks `h`. Answers to a transaction with the locks `h`
are those that `W h` allows. -/
inductive At (W : List κ → ω → Prop) (d : σ) (t : Tx σ κ ω ε α) :
    Tx σ κ ω ε α → σ → List κ → Prop
  | start : At W d t t d []
  | lock {k c v h} : At W d t (lock k c) v h → At W d t c v (k :: h)
  | look {adm f v h} (s : σ) : At W d t (look adm f) v h → adm v s → At W d t (f s) v h
  | ask {f v h} (o : ω) : At W d t (ask f) v h → W h o → At W d t (f o) v h
  | write {w c v h} : At W d t (write w c) v h → At W d t c (w v) h

variable {h : List κ} {c : Tx σ κ ω ε α}

lemma At.mono {W W' : List κ → ω → Prop} (hW : ∀ h o, W h o → W' h o) {d v : σ}
    (ha : At W d t c v h) : At W' d t c v h := by
  induction ha with
  | start => exact .start
  | lock _ ih => exact .lock ih
  | look s _ hadm ih => exact .look s ih hadm
  | ask o _ ho ih => exact .ask o ih (hW _ _ ho)
  | write _ ih => exact .write ih

/-- Every way on from here meets `C` where the transaction ends and code goes on, `F` at a
failure and `Q` at a result. -/
def wp (W : List κ → ω → Prop) (C : σ → List κ → Tx σ κ ω ε α → Prop) (F : ε → Prop)
    (Q : α → σ → List κ → Prop) : Tx σ κ ω ε α → σ → List κ → Prop
  | ret a, v, h => Q a v h
  | fail e, _, _ => F e
  | lock k c, v, h => wp W C F Q c v (k :: h)
  | look adm f, v, h => ∀ s, adm v s → wp W C F Q (f s) v h
  | ask f, v, h => ∀ o, W h o → wp W C F Q (f o) v h
  | write w c, v, h => wp W C F Q c (w v) h
  | commit c, v, h => C v h (commit c)
  | rollback c, v, h => C v h (rollback c)
  | snap f, v, h => C v h (snap f)

variable {W : List κ → ω → Prop} {C : σ → List κ → Tx σ κ ω ε α → Prop} {F : ε → Prop}
  {Q : α → σ → List κ → Prop}

lemma wp_at {d v : σ} (hw : wp W C F Q t d []) (ha : At W d t c v h) : wp W C F Q c v h := by
  induction ha with
  | start => exact hw
  | lock _ ih => exact ih
  | look s _ hadm ih => exact ih s hadm
  | ask o _ ho ih => exact ih o ho
  | write _ ih => exact ih

lemma wp_mono {C' : σ → List κ → Tx σ κ ω ε α → Prop} {F' : ε → Prop} {Q' : α → σ → List κ → Prop}
    (hC : ∀ v h c, C v h c → C' v h c) (hF : ∀ e, F e → F' e) (hQ : ∀ a v h, Q a v h → Q' a v h)
    (t : Tx σ κ ω ε α) (v : σ) (h : List κ) (hw : wp W C F Q t v h) : wp W C' F' Q' t v h := by
  induction t generalizing v h with
  | ret a => exact hQ _ _ _ hw
  | fail e => exact hF _ hw
  | lock k c ih => exact ih _ _ hw
  | look adm f ih => exact fun s hs => ih s _ _ (hw s hs)
  | ask f ih => exact fun o ho => ih o _ _ (hw o ho)
  | write w c ih => exact ih _ _ hw
  | commit c => exact hC _ _ _ hw
  | rollback c => exact hC _ _ _ hw
  | snap f => exact hC _ _ _ hw

variable {C : σ → List κ → Tx σ κ ω ε β → Prop} {Q : β → σ → List κ → Prop}

lemma wp_bind (t : Tx σ κ ω ε α) (g : α → Tx σ κ ω ε β) (v : σ) (h : List κ) :
    wp W C F Q (t >>= g) v h ↔
      wp W (fun v h c => C v h (c >>= g)) F (fun a v h => wp W C F Q (g a) v h) t v h := by
  induction t generalizing v h with
  | ret a => rfl
  | fail e => rfl
  | lock k c ih => exact ih _ _
  | look adm f ih => exact forall₂_congr fun s _ => ih s _ _
  | ask f ih => exact forall₂_congr fun o _ => ih o _ _
  | write w c ih => exact ih _ _
  | commit c => rfl
  | rollback c => rfl
  | snap f => rfl

lemma wp_seq {v : σ} {P : α → σ → List κ → Prop} (ht : wp W (fun _ _ _ => False) F P t v h)
    (hg : ∀ a v h, P a v h → wp W C F Q (g a) v h) : wp W C F Q (t >>= g) v h :=
  (wp_bind t g v h).mpr (wp_mono (fun _ _ _ hf => hf.elim) (fun _ => id) hg t v h ht)

section Rules

variable {C : σ → List κ → Tx σ κ ω ε β → Prop} {Q : β → σ → List κ → Prop}
  {v : σ} {h : List κ}

@[simp] lemma wp_ret (b : β) : wp W C F Q (ret b) v h ↔ Q b v h := Iff.rfl

@[simp] lemma wp_fail (e : ε) : wp W C F Q (fail e) v h ↔ F e := Iff.rfl

variable (g : Unit → Tx σ κ ω ε β)

@[simp] lemma wp_acquire (k : κ) :
    wp W C F Q (acquire k >>= g) v h ↔ wp W C F Q (g ()) v (k :: h) := Iff.rfl

@[simp] lemma wp_query (q : σ → α) (g : α → Tx σ κ ω ε β) :
    wp W C F Q (query q >>= g) v h ↔ wp W C F Q (g (q v)) v h := by
  simp [query, wp]

@[simp] lemma wp_peek (adm : σ → σ → Prop) (q : σ → α) (g : α → Tx σ κ ω ε β) :
    wp W C F Q (peek adm q >>= g) v h ↔ ∀ s, adm v s → wp W C F Q (g (q s)) v h := Iff.rfl

@[simp] lemma wp_observe (q : ω → α) (g : α → Tx σ κ ω ε β) : wp W C F Q (observe q >>= g) v h ↔
      ∀ o, W h o → wp W C F Q (g (q o)) v h := Iff.rfl

@[simp] lemma wp_update (w : σ → σ) :
    wp W C F Q (update w >>= g) v h ↔ wp W C F Q (g ()) (w v) h := Iff.rfl

@[simp] lemma wp_done :
    wp W C F Q (done >>= g) v h ↔ C v h (commit (g ())) := Iff.rfl

@[simp] lemma wp_undo :
    wp W C F Q (undo >>= g) v h ↔ C v h (rollback (g ())) := Iff.rfl

@[simp] lemma wp_ensure (b : Bool) (e : ε) :
    wp W C F Q (ensure b e >>= g) v h ↔ if b then wp W C F Q (g ()) v h else F e := by
  cases b <;> simp [ensure]

@[simp] lemma wp_orFail (x : Option α) (e : ε) (g : α → Tx σ κ ω ε β) :
    wp W C F Q (orFail x e >>= g) v h ↔
      (∀ a, x = some a → wp W C F Q (g a) v h) ∧ (x = none → F e) := by
  cases x <;> simp [orFail]

lemma Asks.wp {t : Tx σ κ ω ε α} {g : α → Tx σ κ ω ε β} (ht : Asks t)
    (hg : ∀ a, wp W C (fun _ => True) Q (g a) v h) : wp W C (fun _ => True) Q (t >>= g) v h := by
  induction ht with
  | ret a => exact hg a
  | fail e => trivial
  | ask _ ih => exact fun o _ => ih o

lemma wp_forEach {γ : Type} {f : γ → Tx σ κ ω ε Unit} {g : Unit → Tx σ κ ω ε β} {l : List γ}
    (I : List γ → σ → List κ → Prop) (h0 : I l v h) (hf : ∀ b rest v h, b ∈ l → I (b :: rest) v h →
      wp W (fun _ _ _ => False) F (fun _ v h => I rest v h) (f b) v h)
    (hg : ∀ v h, I [] v h → wp W C F Q (g ()) v h) : wp W C F Q (forEach f l >>= g) v h := by
  induction l generalizing v h with
  | nil => exact hg v h h0
  | cons b l ih =>
    rw [forEach, bind_assoc]
    refine wp_seq (hf b l v h (by simp) h0) fun _ v h hI => ih hI fun c rest v h hc => ?_
    exact hf c rest v h (List.mem_cons_of_mem _ hc)

end Rules

end Tx

end PrivChat.Db
