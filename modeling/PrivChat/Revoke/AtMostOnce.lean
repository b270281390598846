import PrivChat.Revoke.Service
import PrivChat.Tasks.Places

/-!
Calls that revoke the same message at the same time.

Each looks whether the message is revoked, and marks it later, by a statement that does not look
again. As long as no call marks a message that another has marked since, one call at most gets
through, and everything that follows a revocation happens once.
-/

namespace PrivChat.Revoke

open Tasks Db
open Channels (UserId ChannelId Millis ServerError)
open Timeline (Message MessageId)

/-- The operation takes the message off the unread counter of the user. -/
def discounts (id : MessageId) (u : UserId) (j : Job) (op : Op) (o : Moment) (s : Shared) : Bool :=
  match op with
  | .discountUnread c pts sender => decide (j.messageId = id) && o.outcome.applied &&
      (s.unread.get (u, c)).any (s.countsUnread c pts sender (u, c))
  | _ => false

/-- The revocation of the message has taken effect once at most: `s0` is where the run began,
and `discounted` how often the message was taken off the unread counter of each user. -/
structure Once (id : MessageId) (s0 : Shared) (s : RevokeState) (discounted : UserId → ℕ) :
    Prop where
  success : ∀ i i' j j' a a', s.tasks i = .finished j (.ok a) → j.messageId = id →
    s.tasks i' = .finished j' (.ok a') → j'.messageId = id → i = i'
  stored : ∀ i j a, s.tasks i = .finished j (.ok a) → j.messageId = id →
    ∃ m, s.shared.messages.get id = some m ∧ m.revoked = true ∧
      m.revokedBy = some j.revoker ∧ m.revokedAt = some a.revokedAtMs
  commit : ∀ i j a, s.tasks i = .finished j (.ok a) → j.messageId = id →
    s.shared.commitsOf id = s0.commitsOf id + 1
  commits : s.shared.commitsOf id ≤ s0.commitsOf id + 1
  discount : ∀ u, discounted u ≤ 1

/-- The message is not revoked when a call marks it, and the log takes the commit of its
revocation. -/
def Unraced (id : MessageId) (_ : ℕ) (_ : Job) (op : Op) (o : Moment) (s : Shared) : Prop :=
  match op with
  | .markRevoked id' _ _ => id' = id → (s.messages.get id).all (fun m => !m.revoked) = true
  | .appendServerEventCommit c => c.targetServerMessageId = id → o.outcome.applied = true ∧
      (s.channelTypes c.channelId).map (·.toWire) = some c.channelType
  | .now | .findById _ | .getChannel _ | .discountUnread _ _ _ => True

instance Unraced.decidable (id : MessageId) (i : ℕ) (j : Job) (op : Op) (o : Moment) (s : Shared) :
    Decidable (Unraced id i j op o s) :=
  match op with
  | .markRevoked id' _ _ => inferInstanceAs (Decidable (id' = id →
      (s.messages.get id).all (fun m => !m.revoked) = true))
  | .appendServerEventCommit c => inferInstanceAs (Decidable (c.targetServerMessageId = id →
      o.outcome.applied = true ∧
        (s.channelTypes c.channelId).map (·.toWire) = some c.channelType))
  | .now | .findById _ | .getChannel _ | .discountUnread _ _ _ => inferInstanceAs (Decidable True)

/-- By whom the message is marked as revoked, and when. -/
def markOf (id : MessageId) (s : Shared) : Option (UserId × Millis) :=
  (s.messages.get id).bind fun m =>
    if m.revoked then m.revokedBy.bind fun u => m.revokedAt.map fun t => (u, t) else none

/-- The statement has marked the message. -/
def marks (id : MessageId) : (op : Op) → op.Res → Option (UserId × Millis)
  | .markRevoked id' t u, (r : Except String ℕ) =>
    match r with
    | .ok (_ + 1) => if id' = id then some (u, t) else none
    | .ok 0 | .error _ => none
  | .now, _ | .findById _, _ | .getChannel _, _ | .discountUnread _ _ _, _
  | .appendServerEventCommit _, _ => none

/-- A call has marked the message, and has called the log and the unread counters so often since;
or it has not marked it. -/
inductive Place
  | seeking
  | won (mark : UserId × Millis) (commits discounts : ℕ)

def Place.next (id : MessageId) : (op : Op) → op.Res → Place → Place
  | .appendServerEventCommit _, _, .won v c k => .won v (c + 1) k
  | .discountUnread _ _ _, _, .won v c k => .won v c (k + 1)
  | op, r, p => ((marks id op r).map (.won · 0 0)).getD p

/-- Each is called once, and only by a call that has marked the message. -/
def Place.ready (id : MessageId) (j : Job) (op : Op) (p : Place) : Prop :=
  match op with
  | .markRevoked id' _ _ => id' = id → p = .seeking
  | .discountUnread _ _ _ => if j.messageId = id then ∃ v c, p = .won v c 0 else p = .seeking
  | .appendServerEventCommit commit =>
    if commit.targetServerMessageId = id then ∃ v k, p = .won v 0 k else p = .seeking
  | .now | .findById _ | .getChannel _ => True

/-- Without the mark a call comes to no result. -/
def Place.rest (id : MessageId) (j : Job) : Except ServerError RevokedMessageSummary → Place → Prop
  | .ok a, p => j.messageId = id → ∃ k, p = .won (j.revoker, a.revokedAtMs) 1 k
  | .error _, _ => True

def course (id : MessageId) : Course Op Op.Res Job ServerError RevokedMessageSummary Place where
  start _ := .seeking
  next := Place.next id
  ready := Place.ready id
  rest := Place.rest id

section

variable {id : MessageId} {j : Job} {p : Place} {α β : Type}

/-! ### The code -/

abbrev Stays (id : MessageId) (j : Job) (t : RevokeProg β) (p : Place) : Prop :=
  (course id).Leads j (fun _ p' => p' = p) t p

variable {t : RevokeProg β}

lemma stays_bind {g : β → RevokeProg RevokedMessageSummary}
    (h : Stays id j t p) (hg : ∀ b, (course id).Leads j (Place.rest id j) (g b) p) :
    (course id).Leads j (Place.rest id j) (t >>= g) p :=
  h.bind (fun b _ hp => hp ▸ hg b) fun _ _ _ => trivial

lemma Stays.bind {g : β → RevokeProg α} (h : Stays id j t p)
    (hg : ∀ b, Stays id j (g b) p) : Stays id j (t >>= g) p :=
  Course.Leads.bind h (fun b _ hp => hp ▸ hg b) fun _ _ hp => hp

lemma Stays.mapErr {f : ServerError → ServerError} (h : Stays id j t p) :
    Stays id j (t.mapErr f) p :=
  Course.Leads.mapErr h

lemma stays_now : Stays id j now p := ⟨trivial, fun _ => rfl⟩

variable (id' : MessageId) (limitSecs : ℤ) (c : ChannelId)

lemma stays_getChannel : Stays id j (getChannel c) p := ⟨trivial, fun _ => rfl⟩

lemma stays_findById : Stays id j (findById id') p := by
  refine ⟨trivial, fun r => ?_⟩
  cases (r : Except String (Option Message)) <;> rfl

lemma stays_findUnrevoked {text : String} : Stays id j (findUnrevoked id' text) p := by
  refine (stays_findById id').mapErr.bind fun found => ?_
  cases found with
  | none => rfl
  | some m =>
    dsimp only
    split <;> rfl

lemma stays_authorize {u : UserId} {m : Message} : Stays id j (authorize limitSecs c u m) p := by
  refine (stays_getChannel c).bind fun channel => ?_
  dsimp only
  split
  · rfl
  · split
    · refine stays_now.bind fun t => ?_
      split <;> rfl
    · rfl

/-- The call has marked its message, and has called the unread counters so often since. -/
def Marked (id : MessageId) (j : Job) (t : Millis) (discounts : ℕ) (p : Place) : Prop :=
  if j.messageId = id then p = .won (j.revoker, t) 0 discounts else p = .seeking

lemma leads_revokeEffects {m : Message} {t : Millis} (ht : m.revokedAt = some t)
    (hp : Marked id j t 0 p) :
    (course id).Leads j (Place.rest id j) (revokeEffects j.messageId c j.revoker m) p := by
  have hlog : ∀ k p, Marked id j t k p → (course id).Leads j (Place.rest id j) (do
      let channelType := wireType (← getChannel c)
      let revokeTs ← now
      appendServerEventCommit ⟨c, channelType, j.messageId, j.revoker, revokeTs, j.revoker⟩
      return ⟨j.messageId, c, channelType, j.revoker, m.revokedAt.getD revokeTs⟩) p := by
    intro k p hp
    refine stays_bind (stays_getChannel c) fun ch => stays_bind stays_now fun t' => ?_
    unfold Marked at hp
    by_cases hj : j.messageId = id
    · rw [if_pos hj] at hp
      subst hp
      refine ⟨?_, fun _ _ => ⟨k, by simp [course, Place.next, ht]⟩⟩
      simp [course, Place.ready, hj]
    · rw [if_neg hj] at hp
      exact ⟨by simp [course, Place.ready, hj, hp], fun _ h => absurd h hj⟩
  unfold revokeEffects discountUnreadForRevokedMessage
  cases m.pts with
  | none => exact hlog 0 p hp
  | some pts =>
    unfold Marked at hp
    by_cases hj : j.messageId = id
    · rw [if_pos hj] at hp
      subst hp
      refine ⟨by simp [course, Place.ready, hj], fun _ => hlog 1 _ ?_⟩
      simp [Marked, hj, course, Place.next]
    · rw [if_neg hj] at hp
      subst hp
      refine ⟨by simp [course, Place.ready, hj], fun _ => hlog 0 _ ?_⟩
      simp [Marked, hj, course, Place.next, marks]

lemma leads_revokeMessageCore :
    (course id).Leads j (Place.rest id j) (revokeMessageCore j.messageId c j.revoker) .seeking := by
  unfold revokeMessageCore revokeMessage
  simp only [Prog.mapErr_bind, bind_assoc]
  refine stays_bind stays_now.mapErr fun t => stays_bind (stays_findById _).mapErr fun found => ?_
  cases found with
  | none => trivial
  | some m =>
    dsimp only
    split
    · trivial
    · refine ⟨fun _ => rfl, fun r => ?_⟩
      cases (r : Except String ℕ) with
      | error text => trivial
      | ok rows =>
        cases rows with
        | zero => trivial
        | succ n =>
          refine leads_revokeEffects c rfl ?_
          by_cases hj : j.messageId = id
          · simp [Marked, course, Place.next, marks, hj]
          · simp [Marked, course, Place.next, marks, hj]

lemma leads_prog (j : Job) : (course id).Leads j (Place.rest id j) (j.prog limitSecs) .seeking := by
  cases j with
  | revokeMessageWithAuth id' c u =>
    refine stays_bind (stays_findUnrevoked id') fun m => ?_
    refine stays_bind (stays_authorize limitSecs c) fun _ => ?_
    exact leads_revokeMessageCore m.channelId
  | revokeMessageAdmin id' u =>
    refine stays_bind (stays_findUnrevoked id') fun m => ?_
    exact leads_revokeMessageCore m.channelId

lemma markOf_mark (s : Shared) (id id' : MessageId) (t : Millis) (u : UserId) :
    markOf id (s.mark id' t u) =
      if id' = id ∧ (s.messages.get id).isSome then some (u, t) else markOf id s := by
  unfold markOf Shared.mark
  by_cases h : id' = id
  · subst h
    cases hm : s.messages.get id' with
    | none => simp [hm]
    | some m => simp [hm]
  · rw [Table.get_modify_of_ne _ (Ne.symm h)]
    simp [h]

variable {s : Shared}

lemma markOf_eq_none (h : (s.messages.get id).all (fun m => !m.revoked) = true) :
    markOf id s = none := by
  unfold markOf
  cases hm : s.messages.get id with
  | none => rfl
  | some m => simp_all

variable {op : Op} {o : Moment} {i : ℕ} {v : UserId × Millis}

lemma markOf_exec (hg : Unraced id i j op o s) (hv : markOf id s = some v) :
    markOf id (Shared.exec op o s).2 = some v := by
  cases op with
  | markRevoked id' t u =>
    dsimp only [Shared.exec]
    split
    · rw [markOf_mark]
      split
      · rename_i h
        rw [markOf_eq_none (hg h.1)] at hv
        cases hv
      · exact hv
    · exact hv
  | now | findById _ | getChannel _ => exact hv
  | discountUnread c pts sender =>
    dsimp only [Shared.exec]
    split <;> exact hv
  | appendServerEventCommit c =>
    dsimp only [Shared.exec]
    split
    · dsimp only
      split <;> exact hv
    · exact hv

lemma markOf_outside (x : Outside) (hv : markOf id s = some v) :
    markOf id (Shared.outside x s) = some v := by
  cases x with
  | insertMessage m =>
    dsimp only [Shared.outside]
    split
    · exact hv
    · rename_i h
      -- the message is there already, so that the new one has another id
      have hne : id ≠ m.messageId := by
        rintro rfl
        unfold markOf at hv
        cases hm : s.messages.get m.messageId <;> simp_all
      unfold markOf
      rw [Table.get_put_of_ne _ hne]
      exact hv
  | setChannel _ _ | setUnread _ _ _ | setLastRead _ _ _ => exact hv

lemma markOf_of_marks
    (hg : Unraced id i j op o s) (hv : marks id op (Shared.exec op o s).1 = some v) :
    markOf id s = none ∧ markOf id (Shared.exec op o s).2 = some v := by
  cases op with
  | markRevoked id' t u =>
    obtain ⟨clock, outcome⟩ := o
    cases outcome with
    | failed text applied => cases hv
    | ok =>
      by_cases hm : (s.messages.get id').isSome
      · by_cases hid : id' = id
        · subst hid
          refine ⟨markOf_eq_none (hg rfl), ?_⟩
          simp only [Shared.exec, answer, hm, if_true, marks] at hv
          simp only [Shared.exec, Sync.Outcome.applied, if_true]
          rw [markOf_mark, if_pos ⟨rfl, hm⟩]
          exact hv
        · simp [Shared.exec, answer, hm, marks, hid] at hv
      · simp [Shared.exec, answer, hm, marks] at hv
  | now | findById _ | getChannel _ | discountUnread _ _ _ | appendServerEventCommit _ => cases hv

/-- How many commits on the message the operation is to write. -/
def commitsTo (id : MessageId) : Op → ℕ
  | .appendServerEventCommit c => if c.targetServerMessageId = id then 1 else 0
  | .now | .findById _ | .getChannel _ | .markRevoked _ _ _ | .discountUnread _ _ _ => 0

lemma commitsOf_exec (hg : Unraced id i j op o s) :
    (Shared.exec op o s).2.commitsOf id = s.commitsOf id + commitsTo id op := by
  cases op with
  | appendServerEventCommit c =>
    by_cases hc : c.targetServerMessageId = id
    · obtain ⟨happ, htype⟩ := hg hc
      simp [Shared.exec, htype, happ, Shared.commitsOf, commitsTo, hc]
    · dsimp only [Shared.exec]
      split
      · dsimp only
        split <;> simp [Shared.commitsOf, commitsTo, hc]
      · simp [commitsTo, hc]
  | markRevoked id' t u =>
    dsimp only [Shared.exec]
    split <;> rfl
  | discountUnread c pts sender =>
    dsimp only [Shared.exec]
    split <;> rfl
  | now | findById _ | getChannel _ => rfl

lemma commitsOf_outside {x : Outside} : (Shared.outside x s).commitsOf id = s.commitsOf id := by
  cases x with
  | insertMessage m =>
    dsimp only [Shared.outside]
    split <;> rfl
  | setChannel _ _ | setUnread _ _ _ | setLastRead _ _ _ => rfl

lemma markOf_eq_some {u : UserId} {t : Millis} (h : markOf id s = some (u, t)) :
    ∃ m, s.messages.get id = some m ∧ m.revoked = true ∧ m.revokedBy = some u ∧
      m.revokedAt = some t := by
  unfold markOf at h
  cases hm : s.messages.get id with
  | none => simp [hm] at h
  | some m =>
    cases hr : m.revoked <;> cases hu : m.revokedBy <;> cases ht : m.revokedAt <;> simp_all

/-! ### Runs -/

/-- One call at most has marked the message. What is on the log is its commit, and the message
was taken off the unread counter `n` times by no other. -/
inductive Fair (id : MessageId) (s0 : Shared) (n : ℕ) (s : Shared) (place : ℕ → Option Place) : Prop
  | unwon (nobody : ∀ i v c k, place i ≠ some (.won v c k))
      (commits : s.commitsOf id = s0.commitsOf id) (counted : n = 0)
  | won {i v c k} (here : place i = some (.won v c k))
      (sole : ∀ i' ≠ i, ∀ v c k, place i' ≠ some (.won v c k)) (mark : markOf id s = some v)
      (commits : s.commitsOf id = s0.commitsOf id + c) (counted : n ≤ k) (one : c ≤ 1 ∧ k ≤ 1)

variable {u : UserId} {s0 : Shared} {n : ℕ} {place : ℕ → Option Place}

lemma Place.next_won {c k : ℕ} (r : op.Res) (h : Place.ready id j op (.won v c k))
    (one : c ≤ 1 ∧ k ≤ 1) : ∃ k',
      Place.next id op r (.won v c k) = .won v (c + commitsTo id op) k' ∧
      c + commitsTo id op ≤ 1 ∧ k' ≤ 1 ∧ k + (if discounts id u j op o s then 1 else 0) ≤ k' := by
  cases op with
  | appendServerEventCommit commit =>
    by_cases hc : commit.targetServerMessageId = id
    · obtain ⟨_, _, h⟩ : ∃ v' k', Place.won v c k = .won v' 0 k' := by
        simpa [Place.ready, hc] using h
      cases h
      exact ⟨k, by simp [Place.next, commitsTo, hc], by simp [commitsTo, hc], one.2, Nat.le_refl _⟩
    · simp [Place.ready, hc] at h
  | discountUnread c' pts sender =>
    by_cases hj : j.messageId = id
    · obtain ⟨_, _, h⟩ : ∃ v' c', Place.won v c k = .won v' c' 0 := by
        simpa [Place.ready, hj] using h
      cases h
      refine ⟨1, rfl, one.1, Nat.le_refl _, ?_⟩
      split <;> omega
    · simp [Place.ready, hj] at h
  | markRevoked id' t u' =>
    have hne : id' ≠ id := fun he => nomatch h he
    refine ⟨k, ?_, one.1, one.2, Nat.le_refl _⟩
    cases (r : Except String ℕ) with
    | error text => rfl
    | ok rows =>
      cases rows with
      | zero => rfl
      | succ rows => simp [Place.next, marks, hne, commitsTo]
  | now | findById _ | getChannel _ => exact ⟨k, rfl, one.1, one.2, Nat.le_refl _⟩

lemma Place.no_effect (h : Place.ready id j op .seeking) :
    commitsTo id op = 0 ∧ discounts id u j op o s = false := by
  cases op with
  | appendServerEventCommit commit =>
    by_cases hc : commit.targetServerMessageId = id
    · simp [Place.ready, hc] at h
    · simp [commitsTo, hc, discounts]
  | discountUnread c pts sender =>
    by_cases hj : j.messageId = id
    · simp [Place.ready, hj] at h
    · simp [commitsTo, discounts, hj]
  | now | findById _ | getChannel _ | markRevoked _ _ _ => exact ⟨rfl, rfl⟩

lemma Place.next_seeking (op : Op) (r : op.Res) :
    Place.next id op r .seeking = ((marks id op r).map (.won · 0 0)).getD .seeking := by
  cases op <;> rfl

lemma Fair.call (h : Fair id s0 n s place) (hp : place i = some p)
    (hready : Place.ready id j op p) (hg : Unraced id i j op o s) :
    Fair id s0 (n + if discounts id u j op o s then 1 else 0) (Shared.exec op o s).2
      (Function.update place i (some (Place.next id op (Shared.exec op o s).1 p))) := by
  have hlog := commitsOf_exec hg
  cases p with
  | seeking =>
    obtain ⟨hc, hd⟩ := Place.no_effect hready
    rw [hc, Nat.add_zero] at hlog
    rw [Place.next_seeking, hd]
    cases hm : marks id op (Shared.exec op o s).1 with
    | none =>
      have hsame : Function.update place i (some .seeking) = place := by
        rw [← hp, Function.update_eq_self]
      change Fair id s0 n _ (Function.update place i (some .seeking))
      rw [hsame]
      cases h with
      | unwon nobody commits counted => exact .unwon nobody (hlog.trans commits) counted
      | won here sole mark commits counted one =>
        exact .won here sole (markOf_exec hg mark) (hlog.trans commits) counted one
    | some v =>
      obtain ⟨hfree, hmark⟩ := markOf_of_marks hg hm
      cases h with
      | unwon nobody commits counted =>
        refine .won (Function.update_self ..) (fun i' hi' v c k => ?_) hmark (hlog.trans commits)
          (Nat.le_of_eq counted) (by decide)
        rw [Function.update_of_ne hi']
        exact nobody i' v c k
      | won here sole mark =>
        rw [hfree] at mark
        cases mark
  | won v c k =>
    cases h with
    | unwon nobody => exact absurd hp (nobody i v c k)
    | @won i' _ _ _ here sole mark commits counted one =>
      obtain rfl : i = i' := by
        by_contra hne
        exact sole i hne v c k hp
      obtain ⟨⟩ := Option.some.inj (hp.symm.trans here)
      obtain ⟨k', hnext, hc, hk, hle⟩ := Place.next_won (u := u) (o := o) (s := s)
        (Shared.exec op o s).1 hready one
      rw [hnext]
      refine .won (Function.update_self ..) (fun i' hi' v c k => ?_) (markOf_exec hg mark)
        (by rw [hlog, commits, Nat.add_assoc]) (by omega) ⟨hc, hk⟩
      rw [Function.update_of_ne hi']
      exact sole i' hi' v c k

lemma guards (id : MessageId) (u : UserId) (s0 : Shared) :
    (machine limitSecs).Guards (course id) (Unraced id) (discounts id u) (Fair id s0) where
  prog := leads_prog limitSecs
  start n i j s place h hi := by
    have hold : ∀ i' v c k, Function.update place i (some .seeking) i' = some (.won v c k) →
        place i' = some (.won v c k) := by
      intro i' v c k h'
      rcases update_eq_some.mp h' with ⟨-, ⟨⟩⟩ | ⟨-, h'⟩
      exact h'
    cases h with
    | unwon nobody commits counted =>
      exact .unwon (fun i' v c k h' => nobody i' v c k (hold i' v c k h')) commits counted
    | @won i' v c k here sole mark commits counted one =>
      have hne : i' ≠ i := by
        rintro rfl
        rw [hi] at here
        cases here
      exact .won ((Function.update_of_ne hne ..).trans here)
        (fun i' he v c k h' => sole i' he v c k (hold i' v c k h')) mark commits counted one
  call _ _ _ _ _ _ _ _ h hp hready hg := h.call hp hready hg
  env n x s place h := by
    cases h with
    | unwon nobody commits counted =>
      exact .unwon nobody (commitsOf_outside.trans commits) counted
    | won here sole mark commits counted one =>
      exact .won here sole (markOf_outside x mark) (commitsOf_outside.trans commits) counted one

lemma Fair.result {t : RevokeState} (h : Fair id s0 n t.shared place)
    (hstands : ∀ i, (course id).Stands (t.tasks i) (place i)) {a : RevokedMessageSummary}
    (hi : t.tasks i = .finished j (.ok a)) (hj : j.messageId = id) :
    (∀ i' ≠ i, ∀ v c k, place i' ≠ some (.won v c k)) ∧ (∃ v c k, place i = some (.won v c k)) ∧
      markOf id t.shared = some (j.revoker, a.revokedAtMs) ∧
      t.shared.commitsOf id = s0.commitsOf id + 1 := by
  have hi' := hstands i
  rw [hi] at hi'
  obtain ⟨p, hp, hrest⟩ := hi'
  obtain ⟨k, rfl⟩ := hrest hj
  cases h with
  | unwon nobody => exact absurd hp (nobody i _ _ _)
  | @won i' _ _ _ here sole mark commits =>
    obtain rfl : i = i' := by
      by_contra hne
      exact sole i hne _ _ _ hp
    obtain ⟨⟩ := Option.some.inj (hp.symm.trans here)
    exact ⟨sole, ⟨_, _, _, here⟩, mark, commits⟩

end

/-- **A revocation takes effect once at most**, in every run in which no call marks the message
after another has, and the log takes the commit of the revocation. -/
theorem revoke_once (limitSecs : ℤ) (id : MessageId) (s0 : Shared) (evs : List RevokeEvent)
    (hg : GivenRun (machine limitSecs) (Unraced id) (.init s0) evs) :
    Once id s0 ((machine limitSecs).run (.init s0) evs)
      fun u => (machine limitSecs).calls (discounts id u) (.init s0) evs := by
  have hstart : Fair id s0 0 s0 fun _ => none := .unwon nofun rfl rfl
  have hrun := fun u => (guards limitSecs id u s0).run (s := .init s0) hstart (fun _ => rfl) evs hg
  simp only [Nat.zero_add] at hrun
  obtain ⟨place, hfair, hstands⟩ := hrun 0
  constructor
  case success =>
    intro i i' j j' a a' hi hj hi' hj'
    obtain ⟨hsole, -⟩ := hfair.result hstands hi hj
    obtain ⟨-, ⟨v, c, k, hp⟩, -⟩ := hfair.result hstands hi' hj'
    by_contra hne
    exact hsole i' (Ne.symm hne) v c k hp
  case stored =>
    intro i j a hi hj
    exact markOf_eq_some (hfair.result hstands hi hj).2.2.1
  case commit =>
    intro i j a hi hj
    exact (hfair.result hstands hi hj).2.2.2
  case commits =>
    cases hfair with
    | unwon _ commits => exact Nat.le_trans (Nat.le_of_eq commits) (Nat.le_succ _)
    | won _ _ _ commits _ one =>
      rw [commits]
      exact Nat.add_le_add_left one.1 _
  case discount =>
    intro u
    obtain ⟨place, hfair, -⟩ := hrun u
    cases hfair with
    | unwon _ _ counted => exact Nat.le_trans (Nat.le_of_eq counted) (Nat.zero_le _)
    | won _ _ _ _ counted one => exact Nat.le_trans counted one.2

/-- A group that user 2 owns. User 1 has sent the message 7, and user 3 has two messages to
read there. -/
def groupChat : Shared where
  messages := Table.empty.put 7 {
    messageId := 7, channelId := 10, senderId := 1, pts := some 5, localMessageId := none,
    content := "hello", messageType := .text, metadata := "", replyToMessageId := none,
    createdAt := 0, updatedAt := 0, deleted := false, deletedAt := none, revoked := false,
    revokedAt := none, revokedBy := none, readDetailExpiresAt := none }
  channels c := if c = 10 then some (.newGroup 10 2) else none
  channelTypes c := if c = 10 then some .group else none
  unread := Table.empty.put (3, 10) 2
  lastReadPts _ _ := some 3
  log := []

/-- The task goes on, at the time `t`, and all goes well. -/
def goesOn (t : Millis) (i : ℕ) : RevokeEvent := .step i ⟨t, .ok⟩

/-- The sender revokes the message, and an administrator comes too late. -/
def oneAfterTheOther : List RevokeEvent :=
  [.start 0 (.revokeMessageWithAuth 7 10 1), .start 1 (.revokeMessageAdmin 7 9)] ++
  List.replicate 11 (goesOn 1000 0) ++ List.replicate 2 (goesOn 2000 1)

theorem revoke_once_sample : GivenRun (machine 0) (Unraced 7) (.init groupChat) oneAfterTheOther ∧
    Once 7 groupChat ((machine 0).run (.init groupChat) oneAfterTheOther)
      fun u => (machine 0).calls (discounts 7 u) (.init groupChat) oneAfterTheOther := by
  have hg : GivenRun (machine 0) (Unraced 7) (.init groupChat) oneAfterTheOther := by decide
  exact ⟨hg, revoke_once 0 7 groupChat oneAfterTheOther hg⟩

/-- The sender and an administrator both see that the message is not revoked. -/
def bothAtOnce : List RevokeEvent :=
  [.start 0 (.revokeMessageWithAuth 7 10 1), .start 1 (.revokeMessageAdmin 7 9)] ++
  List.replicate 5 (goesOn 1000 0) ++ List.replicate 3 (goesOn 2000 1) ++
  List.replicate 6 (goesOn 1000 0) ++ List.replicate 6 (goesOn 2000 1)

/-- Both calls succeed, there are two commits on the log, and user 3 has nothing to read
any more, with a message left that they have not read. -/
theorem both_revoke : let s := (machine 0).run (.init groupChat) bothAtOnce
    (s.tasks 0).result = some (.ok ⟨7, 10, 2, 1, 1000⟩) ∧
    (s.tasks 1).result = some (.ok ⟨7, 10, 2, 9, 2000⟩) ∧
    s.shared.commitsOf 7 = 2 ∧ s.shared.unread.get (3, 10) = some 0 ∧
    ¬ Once 7 groupChat s
      fun u => (machine 0).calls (discounts 7 u) (.init groupChat) bothAtOnce := by
  refine ⟨by decide, by decide, by decide, by decide, fun h => ?_⟩
  have h3 := h.discount 3
  revert h3
  decide

end PrivChat.Revoke
