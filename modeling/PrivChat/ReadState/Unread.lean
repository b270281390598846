import PrivChat.ReadState.Service
import PrivChat.Tasks.Terms
import Mathlib.Data.Finset.Card

/-!
What the unread counters count.

A counter goes up when a message is sent, is set to zero when the user reads, and goes down by one
when a message is revoked. Beside it stand the messages that the user has not read: those of
others, not revoked, that were counted when they were sent and that are beyond the cursor. The
counter is their number as long as the user always reads up to the last of them, and only messages
are revoked that were counted for everybody who has not read as far.
-/

namespace PrivChat.ReadState

open Db Tasks
open Channels (UserId ChannelId Channel ChannelType ServerError)
open Timeline (Message MessageId)

namespace Shared

variable (s : Shared)

def unreadCount (u : UserId) (c : ChannelId) : ℕ := (s.unread.get (u, c)).getD 0

/-- The statement takes no user twice. -/
def incrementUserChannelUnread (c : ChannelId) (users : List UserId) (count : ℕ) : Shared :=
  let unread := users.foldl (fun t u => t.put (u, c) ((t.get (u, c)).getD 0 + count)) s.unread
  if users.Nodup then { s with unread := unread } else s

def nextPts (c : ChannelId) : ℕ := (s.currentPts c).getD 0 + 1

def advancePts (c : ChannelId) : Shared :=
  { s with currentPts := Function.update s.currentPts c (some (s.nextPts c)) }

/-- The message is stored under the next number of its channel. -/
def commitMessage (m : Message) : Shared :=
  let row := { m with pts := some (s.nextPts m.channelId), revoked := false }
  { s.advancePts m.channelId with messages := s.messages.put m.messageId row }

end Shared

structure Books where
  shared : Shared
  counted : List (MessageId × UserId)

namespace Books

variable (b : Books)

/-- A message that is there already is not sent again. System messages are not counted. -/
def send (m : Message) (recipients : List UserId) : Books :=
  if (b.shared.messages.get m.messageId).isSome then b
  else
    let receivers := recipients.filter (· ≠ m.senderId)
    let s := b.shared.commitMessage m
    if receivers ≠ [] ∧ m.messageType ≠ .system then
      ⟨s.incrementUserChannelUnread m.channelId receivers 1,
        if receivers.Nodup then b.counted ++ receivers.map (m.messageId, ·) else b.counted⟩
    else ⟨s, b.counted⟩

/-- The messages that the user has not read: from others, not revoked, counted for the user when
they were sent, and beyond the cursor. -/
def unreadIds (u : UserId) (c : ChannelId) : Finset MessageId :=
  b.shared.messages.keysWhere fun id m =>
    decide (m.channelId = c ∧ m.senderId ≠ u ∧ m.revoked = false ∧ (id, u) ∈ b.counted ∧
      b.shared.cursor u c < m.pts.getD 0)

def ptsOf (id : MessageId) : ℕ := ((b.shared.messages.get id).bind (·.pts)).getD 0

end Books

/-! ### One call after the other -/

/-- Beside the three calls: channels change, and are loaded into the cache and dropped from it;
other commits are made. The cursor of a member that is loaded starts at zero. -/
inductive Call
  | send (m : Message) (recipients : List UserId)
  | revoke (j : Revoke.Job)
  | markRead (j : Job)
  | setChannel (c : ChannelId) (channel : Option Channel)
  | load (u : UserId) (c : ChannelId)
  | drop (u : UserId) (c : ChannelId)
  | commit (c : ChannelId)

/-- The database answers. -/
def Answered (o : Moment) : Prop := o.outcome = .ok

def Fine (o : Revoke.Moment) : Prop := o.outcome = .ok

/-- What a call that has come to its end leaves behind. -/
inductive Step (limitSecs : ℤ) (tracked : Bool) (b : Books) : Call → Books → Prop
  | send (m recipients) : Step limitSecs tracked b (.send m recipients) (b.send m recipients)
  | revoke {j r s'} : (Revoke.machine limitSecs).EndsIn Fine
      ((Revoke.machine limitSecs).prog j) b.shared.toShared r s' →
      Step limitSecs tracked b (.revoke j) { b with shared := { b.shared with toShared := s' } }
  | markRead {j r s'} : (machine tracked).EndsIn Answered ((machine tracked).prog j) b.shared r s' →
      Step limitSecs tracked b (.markRead j) { b with shared := s' }
  | setChannel (c channel) : Step limitSecs tracked b (.setChannel c channel)
      { b with shared := { b.shared with
        channels := Function.update b.shared.channels c channel } }
  | load (u c) : Step limitSecs tracked b (.load u c)
      { b with shared := b.shared.setCached u c (some 0) }
  | drop (u c) : Step limitSecs tracked b (.drop u c)
      { b with shared := b.shared.setCached u c none }
  | commit (c) : Step limitSecs tracked b (.commit c)
      { b with shared := b.shared.advancePts c }

/-- When the counters stay right: who reads, reads up to the last message that counts as unread;
and a message that is revoked was counted for everybody who has a counter and has not read as
far. -/
def Call.Exact (b : Books) : Call → Prop
  | .markRead j =>
    ∀ old, b.shared.cached j.readerId j.channelId = some old →
      effectiveReadPts j.readPts j.clientVisiblePts ≠ 0 →
      ∀ id ∈ b.unreadIds j.readerId j.channelId,
        b.ptsOf id ≤ max old (effectiveReadPts j.readPts j.clientVisiblePts)
  | .revoke j =>
    ∀ m, b.shared.messages.get j.messageId = some m → ∀ u, u ≠ m.senderId →
      0 < b.shared.unreadCount u m.channelId →
      b.shared.cursor u m.channelId < m.pts.getD 0 → (j.messageId, u) ∈ b.counted
  | .send _ _ | .setChannel _ _ | .load _ _ | .drop _ _ | .commit _ => True

/-- A run of calls, each of which is exact. -/
inductive ExactRun (limitSecs : ℤ) (tracked : Bool) (b0 : Books) : List Call → Books → Prop
  | nil : ExactRun limitSecs tracked b0 [] b0
  | snoc {calls b call b'} : ExactRun limitSecs tracked b0 calls b → call.Exact b →
      Step limitSecs tracked b call b' → ExactRun limitSecs tracked b0 (calls ++ [call]) b'

def Books.start (channels : ChannelId → Option Channel)
    (channelTypes : ChannelId → Option ChannelType) (currentPts : ChannelId → Option ℕ)
    (members : UserId → ChannelId → Bool) : Books where
  shared :=
    { messages := .empty
      channels := channels
      channelTypes := channelTypes
      unread := .empty
      lastReadPts := fun _ _ => none
      log := []
      currentPts := currentPts
      cached := fun u c => if members u c then some 0 else none
      delivered := fun _ _ => 0
      broadcasts := [] }
  counted := []

/-! ### What the calls do -/

/-- What a revocation does, alone: nothing, or it marks the message and discounts it. -/
inductive Revokes (s : Revoke.Shared) (id : MessageId) (s' : Revoke.Shared) : Prop
  | refused : s' = s → Revokes s id s'
  | marked (m : Message) (t : ℤ) (u : UserId) : s.messages.get id = some m →
      m.revoked = false → s'.messages = (s.mark id t u).messages →
      s'.unread = (match m.pts with
        | some pts => s.unread.updateWhere (s.countsUnread m.channelId pts m.senderId) (· - 1)
        | none => s.unread) → s'.lastReadPts = s.lastReadPts → Revokes s id s'

section Revoke

open Revoke

variable {limitSecs : ℤ} {s : Revoke.Shared} {id : MessageId} {m : Message}

lemma append_frame {commit : RevokeCommit} {o : Revoke.Moment} :
    (Revoke.Shared.exec (.appendServerEventCommit commit) o s).2.messages = s.messages ∧
    (Revoke.Shared.exec (.appendServerEventCommit commit) o s).2.lastReadPts = s.lastReadPts ∧
    (Revoke.Shared.exec (.appendServerEventCommit commit) o s).2.unread = s.unread := by
  simp only [Revoke.Shared.exec]
  split
  · dsimp only
    split <;> exact ⟨rfl, rfl, rfl⟩
  · exact ⟨rfl, rfl, rfl⟩

variable {u : UserId}

lemma alone_revokeEffects {c : ChannelId} : (Revoke.machine limitSecs).Alone Fine
      (fun _ s' => s'.messages = s.messages ∧ s'.lastReadPts = s.lastReadPts ∧
        s'.unread = match m.pts with
          | some pts => s.unread.updateWhere (s.countsUnread c pts m.senderId) (· - 1)
          | none => s.unread) (revokeEffects id c u m) s := by
  unfold revokeEffects discountUnreadForRevokedMessage
  cases m.pts with
  | none => exact fun _ _ _ _ o _ => append_frame
  | some pts =>
    rintro ⟨_, _⟩ rfl
    exact fun _ _ _ _ o _ => append_frame

lemma alone_revokeMessageCore (hm : s.messages.get id = some m) (hr : m.revoked = false)
    : (Revoke.machine limitSecs).Alone Fine (fun _ s' => Revokes s id s')
      (revokeMessageCore id m.channelId u) s := by
  rintro ⟨t, _⟩ rfl ⟨_, _⟩ rfl
  simp only [Revoke.machine, Revoke.Shared.exec, Revoke.answer, hm, Prog.bind]
  rw [hr, if_neg (by simp)]
  rintro ⟨_, _⟩ rfl
  simp only [Revoke.Shared.exec, Revoke.answer, hm]
  exact alone_revokeEffects.mono fun _ _ h => .marked m t u hm hr h.1 h.2.2 h.2.1

lemma alone_authorize {c : ChannelId} {g : Unit → RevokeProg RevokedMessageSummary}
    (h : (Revoke.machine limitSecs).Alone Fine (fun _ s' => Revokes s id s') (g ()) s) :
    (Revoke.machine limitSecs).Alone Fine (fun _ s' => Revokes s id s')
      (authorize limitSecs c u m >>= g) s := by
  intro _ _
  simp only [Prog.bind]
  split
  · exact .refused rfl
  · split
    · intro _ _
      simp only [Prog.bind]
      split
      · exact h
      · exact .refused rfl
    · exact h

lemma alone_revoke {j : Revoke.Job} : (Revoke.machine limitSecs).Alone Fine
    (fun _ s' => Revokes s j.messageId s') ((Revoke.machine limitSecs).prog j) s := by
  have hfind : ∀ (id : MessageId) (text : String) (g : Message → RevokeProg RevokedMessageSummary),
      (∀ m, s.messages.get id = some m → m.revoked = false →
        (Revoke.machine limitSecs).Alone Fine (fun _ s' => Revokes s id s') (g m) s) →
      (Revoke.machine limitSecs).Alone Fine (fun _ s' => Revokes s id s')
        (findUnrevoked id text >>= g) s := by
    rintro id text g hg ⟨_, _⟩ rfl
    simp only [Revoke.machine, Revoke.Shared.exec, Revoke.answer, Prog.mapErr, Prog.bind]
    cases hm : s.messages.get id with
    | none => exact .refused rfl
    | some m =>
      cases hr : m.revoked with
      | true =>
        simp only [hr]
        exact .refused rfl
      | false =>
        simp only [hr]
        exact hg m hm hr
  cases j with
  | revokeMessageWithAuth id c u =>
    exact hfind id _ _ fun m hm hr => alone_authorize (alone_revokeMessageCore hm hr)
  | revokeMessageAdmin id u => exact hfind id _ _ fun m hm hr => alone_revokeMessageCore hm hr

end Revoke

/-! ### Reading, alone -/

/-- What a call that reads does, alone: nothing that matters here, or it takes the cursor on and
the counter to zero. -/
inductive Reads (s : Shared) (j : Job) (s' : Shared) : Prop
  | refused : s'.toShared = s.toShared → s'.currentPts = s.currentPts → s'.cached = s.cached →
      Reads s j s'
  | read (old : ℕ) : s.cached j.readerId j.channelId = some old →
      effectiveReadPts j.readPts j.clientVisiblePts ≠ 0 →
      j.readPts ≤ (s.currentPts j.channelId).getD 0 →
      s'.messages = s.messages → s'.currentPts = s.currentPts →
      (∀ u c, s'.cached u c = if u = j.readerId ∧ c = j.channelId then
        some (max old (effectiveReadPts j.readPts j.clientVisiblePts)) else s.cached u c) →
      (∀ u c, s'.cursor u c = if u = j.readerId ∧ c = j.channelId then
        max (s.cursor u c) (max old (effectiveReadPts j.readPts j.clientVisiblePts))
        else s.cursor u c) →
      (∀ u c, s'.unreadCount u c = if u = j.readerId ∧ c = j.channelId then 0
        else s.unreadCount u c) → Reads s j s'

section Reading

variable {tracked : Bool} {s : Shared} {u : UserId} {c : ChannelId}

lemma cached_setCached {o : Option ℕ} {u' : UserId}
    {c' : ChannelId} : (s.setCached u c o).cached u' c' =
      if u' = u ∧ c' = c then o else s.cached u' c' := by
  unfold Shared.setCached
  by_cases hu : u' = u
  · subst hu
    by_cases hc : c' = c
    · simp [hc]
    · simp [hc]
  · simp [hu]

lemma unreadCount_clear (s : Shared) (u : UserId) (c : ChannelId) (u' : UserId) (c' : ChannelId) :
    ((s.clear (.ensureUserChannel u c)).clear (.clearUnread u c)).unreadCount u' c' =
      if u' = u ∧ c' = c then 0 else s.unreadCount u' c' := by
  have hensure : ∀ k, (s.clear (.ensureUserChannel u c)).unread.get k =
      if k = (u, c) then some ((s.unread.get (u, c)).getD 0) else s.unread.get k := by
    intro k
    unfold Shared.clear
    dsimp only
    cases hr : s.unread.get (u, c) with
    | some n =>
      by_cases hk : k = (u, c)
      · simp [hk, hr]
      · simp [hk]
    | none =>
      by_cases hk : k = (u, c)
      · simp [hk]
      · simp [hk]
  have hclear : ((s.clear (.ensureUserChannel u c)).clear (.clearUnread u c)).unread =
      (s.clear (.ensureUserChannel u c)).unread.modify (u, c) fun _ => 0 := rfl
  unfold Shared.unreadCount
  rw [hclear]
  by_cases hk : (u', c') = (u, c)
  · obtain ⟨rfl, rfl⟩ := Prod.mk.inj hk
    rw [Table.get_modify_self, hensure]
    simp
  · rw [Table.get_modify_of_ne _ hk, hensure, if_neg hk, if_neg]
    rintro ⟨rfl, rfl⟩
    exact hk rfl

lemma alone_afterUpsert {x : UpsertCursorResult} : (machine tracked).Alone Answered
      (fun _ s' => ∃ unread broadcasts,
        s' = { s with unread := unread, broadcasts := broadcasts } ∧ ∀ u' c',
          s'.unreadCount u' c' = if u' = u ∧ c' = c then 0 else s.unreadCount u' c')
      (afterUpsert u c x) s := by
  have hclear : ∃ unread, (s.clear (.ensureUserChannel u c)).clear (.clearUnread u c) =
      { s with unread := unread } := by
    simp only [Shared.clear]
    split <;> exact ⟨_, rfl⟩
  obtain ⟨unread, hclear⟩ := hclear
  have hcount := unreadCount_clear s u c
  rw [hclear] at hcount
  rintro ⟨_, _⟩ rfl ⟨_, _⟩ rfl ⟨_, _⟩ rfl
  change (machine tracked).Alone Answered _ (if x.advanced then _ else _)
    ((s.clear (.ensureUserChannel u c)).clear (.clearUnread u c))
  rw [hclear]
  split
  · intro o _
    dsimp only
    split <;> exact ⟨unread, _, rfl, hcount⟩
  · exact ⟨unread, _, rfl, hcount⟩

lemma effectiveReadPts_le (readPts : ℕ) (visible : Option ℕ) :
    effectiveReadPts readPts visible ≤ readPts := by
  cases visible with
  | none => exact le_rfl
  | some v => exact min_le_left _ _

lemma alone_alignDelivered {Q : Except ServerError ReadPtsUpdateResult → Shared → Prop}
    {g : Unit → ReadProg ReadPtsUpdateResult} {pts : ℕ}
    (h : ∀ delivered, (machine tracked).Alone Answered Q (g ()) { s with delivered := delivered }) :
    (machine tracked).Alone Answered Q (alignDelivered tracked u c pts >>= g) s := by
  unfold alignDelivered
  split
  · intro o _
    dsimp only
    split
    · rintro ⟨_, _⟩ rfl
      exact h _
    · exact h _
  · exact h _

lemma alone_markRead {j : Job} : (machine tracked).Alone Answered (fun _ s' => Reads s j s')
    ((machine tracked).prog j) s := by
  rintro ⟨_, _⟩ rfl
  change (machine tracked).Alone Answered (fun _ s' => Reads s j s')
    (if (s.currentPts j.channelId).getD 0 < j.readPts then _ else _) s
  split
  · exact .refused rfl rfl rfl
  rename_i hle
  split
  · exact .refused rfl rfl rfl
  rename_i heff
  refine alone_alignDelivered fun delivered o _ => ?_
  simp only [machine, Shared.exec]
  cases hold : s.cached j.readerId j.channelId with
  | none => exact .refused rfl rfl rfl
  | some old =>
    rintro _ _ ⟨_, _⟩ rfl
    refine alone_afterUpsert.mono fun _ s' h => ?_
    obtain ⟨unread, broadcasts, rfl, hcount⟩ := h
    refine .read old hold heff (Nat.not_lt.mp hle) rfl rfl (fun u c => ?_) (fun u c => ?_) hcount
    · exact cached_setCached
    · refine (Shared.cursor_setCursor _ _ _ _).trans ?_
      rw [Shared.greatest_eq]
      split
      · rename_i he
        rw [he.1, he.2]
        rfl
      · rfl

end Reading

lemma Books.mem_unreadIds {b : Books} {u : UserId} {c : ChannelId} {id : MessageId} :
    id ∈ b.unreadIds u c ↔ ∃ m, b.shared.messages.get id = some m ∧ m.channelId = c ∧
      m.senderId ≠ u ∧ m.revoked = false ∧ (id, u) ∈ b.counted ∧
      b.shared.cursor u c < m.pts.getD 0 := by
  simp [Books.unreadIds, Table.mem_keysWhere]

/-- The counters are the numbers of unread messages; cursors are not beyond the last commit, and
only messages that are there were counted. -/
structure Right (b : Books) : Prop where
  count : ∀ u c, b.shared.unreadCount u c = (b.unreadIds u c).card
  cursor : ∀ u c, b.shared.cursor u c < b.shared.nextPts c
  cached : ∀ u c n, b.shared.cached u c = some n → n < b.shared.nextPts c
  counted : ∀ id u, (id, u) ∈ b.counted → (b.shared.messages.get id).isSome

variable {b b' : Books}

lemma Right.congr (h : Right b) (hs : b'.shared.messages = b.shared.messages)
    (hu : b'.shared.unread = b.shared.unread) (hl : b'.shared.lastReadPts = b.shared.lastReadPts)
    (hp : ∀ c, b.shared.nextPts c ≤ b'.shared.nextPts c)
    (hc : ∀ u c n, b'.shared.cached u c = some n → n = 0 ∨ b.shared.cached u c = some n)
    (hcount : b'.counted = b.counted) : Right b' where
  count u c := by
    have hids : b'.unreadIds u c = b.unreadIds u c := by
      unfold Books.unreadIds Shared.cursor
      rw [hs, hl, hcount]
    rw [hids, ← h.count u c, Shared.unreadCount, hu]
    rfl
  cursor u c := by
    have hcur : b'.shared.cursor u c = b.shared.cursor u c := by
      rw [Shared.cursor, hl]
      rfl
    rw [hcur]
    exact (h.cursor u c).trans_le (hp c)
  cached u c n hn := by
    rcases hc u c n hn with rfl | hn
    · exact Nat.succ_pos _
    · exact (h.cached u c n hn).trans_le (hp c)
  counted id u hid := by
    rw [hs]
    rw [hcount] at hid
    exact h.counted id u hid

lemma nextPts_advancePts {s : Shared} (c c' : ChannelId) :
    s.nextPts c' ≤ (s.advancePts c).nextPts c' := by
  by_cases hc : c' = c
  · subst hc
    simp [Shared.nextPts, Shared.advancePts]
  · simp [Shared.nextPts, Shared.advancePts, hc]

/-! ### Sending -/

lemma unreadCount_increment {s : Shared} {c : ChannelId} {users : List UserId}
    (hn : users.Nodup) {count : ℕ} {u : UserId} {c' : ChannelId} :
    (s.incrementUserChannelUnread c users count).unreadCount u c' =
      s.unreadCount u c' + if u ∈ users ∧ c' = c then count else 0 := by
  have hfold : ∀ (users : List UserId) (t : Table (UserId × ChannelId) ℕ), users.Nodup →
      ((users.foldl (fun t u => t.put (u, c) ((t.get (u, c)).getD 0 + count)) t).get
        (u, c')).getD 0 = (t.get (u, c')).getD 0 + if u ∈ users ∧ c' = c then count else 0 := by
    intro users
    induction users with
    | nil => simp
    | cons w ws ih =>
      intro t hn
      rw [List.nodup_cons] at hn
      rw [List.foldl_cons, ih _ hn.2]
      by_cases hk : (u, c') = (w, c)
      · obtain ⟨rfl, rfl⟩ := Prod.mk.inj hk
        simp [hn.1]
      · have hne : ¬ (u = w ∧ c' = c) := fun h => hk (by rw [h.1, h.2])
        by_cases hc : c' = c
        · have huw : u ≠ w := fun h => hne ⟨h, hc⟩
          simp [hc, huw]
        · simp [hc]
  unfold Shared.incrementUserChannelUnread
  rw [if_pos hn]
  exact hfold users s.unread hn

section Sending

variable {m : Message} (users : List UserId) (t : Table (UserId × ChannelId) ℕ)

/-- The books after a message was stored and counted for these users. -/
def Books.stored (b : Books) (m : Message) (users : List UserId)
    (t : Table (UserId × ChannelId) ℕ) : Books :=
  ⟨{ b.shared.commitMessage m with unread := t }, b.counted ++ users.map (m.messageId, ·)⟩

lemma Right.not_counted (h : Right b) (hf : b.shared.messages.get m.messageId = none)
    (u : UserId) : (m.messageId, u) ∉ b.counted := by
  intro hu
  have hsome := h.counted _ _ hu
  rw [hf] at hsome
  cases hsome

/-- A new message is unread for those it is counted for: its number is beyond every cursor. -/
lemma Right.unreadIds_stored (h : Right b) (hf : b.shared.messages.get m.messageId = none)
    (hu : ∀ u ∈ users, u ≠ m.senderId) (u : UserId) (c : ChannelId) :
    (b.stored m users t).unreadIds u c =
      if u ∈ users ∧ c = m.channelId then insert m.messageId (b.unreadIds u c)
      else b.unreadIds u c := by
  have hself : m.messageId ∈ (b.stored m users t).unreadIds u c ↔ u ∈ users ∧ c = m.channelId := by
    simp only [Books.mem_unreadIds, Books.stored, Shared.commitMessage, Table.get_put_self,
      Option.some.injEq, exists_eq_left', Option.getD_some, List.mem_append, h.not_counted hf,
      false_or, List.mem_map, Prod.mk.injEq, true_and, exists_eq_right]
    constructor
    · rintro ⟨rfl, -, hmem, -⟩
      exact ⟨hmem, rfl⟩
    · rintro ⟨hmem, rfl⟩
      exact ⟨rfl, (hu u hmem).symm, hmem, h.cursor u m.channelId⟩
  have hother : ∀ id, id ≠ m.messageId →
      (id ∈ (b.stored m users t).unreadIds u c ↔ id ∈ b.unreadIds u c) := by
    intro id hne
    have hget : (b.stored m users t).shared.messages.get id = b.shared.messages.get id :=
      Table.get_put_of_ne _ hne
    have hmem : (id, u) ∈ (b.stored m users t).counted ↔ (id, u) ∈ b.counted := by
      simp [Books.stored, Ne.symm hne]
    rw [Books.mem_unreadIds, Books.mem_unreadIds, hget]
    simp only [hmem]
    rfl
  ext id
  by_cases hid : id = m.messageId
  · subst hid
    rw [hself]
    split
    · simp_all
    · rename_i hc
      simp [hc, Books.mem_unreadIds, hf]
  · rw [hother id hid]
    split <;> simp [hid]

lemma Right.stored (h : Right b) (hf : b.shared.messages.get m.messageId = none)
    (hu : ∀ u ∈ users, u ≠ m.senderId) (hun : ∀ u c, (t.get (u, c)).getD 0 =
      b.shared.unreadCount u c + if u ∈ users ∧ c = m.channelId then 1 else 0) :
    Right (b.stored m users t) := by
  have hnext : ∀ c, b.shared.nextPts c ≤ (b.stored m users t).shared.nextPts c :=
    nextPts_advancePts m.channelId
  refine ⟨fun u c => ?_, fun u c => ?_, fun u c n hn => ?_, fun id u hid => ?_⟩
  · rw [h.unreadIds_stored users t hf hu]
    refine (hun u c).trans ?_
    rw [h.count]
    split
    · have hnot : m.messageId ∉ b.unreadIds u c := by simp [Books.mem_unreadIds, hf]
      rw [Finset.card_insert_of_notMem hnot]
    · rfl
  · exact (h.cursor u c).trans_le (hnext c)
  · exact (h.cached u c n hn).trans_le (hnext c)
  · by_cases hne : id = m.messageId
    · subst hne
      exact Option.isSome_iff_exists.mpr ⟨_, Table.get_put_self⟩
    · have hold : (id, u) ∈ b.counted := by simpa [Books.stored, Ne.symm hne] using hid
      exact (Table.get_put_of_ne _ hne).symm ▸ h.counted id u hold

lemma Right.send (h : Right b) {recipients : List UserId} : Right (b.send m recipients) := by
  -- the message may be counted for nobody
  have hnobody : b.shared.messages.get m.messageId = none →
      Right ⟨b.shared.commitMessage m, b.counted⟩ := by
    intro hf
    have hr := h.stored [] b.shared.unread hf nofun fun u c => by simp [Shared.unreadCount]
    rwa [Books.stored, List.map_nil, List.append_nil] at hr
  unfold Books.send
  split
  · exact h
  rename_i hf
  have hf : b.shared.messages.get m.messageId = none := by simpa using hf
  dsimp only
  split
  · by_cases hn : (recipients.filter (· ≠ m.senderId)).Nodup
    · have hr := h.stored (recipients.filter (· ≠ m.senderId)) _ hf
        (fun u hu => by simpa using (List.mem_filter.mp hu).2)
        fun u c => unreadCount_increment (s := b.shared.commitMessage m) hn
      simpa only [Books.stored, Shared.incrementUserChannelUnread, if_pos hn] using hr
    · rw [Shared.incrementUserChannelUnread, if_neg hn, if_neg hn]
      exact hnobody hf
  · exact hnobody hf

end Sending

/-! ### Revoking -/

section Revoking

variable {m : Message} {id : MessageId} {s' : Revoke.Shared}

/-- Of a message that is revoked, everybody who had it unread has it unread no more. -/
lemma unreadIds_revoke (hm : b.shared.messages.get id = some m)
    {t : ℤ} {w : UserId} (hs : s'.messages = (b.shared.toShared.mark id t w).messages)
    (hl : s'.lastReadPts = b.shared.lastReadPts) (u : UserId) (c : ChannelId) :
    ({ b with shared := { b.shared with toShared := s' } } : Books).unreadIds u c =
      (b.unreadIds u c).erase id := by
  have hcur : ({ b.shared with toShared := s' } : Shared).cursor u c = b.shared.cursor u c :=
    congrArg (fun f => (f u c).getD 0) hl
  ext id'
  rw [Finset.mem_erase, Books.mem_unreadIds, Books.mem_unreadIds]
  rw [hs, hcur]
  by_cases hid : id' = id
  · subst hid
    simp only [Revoke.Shared.mark, Table.get_modify_self, hm, Option.map_some, Option.some.injEq,
      exists_eq_left', ne_eq, not_true_eq_false, false_and, iff_false]
    rintro ⟨-, -, hr, -⟩
    cases hr
  · simp [Revoke.Shared.mark, hid]

lemma unreadCount_discount {s : Shared} (hs : s'.unread = match m.pts with
      | some pts => s.unread.updateWhere (s.countsUnread m.channelId pts m.senderId) (· - 1)
      | none => s.unread) {u : UserId} {c : ChannelId} :
    ({ s with toShared := s' } : Shared).unreadCount u c =
      if c = m.channelId ∧ u ≠ m.senderId ∧ 0 < s.unreadCount u c ∧
        s.cursor u c < m.pts.getD 0 then s.unreadCount u c - 1 else s.unreadCount u c := by
  unfold Shared.unreadCount
  rw [hs]
  cases hp : m.pts with
  | none =>
    rw [if_neg]
    rintro ⟨-, -, -, hlt⟩
    exact absurd hlt (Nat.not_lt_zero _)
  | some pts =>
    rw [Table.get_updateWhere]
    cases hn : s.unread.get (u, c) with
    | none => simp
    | some n =>
      simp only [Option.map_some, Option.getD_some, Revoke.Shared.countsUnread, decide_eq_true_eq]
      rfl

lemma Right.revoke (h : Right b) {j : Revoke.Job} (hx : (Call.revoke j).Exact b)
    (hr : Revokes b.shared.toShared j.messageId s') :
    Right { b with shared := { b.shared with toShared := s' } } := by
  cases hr with
  | refused hs =>
    subst hs
    exact h
  | marked m t w hm hnr hs hu hl =>
    have hcur : ∀ u c, ({ b.shared with toShared := s' } : Shared).cursor u c =
        b.shared.cursor u c := fun u c => congrArg (fun f => (f u c).getD 0) hl
    refine ⟨fun u c => ?_, fun u c => ?_, h.cached, fun id u hid => ?_⟩
    · rw [unreadIds_revoke hm hs hl, unreadCount_discount hu, Finset.card_erase_eq_ite,
        ← h.count u c]
      -- the counter goes down exactly if the message was unread
      refine if_congr ?_ rfl rfl
      rw [Books.mem_unreadIds, hm]
      simp only [Option.some.injEq, exists_eq_left']
      constructor
      · rintro ⟨rfl, hsend, hpos, hlt⟩
        exact ⟨rfl, Ne.symm hsend, hnr, hx m hm u hsend hpos hlt, hlt⟩
      · rintro ⟨rfl, hsend, -, hcount, hlt⟩
        refine ⟨rfl, Ne.symm hsend, ?_, hlt⟩
        rw [h.count]
        exact Finset.card_pos.mpr ⟨j.messageId, Books.mem_unreadIds.mpr
          ⟨m, hm, rfl, hsend, hnr, hcount, hlt⟩⟩
    · rw [hcur]
      exact h.cursor u c
    · have hsome := h.counted id u hid
      rw [hs]
      simp only [Revoke.Shared.mark, Table.get_modify]
      split
      · rename_i he
        rw [he] at hsome
        rw [Option.isSome_map]
        exact hsome
      · exact hsome

end Revoking

lemma Right.markRead (h : Right b) {j : Job} {s' : Shared} (hx : (Call.markRead j).Exact b)
    (hr : Reads b.shared j s') : Right { b with shared := s' } := by
  cases hr with
  | refused hs hp hc =>
    refine h.congr (congrArg (·.messages) hs) (congrArg (·.unread) hs)
      (congrArg (·.lastReadPts) hs) (fun c => ?_) (fun u c n hn => ?_) rfl
    · exact (congrArg (fun f => (f c).getD 0 + 1) hp).ge
    · dsimp only at hn
      rw [hc] at hn
      exact .inr hn
  | read old hold heff hle hm hp hc hcur hun =>
    have hnext : ∀ c, s'.nextPts c = b.shared.nextPts c :=
      fun c => congrArg (fun f => (f c).getD 0 + 1) hp
    have hmax : max old (effectiveReadPts j.readPts j.clientVisiblePts) <
        b.shared.nextPts j.channelId := by
      have h1 := h.cached _ _ _ hold
      have h2 := effectiveReadPts_le j.readPts j.clientVisiblePts
      unfold Shared.nextPts at h1 ⊢
      omega
    refine ⟨fun u c => ?_, fun u c => ?_, fun u c n hn => ?_, fun id u hid => ?_⟩
    · rw [hun]
      by_cases he : u = j.readerId ∧ c = j.channelId
      · obtain ⟨rfl, rfl⟩ := he
        rw [if_pos ⟨rfl, rfl⟩, eq_comm, Finset.card_eq_zero, Finset.eq_empty_iff_forall_notMem]
        intro id hid
        rw [Books.mem_unreadIds] at hid
        rw [hm, hcur, if_pos ⟨rfl, rfl⟩] at hid
        obtain ⟨m, hget, hch, hsend, hrev, hcount, hlt⟩ := hid
        -- a message beyond the new cursor was unread before, and so was not beyond it
        have hold' : id ∈ b.unreadIds j.readerId j.channelId :=
          Books.mem_unreadIds.mpr ⟨m, hget, hch, hsend, hrev, hcount, by omega⟩
        have hbound := hx old hold heff id hold'
        have hpts : b.ptsOf id = m.pts.getD 0 := by
          rw [Books.ptsOf, hget]
          rfl
        omega
      · rw [if_neg he, h.count]
        unfold Books.unreadIds
        rw [hm, hcur, if_neg he]
    · dsimp only
      rw [hnext, hcur]
      split
      · rename_i he
        obtain ⟨rfl, rfl⟩ := he
        exact max_lt (h.cursor _ _) hmax
      · exact h.cursor u c
    · dsimp only at hn ⊢
      rw [hnext]
      rw [hc] at hn
      split at hn
      · rename_i he
        obtain ⟨rfl, rfl⟩ := he
        cases hn
        exact hmax
      · exact h.cached u c n hn
    · dsimp only
      rw [hm]
      exact h.counted id u hid

lemma Right.step {limitSecs : ℤ} {tracked : Bool} {call : Call} (h : Right b)
    (hx : call.Exact b) (hs : Step limitSecs tracked b call b') : Right b' := by
  cases hs with
  | send m recipients => exact h.send
  | @revoke j r s' he => exact h.revoke hx (alone_revoke.endsIn he)
  | @markRead j r s' he => exact h.markRead hx (alone_markRead.endsIn he)
  | setChannel c channel => exact h.congr rfl rfl rfl (fun _ => le_rfl) (fun _ _ _ => .inr) rfl
  | load u c =>
    refine h.congr rfl rfl rfl (fun _ => le_rfl) (fun u' c' n hn => ?_) rfl
    rw [cached_setCached] at hn
    split at hn
    · exact .inl (Option.some.inj hn).symm
    · exact .inr hn
  | drop u c =>
    refine h.congr rfl rfl rfl (fun _ => le_rfl) (fun u' c' n hn => ?_) rfl
    rw [cached_setCached] at hn
    split at hn
    · cases hn
    · exact .inr hn
  | commit c =>
    exact h.congr rfl rfl rfl (nextPts_advancePts c) (fun _ _ _ => .inr) rfl

lemma right_start {channels : ChannelId → Option Channel}
    {channelTypes : ChannelId → Option ChannelType} {currentPts : ChannelId → Option ℕ}
    {members : UserId → ChannelId → Bool} :
    Right (.start channels channelTypes currentPts members) := by
  refine ⟨fun u c => ?_, fun u c => Nat.succ_pos _, fun u c n hn => ?_, nofun⟩
  · rw [eq_comm]
    exact Finset.card_eq_zero.mpr (Finset.eq_empty_of_forall_notMem fun id hid => by
      obtain ⟨m, hm, -⟩ := Books.mem_unreadIds.mp hid
      cases hm)
  · have hzero : n = 0 := by
      simp only [Books.start] at hn
      split at hn
      · exact (Option.some.inj hn).symm
      · cases hn
    rw [hzero]
    exact Nat.succ_pos _

/-- **What the unread counters count.** In every sequence of sent messages, revocations and reads in
which whoever reads reads up to the last message that counts as unread, and in which a message is
only revoked if it was counted for everybody with a counter who has not read as far: after each
call, the stored counter of every user in every channel is the number of messages of others in
the channel, not revoked and counted for the user when they were sent, whose number is beyond the
stored cursor. -/
theorem unread_counts_unread (limitSecs : ℤ) (tracked : Bool)
    (channels : ChannelId → Option Channel) (channelTypes : ChannelId → Option ChannelType)
    (currentPts : ChannelId → Option ℕ) (members : UserId → ChannelId → Bool)
    (calls : List Call) (b : Books)
    (hrun : ExactRun limitSecs tracked (.start channels channelTypes currentPts members) calls b)
    (u : UserId) (c : ChannelId) : b.shared.unreadCount u c = (b.unreadIds u c).card := by
  have hright : Right b := by
    induction hrun with
    | nil => exact right_start
    | snoc _ hx hs ih => exact ih.step hx hs
  exact hright.count u c

/-! ### Messages to one user

User `2` writes to user `1` in channel `5`. -/

def sampleMessage (id : MessageId) : Message where
  messageId := id
  channelId := 5
  senderId := 2
  pts := none
  localMessageId := none
  content := ""
  messageType := .text
  metadata := ""
  replyToMessageId := none
  createdAt := 0
  updatedAt := 0
  deleted := false
  deletedAt := none
  revoked := false
  revokedAt := none
  revokedBy := none
  readDetailExpiresAt := none

def sampleStart : Books :=
  .start (fun _ => none) (fun _ => none) (fun _ => none) fun u c => decide (u = 1 ∧ c = 5)

/-- What is left once user `1` has read up to that number. -/
def Books.afterRead (b : Books) (readPts : ℕ) : Books :=
  { b with shared := ((machine false).evalIn ⟨.ok, none⟩
      ((machine false).prog ⟨1, 5, readPts, none⟩) b.shared).2 }

lemma step_afterRead {readPts : ℕ} :
    Step 0 false b (.markRead ⟨1, 5, readPts, none⟩) (b.afterRead readPts) :=
  .markRead (Machine.endsIn_evalIn (P := Answered) (o := ⟨.ok, none⟩) rfl _ b.shared)

def sampleOne : Books := sampleStart.send (sampleMessage 11) [1, 2]

def sampleThree : Books :=
  (sampleOne.send (sampleMessage 12) [1, 2]).send (sampleMessage 13) [1, 2]

lemma sampleOne_run : ExactRun 0 false sampleStart [.send (sampleMessage 11) [1, 2]] sampleOne := by
  have hexact : (Call.send (sampleMessage 11) [1, 2]).Exact sampleStart := trivial
  exact ExactRun.nil.snoc hexact (.send _ _)

lemma sampleOne_exact : (Call.markRead ⟨1, 5, 1, none⟩).Exact sampleOne := by
  intro old _ _ id hid
  refine le_max_of_le_right ?_
  revert id
  decide

theorem unread_counts_unread_sample : sampleOne.shared.unreadCount 1 5 = 1 ∧
    ((sampleOne.afterRead 1).unreadIds 1 5).card = 0 := by
  have hrun := sampleOne_run.snoc sampleOne_exact step_afterRead
  refine ⟨by decide, ?_⟩
  rw [← unread_counts_unread 0 false _ _ _ _ _ _ hrun 1 5]
  decide

/-- Three messages are sent, and user `1` reads the first: the counter says that nothing is
unread, but two messages are. -/
theorem partial_read_clears :
    Step 0 false sampleThree (.markRead ⟨1, 5, 1, none⟩) (sampleThree.afterRead 1) ∧
    (sampleThree.afterRead 1).shared.unreadCount 1 5 = 0 ∧
    ((sampleThree.afterRead 1).unreadIds 1 5).card = 2 :=
  ⟨step_afterRead, by decide, by decide⟩

end PrivChat.ReadState
