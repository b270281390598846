import PrivChat.Revoke.Service

/-!
Reading up to a number, `mark_read_pts_with_visible`, and the data it works on: the read cursors and
unread counters of the database, what the cached channels hold of their members, and the cursor
notifications that go out.
-/

namespace PrivChat.ReadState

open Tasks
open Channels (UserId ChannelId ServerError)
open Sync (Outcome)

structure ReadPtsUpdateResult where
  channelId : ChannelId
  lastReadPts : ℕ
  deriving DecidableEq

structure UpsertCursorResult where
  lastReadPts : ℕ
  advanced : Bool
  previousPts : ℕ

/-- A call of `broadcast_read_cursor`: the reader has read `(previousPts, lastReadPts]`. -/
structure Broadcast where
  readerId : UserId
  channelId : ChannelId
  previousPts : ℕ
  lastReadPts : ℕ
  deriving DecidableEq

/-- Beside the messages, counters and cursors: the number of the last commit of a channel, what
the cached channels hold of the cursors of their members, how far messages were delivered, and
the broadcasts so far. -/
structure Shared extends Revoke.Shared where
  currentPts : ChannelId → Option ℕ
  cached : UserId → ChannelId → Option ℕ
  delivered : UserId → ChannelId → ℕ
  broadcasts : List Broadcast

namespace Shared

variable (s : Shared) (u : UserId) (c : ChannelId) (pts : ℕ)

/-- The stored cursor. Without a row, nothing is read. -/
def cursor : ℕ := (s.lastReadPts u c).getD 0

def setCursor : Shared :=
  { s with
    lastReadPts := Function.update s.lastReadPts u
      (Function.update (s.lastReadPts u) c (some pts)) }

def setCached (pts : Option ℕ) : Shared :=
  { s with cached := Function.update s.cached u (Function.update (s.cached u) c pts) }

def setDelivered : Shared :=
  { s with delivered := Function.update s.delivered u (Function.update (s.delivered u) c pts) }

/-- The value the row has after the upsert: the greater of the two. -/
def greatest : ℕ :=
  match s.lastReadPts u c with
  | some old => max old pts
  | none => pts

/-- The broadcasts of one reader in one channel. -/
def broadcastsOf : List Broadcast :=
  s.broadcasts.filter fun b => b.readerId = u ∧ b.channelId = c

lemma lastReadPts_setCursor (u' : UserId)
    (c' : ChannelId) : (s.setCursor u c pts).lastReadPts u' c' =
      if u' = u ∧ c' = c then some pts else s.lastReadPts u' c' := by
  unfold setCursor
  by_cases hu : u' = u
  · subst hu
    by_cases hc : c' = c
    · simp [hc]
    · simp [hc]
  · simp [hu]

lemma cursor_setCursor {u' : UserId} {c' : ChannelId} :
    (s.setCursor u c pts).cursor u' c' = if u' = u ∧ c' = c then pts else s.cursor u' c' := by
  unfold cursor
  rw [lastReadPts_setCursor]
  split <;> rfl

lemma greatest_eq : s.greatest u c pts = max (s.cursor u c) pts := by
  unfold greatest cursor
  cases s.lastReadPts u c with
  | none => simp
  | some old => simp

end Shared

/-- What the end of a call does to the counters, in the database and in the cache. -/
inductive Clearing
  | ensureUserChannel (u : UserId) (c : ChannelId)
  | clearUnread (u : UserId) (c : ChannelId)
  | clearCache (u : UserId) (c : ChannelId)

/-- The upsert of a cursor is one statement, but it looks at the table twice: its first part reads
the row as of the start of the statement (`readCursor`), the insert then waits for the row and
finds it as the others have left it (`upsertCursor`). -/
inductive Op
  | currentPts (c : ChannelId)
  | deliveredPts (u : UserId) (c : ChannelId)
  | forceSet (u : UserId) (c : ChannelId) (pts : ℕ)
  | markReadMember (u : UserId) (c : ChannelId) (pts : ℕ)
  | readCursor (u : UserId) (c : ChannelId)
  | upsertCursor (u : UserId) (c : ChannelId) (pts : ℕ) (existing : Option ℕ)
  | clearing (step : Clearing)
  | broadcast (b : Broadcast)

def Op.Res : Op → Type
  | .currentPts _ => Except String (Option ℕ)
  | .deliveredPts _ _ => ℕ
  | .forceSet _ _ _ => Unit
  | .markReadMember _ _ _ => Option ℕ
  | .readCursor _ _ => Option ℕ
  | .upsertCursor _ _ _ _ => Except String UpsertCursorResult
  | .clearing _ => Except String Unit
  | .broadcast _ => Except ServerError Unit

/-- How an operation went, and the error a broadcast ends with. -/
structure Moment where
  outcome : Outcome
  refusal : Option ServerError

def answer {β : Type} (o : Moment) (b : β) : Except String β :=
  match o.outcome with
  | .ok => .ok b
  | .failed text _ => .error text

def Shared.clear (s : Shared) : Clearing → Shared
  | .ensureUserChannel u c =>
    if (s.unread.get (u, c)).isNone then { s with unread := s.unread.put (u, c) 0 } else s
  | .clearUnread u c => { s with unread := s.unread.modify (u, c) fun _ => 0 }
  | .clearCache _ _ => s

def Shared.exec : (op : Op) → Moment → Shared → op.Res × Shared
  | .currentPts c, o, s => (answer o (s.currentPts c), s)
  | .deliveredPts u c, o, s => (if o.outcome = .ok then s.delivered u c else (0 : ℕ), s)
  | .forceSet u c pts, o, s => ((), if o.outcome.applied then s.setDelivered u c pts else s)
  | .markReadMember u c pts, _, s =>
    match s.cached u c with
    | some old => (some (max old pts), s.setCached u c (some (max old pts)))
    | none => (none, s)
  | .readCursor u c, _, s => (s.lastReadPts u c, s)
  | .upsertCursor u c pts existing, o, s =>
    (answer o ⟨s.greatest u c pts, existing.all (· < pts), existing.getD 0⟩,
      if o.outcome.applied then s.setCursor u c (s.greatest u c pts) else s)
  | .clearing step, o, s => (answer o (), if o.outcome.applied then s.clear step else s)
  | .broadcast b, o, s =>
    ((match o.refusal with
      | some e => .error e
      | none => .ok ()), { s with broadcasts := s.broadcasts ++ [b] })

/-- What others do meanwhile: channels are loaded and dropped, commits are made, and counters
change. Nobody else writes the cursors. -/
inductive Outside
  | setCached (u : UserId) (c : ChannelId) (pts : Option ℕ)
  | setCurrentPts (c : ChannelId) (pts : ℕ)
  | setUnread (u : UserId) (c : ChannelId) (unread : ℕ)

def Shared.outside : Outside → Shared → Shared
  | .setCached u c pts, s => s.setCached u c pts
  | .setCurrentPts c pts, s => { s with currentPts := Function.update s.currentPts c (some pts) }
  | .setUnread u c unread, s => { s with unread := s.unread.put (u, c) unread }

abbrev ReadProg := Prog Op Op.Res ServerError

def clearing (step : Clearing) (error : String → ServerError) : ReadProg Unit :=
  .call (.clearing step) fun r =>
    match (r : Except String Unit) with
    | .ok _ => .ret ()
    | .error e => .fail (error e)

variable (tracked : Bool) (u : UserId) (c : ChannelId) (pts : ℕ)

def currentPts : ReadProg (Option ℕ) :=
  .call (.currentPts c) fun r =>
    match (r : Except String (Option ℕ)) with
    | .ok pts => .ret pts
    | .error e => .fail (.database s!"查询频道 current_pts 失败: {e}")

def markReadMember : ReadProg (Option ℕ) :=
  .call (.markReadMember u c pts) fun r => .ret r

def upsertChannelReadCursorRow : ReadProg UpsertCursorResult :=
  .call (.readCursor u c) fun existing =>
    .call (.upsertCursor u c pts existing) fun r =>
      match (r : Except String UpsertCursorResult) with
      | .ok upserted => .ret upserted
      | .error e => .fail (.database s!"更新 privchat_channel_read_cursor 失败: {e}")

def ensureUserChannelRows : ReadProg Unit :=
  clearing (.ensureUserChannel u c) fun e =>
    .database s!"ensure privchat_user_channels failed for user={u} channel={c}: {e}"

def clearUserChannelUnread : ReadProg Unit := do
  ensureUserChannelRows u c
  clearing (.clearUnread u c) fun e =>
    .database s!"clear privchat_user_channels unread failed for user={u} channel={c}: {e}"

def clearChannel : ReadProg Unit :=
  clearing (.clearCache u c) fun e => .internal s!"清理 unread_count cache 失败: {e}"

def broadcastReadCursor (b : Broadcast) : ReadProg Unit :=
  .call (.broadcast b) fun r =>
    match (r : Except ServerError Unit) with
    | .ok _ => .ret ()
    | .error e => .fail e

/-- Who has read a message has received it. -/
def alignDelivered : ReadProg Unit :=
  if tracked then
    .call (.deliveredPts u c) fun (delivered : ℕ) =>
      if delivered < pts then .call (.forceSet u c pts) fun _ => .ret () else .ret ()
  else .ret ()

/-- What the client asks for, cut down to what it says it has shown. -/
def effectiveReadPts (readPts : ℕ) (clientVisiblePts : Option ℕ) : ℕ :=
  match clientVisiblePts with
  | some visible => min readPts visible
  | none => readPts

/-- What follows once the cursor is stored. -/
def afterUpsert (upserted : UpsertCursorResult) : ReadProg ReadPtsUpdateResult := do
  clearUserChannelUnread u c
  clearChannel u c
  if upserted.advanced then do
    broadcastReadCursor ⟨u, c, upserted.previousPts, upserted.lastReadPts⟩
    return ⟨c, upserted.lastReadPts⟩
  else return ⟨c, upserted.lastReadPts⟩

def acceptRead : ReadProg ReadPtsUpdateResult := do
  alignDelivered tracked u c pts
  match ← markReadMember u c pts with
  | none => .fail (.validation "用户不在该频道")
  | some lastReadPts => do
    let upserted ← upsertChannelReadCursorRow u c lastReadPts
    afterUpsert u c upserted

def markReadPtsWithVisible (readPts : ℕ)
    (clientVisiblePts : Option ℕ) : ReadProg ReadPtsUpdateResult := do
  let current := (← currentPts c).getD 0
  if current < readPts then
    .fail (.validation
      s!"read_pts 超出频道 current_pts: read_pts={readPts}, current_pts={current}")
  else if effectiveReadPts readPts clientVisiblePts = 0 then return ⟨c, 0⟩
  else acceptRead tracked u c (effectiveReadPts readPts clientVisiblePts)

structure Job where
  readerId : UserId
  channelId : ChannelId
  readPts : ℕ
  clientVisiblePts : Option ℕ

abbrev ReadTasks := State Shared Op Op.Res Job ServerError ReadPtsUpdateResult
abbrev ReadEvent := Tasks.Event Moment Outside Job

/-- Whether there is a delivery tracker is up to the set-up of the server. -/
def machine : Machine Shared Op Op.Res Moment Outside Job ServerError ReadPtsUpdateResult where
  prog j := markReadPtsWithVisible tracked j.readerId j.channelId j.readPts j.clientVisiblePts
  exec := Shared.exec
  env := Shared.outside
  admits _ _ := true

end PrivChat.ReadState
